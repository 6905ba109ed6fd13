import RioClient.ReportingSteps

/-!
How a snapshot moves through the map. At every point each counter of each group is
either added up or yet to be loaded, whatever groups are inserted meanwhile.
-/

namespace RioClient

open KeyedTotals

def Counter.rank : Counter → Nat
  | .packets => 0
  | .bytes => 1
  | .outOfOrder => 2
  | .drops => 3

namespace ReportControl

def loaded : ReportControl → TotalStats
  | .waiting => {}
  | .loading _ _ partialStats => partialStats
  | .advancing _ partialStats => partialStats
  | .finished partialStats => partialStats

def unread (counter : Counter) (key : UInt32) : ReportControl → Bool
  | .waiting => true
  | .loading group next _ => group < key || (key = group && next.rank ≤ counter.rank)
  | .advancing group _ => group < key
  | .finished _ => false

end ReportControl

namespace Reporting

def weight (counter : Counter) (_ : UInt32) (gmc : McGroupStats) : Nat :=
  (counter.load gmc).toNat

def unreadWeight (counter : Counter) (control : ReportControl) (key : UInt32)
    (gmc : McGroupStats) : Nat :=
  if control.unread counter key then (counter.load gmc).toNat else 0

theorem weight_zero (counter : Counter) (key : UInt32) : weight counter key {} = 0 := by
  cases counter <;> rfl

theorem unreadWeight_zero (counter : Counter) (control : ReportControl) (key : UInt32) :
    unreadWeight counter control key {} = 0 := by
  cases counter <;> simp [unreadWeight, Counter.load]

theorem keys_sorted (stats : McGroupStatsMap) : stats.keys.Pairwise (· < ·) := by
  refine List.Pairwise.imp (fun ordered => ?_) stats.ordered_keys
  exact Std.compare_eq_lt.mp ordered

theorem unread_beginGroup {stats : McGroupStatsMap} {key : UInt32} (member : key ∈ stats)
    (counter : Counter) (partialStats : TotalStats) :
    (atGroup partialStats (beginGroup stats)).unread counter key = true := by
  have listed : key ∈ stats.keys := Std.TreeMap.mem_keys.mpr member
  have sorted := keys_sorted stats
  cases keys : stats.keys with
  | nil =>
      rw [keys] at listed
      cases listed
  | cons group rest =>
      rw [keys] at listed sorted
      rw [beginGroup, keys, List.head?_cons, atGroup]
      rcases List.mem_cons.mp listed with rfl | later
      · simp [ReportControl.unread, Counter.rank]
      · simp [ReportControl.unread, (List.pairwise_cons.mp sorted).1 key later]

theorem unread_nextGroup {stats : McGroupStatsMap} {key : UInt32} (member : key ∈ stats)
    (counter : Counter) (group : UInt32) (partialStats : TotalStats) :
    (atGroup partialStats (nextGroup stats group)).unread counter key = decide (group < key) := by
  have listed : key ∈ stats.keys := Std.TreeMap.mem_keys.mpr member
  have sorted := keys_sorted stats
  cases found : nextGroup stats group with
  | none =>
      have passed := List.find?_eq_none.mp found key listed
      simpa [atGroup, ReportControl.unread] using passed
  | some next =>
      obtain ⟨beyond, before, after, split, passed⟩ := List.find?_eq_some_iff_append.mp found
      rw [split] at listed sorted
      obtain ⟨_, ascending, below⟩ := List.pairwise_append.mp sorted
      have above : group < next := of_decide_eq_true beyond
      rw [atGroup, ReportControl.unread]
      rcases List.mem_append.mp listed with earlier | later
      · have smaller : key < next := below key earlier next List.mem_cons_self
        have skipped : ¬group < key := by simpa using passed key earlier
        have unequal : key ≠ next := fun same => UInt32.lt_irrefl _ (same ▸ smaller)
        simp [skipped, unequal, UInt32.lt_asymm smaller]
      · rcases List.mem_cons.mp later with rfl | after
        · simp [above, Counter.rank]
        · have larger : next < key := (List.pairwise_cons.mp ascending).1 key after
          simp [larger, UInt32.lt_trans above larger]

theorem unread_afterLoad (group : UInt32) (loading counter : Counter)
    (partialStats added : TotalStats) (key : UInt32) :
    (ReportControl.loading group loading partialStats).unread counter key =
      ((afterLoad group added loading.next).unread counter key ||
        (key = group && loading = counter)) := by
  cases loading <;> cases counter <;>
    simp [Counter.next, afterLoad, ReportControl.unread, Counter.rank]

theorem read_afterLoad (group : UInt32) (counter : Counter) (added : TotalStats) :
    (afterLoad group added counter.next).unread counter group = false := by
  cases counter <;> simp [Counter.next, afterLoad, ReportControl.unread, Counter.rank]

theorem unloaded_load (stats : McGroupStatsMap) (group : UInt32) (loading counter : Counter)
    (partialStats added : TotalStats) :
    total (unreadWeight counter (.loading group loading partialStats)) stats =
      (if loading = counter then (counter.load (groupEntry stats group)).toNat else 0) +
        total (unreadWeight counter (afterLoad group added loading.next)) stats := by
  have split := unread_afterLoad group loading counter partialStats added
  have elsewhere : others (unreadWeight counter (.loading group loading partialStats)) stats group =
      others (unreadWeight counter (afterLoad group added loading.next)) stats group := by
    apply others_congr
    intro key other gmc
    simp [unreadWeight, split, other]
  rw [total_eq_add_others stats group (unreadWeight_zero counter _ group), elsewhere,
    total_eq_add_others stats group (unreadWeight_zero counter _ group), ← Nat.add_assoc]
  congr 1
  by_cases loaded : loading = counter
  · subst loaded
    simp [unreadWeight, split, read_afterLoad, groupEntry]
  · simp [unreadWeight, split, loaded]

theorem unloaded_waiting (counter : Counter) (stats : McGroupStatsMap) :
    total (unreadWeight counter .waiting) stats = total (weight counter) stats :=
  total_congr_weight fun _ _ _ => rfl

theorem unloaded_finished (counter : Counter) (partialStats : TotalStats)
    (stats : McGroupStatsMap) :
    total (unreadWeight counter (.finished partialStats)) stats = 0 := by
  simp [total, unreadWeight, ReportControl.unread]

theorem ofTotals_addLoaded (partialStats : TotalStats) (value : UInt64)
    (loading counter : Counter) :
    counter.ofTotals (partialStats.addLoaded value loading) =
      if loading = counter then counter.ofTotals partialStats + value
      else counter.ofTotals partialStats := by
  cases loading <;> cases counter <;> rfl

theorem loaded_atGroup (partialStats : TotalStats) (group : Option UInt32) :
    (atGroup partialStats group).loaded = partialStats := by
  cases group <;> rfl

theorem loaded_afterLoad (group : UInt32) (partialStats : TotalStats) (counter : Option Counter) :
    (afterLoad group partialStats counter).loaded = partialStats := by
  cases counter <;> rfl

def Moves (counter : Counter) (stats : McGroupStatsMap) (before after : ReportControl) : Prop :=
  ∃ moved, total (unreadWeight counter before) stats =
      moved + total (unreadWeight counter after) stats ∧
    (counter.ofTotals after.loaded).toNat =
      ((counter.ofTotals before.loaded).toNat + moved) % 2 ^ 64

theorem moves_of_same {counter : Counter} {stats : McGroupStatsMap}
    {before after : ReportControl} (loaded : after.loaded = before.loaded)
    (unread : ∀ key ∈ stats, before.unread counter key = after.unread counter key) :
    Moves counter stats before after := by
  refine ⟨0, ?_, ?_⟩
  · rw [Nat.zero_add]
    apply total_congr_weight
    intro key member gmc
    rw [unreadWeight, unreadWeight, unread key member]
  · rw [loaded, Nat.add_zero, Nat.mod_eq_of_lt (UInt64.toNat_lt _)]

theorem moves_begin (counter : Counter) (stats : McGroupStatsMap) :
    Moves counter stats .waiting (atGroup {} (beginGroup stats)) := by
  apply moves_of_same
  · exact loaded_atGroup _ _
  · intro key member
    exact (unread_beginGroup member counter {}).symm

theorem moves_next (counter : Counter) (stats : McGroupStatsMap) (group : UInt32)
    (partialStats : TotalStats) :
    Moves counter stats (.advancing group partialStats)
      (atGroup partialStats (nextGroup stats group)) := by
  apply moves_of_same
  · exact loaded_atGroup _ _
  · intro key member
    exact (unread_nextGroup member counter group partialStats).symm

theorem moves_load (counter : Counter) (stats : McGroupStatsMap) (group : UInt32)
    (loading : Counter) (partialStats : TotalStats) :
    Moves counter stats (.loading group loading partialStats)
      (afterLoad group (partialStats.addLoaded (loading.load (groupEntry stats group)) loading)
        loading.next) := by
  refine ⟨_, unloaded_load stats group loading counter partialStats _, ?_⟩
  rw [loaded_afterLoad, ofTotals_addLoaded, ReportControl.loaded]
  by_cases same : loading = counter
  · rw [if_pos same, if_pos same, same, UInt64.toNat_add]
  · rw [if_neg same, if_neg same, Nat.add_zero, Nat.mod_eq_of_lt (UInt64.toNat_lt _)]

theorem getMcTotals_counter (counter : Counter) (stats : McGroupStatsMap) :
    (counter.ofTotals (getMcTotals stats)).toNat = total (weight counter) stats % 2 ^ 64 := by
  cases counter with
  | packets =>
      exact @getMcTotals_component TotalStats.totalPackets McGroupStats.packets rfl
        (fun _ _ => rfl) stats
  | bytes =>
      exact @getMcTotals_component TotalStats.totalBytes McGroupStats.bytes rfl
        (fun _ _ => rfl) stats
  | outOfOrder =>
      exact @getMcTotals_component TotalStats.totalOutOfOrder McGroupStats.outOfOrder rfl
        (fun _ _ => rfl) stats
  | drops =>
      exact @getMcTotals_component TotalStats.totalDrops McGroupStats.rxDropped rfl
        (fun _ _ => rfl) stats

theorem ofTotals_injective {first second : TotalStats}
    (same : ∀ counter : Counter, counter.ofTotals first = counter.ofTotals second) :
    first = second := by
  cases first
  cases second
  rw [TotalStats.mk.injEq]
  exact ⟨same .packets, same .bytes, same .outOfOrder, same .drops⟩

structure Splits (stats : McGroupStatsMap) (c : Reporting) : Prop where
  kept : c.groupStats = stats
  whole : ∀ counter : Counter, ((counter.ofTotals c.reporting.loaded).toNat +
    total (unreadWeight counter c.reporting) stats) % 2 ^ 64 = total (weight counter) stats % 2 ^ 64

theorem Splits.moves {stats : McGroupStatsMap} {c : Reporting} (splits : Splits stats c)
    {control : ReportControl} (moves : ∀ counter, Moves counter c.groupStats c.reporting control) :
    Splits stats { c with reporting := control } := by
  refine ⟨splits.kept, fun counter => ?_⟩
  obtain ⟨moved, unread, loaded⟩ := moves counter
  rw [splits.kept] at unread
  rw [← splits.whole counter, unread, loaded, Nat.mod_add_mod, Nat.add_assoc]

/-- A snapshot that no update interrupts is `getMcTotals`. -/
theorem snapshot_alone {c finish : Reporting} {events : List ReportingEvent}
    (waiting : c.reporting = .waiting)
    (alone : ∀ event ∈ events, event = .getTotals ∨ event = .load ∨ event = .advance)
    (reached : PartialRun.run step c events = some finish) {statsNow : TotalStats}
    (finished : finish.reporting = .finished statsNow) : statsNow = getMcTotals c.groupStats := by
  have initially : Splits c.groupStats c := by
    refine ⟨rfl, fun counter => ?_⟩
    rw [waiting, unloaded_waiting, ReportControl.loaded]
    cases counter <;> simp [Counter.ofTotals]
  have splits : Splits c.groupStats finish := by
    refine PartialRun.run_invariant_along ?_ initially
      (PartialRun.along_of_forall (fun event member _ => alone event member) c) reached
    intro state event next splits reads taken
    cases step_cases taken with
    | getTotals here => exact splits.moves fun counter => here ▸ moves_begin counter _
    | @load group loading partialStats here =>
        exact splits.moves fun counter => here ▸ moves_load counter _ group loading partialStats
    | @advance group partialStats here =>
        exact splits.moves fun counter => here ▸ moves_next counter _ group partialStats
    | receive => simp at reads
    | update => simp at reads
    | report => simp at reads
  apply ofTotals_injective
  intro counter
  have whole := splits.whole counter
  rw [finished, unloaded_finished, ReportControl.loaded, Nat.add_zero,
    Nat.mod_eq_of_lt (UInt64.toNat_lt _)] at whole
  rw [← UInt64.toNat_inj, whole, getMcTotals_counter]

end Reporting

end RioClient
