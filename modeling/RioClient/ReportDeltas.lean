import RioClient.SnapshotReads

/-!
A snapshot is not atomic: its counters are loaded one after another while packets
arrive and groups are added. It still never falls behind the snapshot before it:
what it has added up and what it has yet to load cover that one at every step.
-/

namespace RioClient

open KeyedTotals

/-- The most one update adds to a counter; drops come and go. -/
def Counter.amount (update : GroupUpdate) : Counter → Nat
  | .packets => 1
  | .bytes => update.2.pktSize.toNat
  | .outOfOrder => 1
  | .drops => 0

namespace UpdateControl

variable {packet : Packet} {gmc : McGroupStats} {control : UpdateControl} {counter : Counter}

def adds (packet : Packet) : Counter → UpdateControl → UInt64
  | .packets, .countPacket => 1
  | .bytes, .addBytes => packet.pktSize
  | .outOfOrder, .countOutOfOrder => 1
  | _, _ => 0

def pending (packet : Packet) : Counter → UpdateControl → Nat
  | .packets, .addBytes => 0
  | .packets, _ => 1
  | .bytes, _ => packet.pktSize.toNat
  | .outOfOrder, .countPacket => 0
  | .outOfOrder, .addBytes => 0
  | .outOfOrder, _ => 1
  | .drops, _ => 0

theorem load_run (grows : counter ≠ .drops) :
    counter.load (control.run packet gmc).1 = counter.load gmc + control.adds packet counter := by
  cases counter with
  | drops => exact absurd rfl grows
  | packets => cases control <;> simp [Counter.load, run, adds]
  | bytes => cases control <;> simp [Counter.load, run, adds]
  | outOfOrder => cases control <;> simp [Counter.load, run, adds]

theorem pending_run :
    (control.adds packet counter).toNat +
      (control.run packet gmc).2.elim 0 (pending packet counter) ≤
      control.pending packet counter := by
  cases counter <;> cases control <;> simp only [run, Option.elim] <;> (try split) <;>
    simp [adds, pending]

theorem run_counts (grows : counter ≠ .drops)
    (fits : (counter.load gmc).toNat + control.pending packet counter < 2 ^ 64) :
    (counter.load gmc).toNat ≤ (counter.load (control.run packet gmc).1).toNat ∧
    (counter.load (control.run packet gmc).1).toNat +
      (control.run packet gmc).2.elim 0 (pending packet counter) ≤
      (counter.load gmc).toNat + control.pending packet counter := by
  have owed := @pending_run packet gmc control counter
  rw [load_run grows, UInt64.toNat_add, Nat.mod_eq_of_lt (by omega)]
  omega

end UpdateControl

namespace Reporting

variable {c next : Reporting} {counter : Counter}

def counted (counter : Counter) (c : Reporting) : Nat :=
  total (weight counter) c.groupStats

def unloaded (counter : Counter) (c : Reporting) : Nat :=
  total (unreadWeight counter c.reporting) c.groupStats

def pending (counter : Counter) (c : Reporting) : Nat :=
  c.updating.elim 0 fun updating => updating.2.pending updating.1.2 counter

def arrived (counter : Counter) (c : Reporting) : Nat :=
  (c.received.map counter.amount).sum

/-- The last snapshot is covered by what this one has loaded and what it has yet
to load, which in turn is covered by what the groups have counted. -/
structure Tracked (counter : Counter) (c : Reporting) : Prop where
  behind : (counter.ofTotals c.prevStats).toNat ≤
    (counter.ofTotals c.reporting.loaded).toNat + c.unloaded counter
  covered : (counter.ofTotals c.reporting.loaded).toNat + c.unloaded counter ≤ c.counted counter
  accounted : c.counted counter + c.pending counter ≤ c.arrived counter

theorem load_le_total (counter : Counter) (stats : McGroupStatsMap) (group : UInt32) :
    (counter.load (groupEntry stats group)).toNat ≤ total (weight counter) stats := by
  rw [total_eq_add_others stats group (weight_zero counter group)]
  exact Nat.le_add_right _ _

theorem totals_insert {stats : McGroupStatsMap} {group : UInt32} {gmc : McGroupStats}
    {counter : Counter} {control : ReportControl}
    (grown : (counter.load (groupEntry stats group)).toNat ≤ (counter.load gmc).toNat) :
    total (unreadWeight counter control) stats ≤
      total (unreadWeight counter control) (stats.insert group gmc) ∧
    total (unreadWeight counter control) (stats.insert group gmc) +
      total (weight counter) stats ≤
      total (unreadWeight counter control) stats +
        total (weight counter) (stats.insert group gmc) ∧
    total (weight counter) (stats.insert group gmc) +
      (counter.load (groupEntry stats group)).toNat =
      total (weight counter) stats + (counter.load gmc).toNat := by
  rw [total_insert, total_insert,
    total_eq_add_others stats group (unreadWeight_zero counter control group),
    total_eq_add_others stats group (weight_zero counter group)]
  simp only [unreadWeight, weight, ← groupEntry.eq_def]
  split <;> omega

theorem arrived_snoc (counter : Counter) (updates : List GroupUpdate) (update : GroupUpdate) :
    ((updates ++ [update]).map counter.amount).sum =
      (updates.map counter.amount).sum + counter.amount update := by
  rw [List.map_append, List.sum_append, List.map_singleton, List.sum_singleton]

theorem pending_compareEqual (counter : Counter) (update : GroupUpdate) :
    UpdateControl.pending update.2 counter .compareEqual = counter.amount update := by
  cases counter <;> rfl

theorem arrived_le {event : ReportingEvent} (taken : c.step event = some next) :
    c.arrived counter ≤ next.arrived counter := by
  cases step_cases taken with
  | @receive update idle =>
      simp only [arrived, arrived_snoc]
      exact Nat.le_add_right _ _
  | _ => exact Nat.le_refl _

theorem Tracked.moves (tracked : c.Tracked counter) (fits : c.arrived counter < 2 ^ 64)
    {control : ReportControl} (moves : Moves counter c.groupStats c.reporting control) :
    Tracked counter { c with reporting := control } := by
  obtain ⟨behind, covered, accounted⟩ := tracked
  obtain ⟨moved, unread, loaded⟩ := moves
  simp only [unloaded, counted] at behind covered accounted
  rw [unread] at behind covered
  rw [Nat.mod_eq_of_lt (by omega)] at loaded
  constructor <;> simp only [unloaded, counted, loaded]
  · omega
  · omega
  · exact accounted

theorem Tracked.runUpdate (tracked : c.Tracked counter) (grows : counter ≠ .drops)
    (fits : c.arrived counter < 2 ^ 64) {update : GroupUpdate} {control : UpdateControl}
    (here : c.updating = some (update, control)) :
    (c.runUpdate update control).Tracked counter := by
  obtain ⟨behind, covered, accounted⟩ := tracked
  rw [pending, here, Option.elim_some] at accounted
  dsimp only at accounted
  have within := load_le_total counter c.groupStats update.1.sinAddr
  obtain ⟨grown, owed⟩ := @UpdateControl.run_counts update.2
    (groupEntry c.groupStats update.1.sinAddr) control counter grows (by
      rw [counted] at accounted
      omega)
  obtain ⟨more, still, all⟩ :=
    @totals_insert c.groupStats update.1.sinAddr _ counter c.reporting grown
  have left : (c.runUpdate update control).pending counter =
      (control.run update.2 (groupEntry c.groupStats update.1.sinAddr)).2.elim 0
        (UpdateControl.pending update.2 counter) := by
    rw [pending, runUpdate_updating]
    cases (control.run update.2 (groupEntry c.groupStats update.1.sinAddr)).2 <;> rfl
  simp only [unloaded, counted, arrived] at behind covered accounted
  constructor
  · simp only [unloaded, runUpdate_groupStats, runUpdate_reporting, runUpdate_prevStats]
    omega
  · simp only [unloaded, counted, runUpdate_groupStats, runUpdate_reporting]
    omega
  · rw [left]
    simp only [counted, arrived, runUpdate_groupStats, runUpdate_received]
    omega

theorem Tracked.step (grows : counter ≠ .drops) (fits : c.arrived counter < 2 ^ 64)
    (tracked : c.Tracked counter) {event : ReportingEvent}
    (taken : c.step event = some next) : next.Tracked counter := by
  cases step_cases taken with
  | @receive update idle =>
      have unread := @total_insertIfNew _ _ _ _ _ (unreadWeight counter c.reporting) _ _ _
        c.groupStats update.1.sinAddr {} (unreadWeight_zero counter c.reporting _)
      have all := @total_insertIfNew _ _ _ _ _ (weight counter) _ _ _
        c.groupStats update.1.sinAddr {} (weight_zero counter _)
      obtain ⟨behind, covered, accounted⟩ := tracked
      simp only [unloaded, counted, pending, arrived, idle, Option.elim_none]
        at behind covered accounted
      constructor <;> simp only [unloaded, counted, pending, arrived, unread, all,
        Option.elim_some, pending_compareEqual, arrived_snoc] <;> omega
  | @update update control here => exact tracked.runUpdate grows fits here
  | getTotals here => exact tracked.moves fits (here ▸ moves_begin counter _)
  | @load group loading partialStats here =>
      exact tracked.moves fits (here ▸ moves_load counter _ group loading partialStats)
  | @advance group partialStats here =>
      exact tracked.moves fits (here ▸ moves_next counter _ group partialStats)
  | @report statsNow here =>
      obtain ⟨behind, covered, accounted⟩ := tracked
      have none : (counter.ofTotals {}).toNat = 0 := by cases counter <;> rfl
      simp only [unloaded, counted, here, unloaded_finished, ReportControl.loaded] at behind covered
      constructor <;> simp only [unloaded, counted, ReportControl.loaded, unloaded_waiting, none]
      · omega
      · omega
      · exact accounted

theorem tracked_start (groups : List Ipv4Addr) (counter : Counter) :
    (start groups).Tracked counter := by
  have none : (counter.ofTotals {}).toNat = 0 := by cases counter <;> rfl
  have empty := @total_initGroupStats (weight counter) (weight_zero counter) groups
  constructor
  · exact Nat.le_add_right _ _
  · simp only [unloaded, counted, start, ReportControl.loaded, unloaded_waiting, none]
    omega
  · simp only [counted, pending, arrived, start, empty]
    exact Nat.le_refl _

theorem tracked_run {groups : List Ipv4Addr} {events : List ReportingEvent}
    (reached : PartialRun.run step (start groups) events = some c) (grows : counter ≠ .drops)
    (fits : c.arrived counter < 2 ^ 64) : c.Tracked counter := by
  refine @PartialRun.run_invariant _ _ _
    (fun c => c.arrived counter < 2 ^ 64 → c.Tracked counter) ?_ _ _ _
    (fun _ => tracked_start groups counter) reached fits
  intro state event next tracked taken fits
  have before : state.arrived counter < 2 ^ 64 := Nat.lt_of_le_of_lt (arrived_le taken) fits
  exact (tracked before).step grows before taken

/-- The rows printed so far, as far as one counter goes: no snapshot is behind the
one before it, each difference is exact, and together they make the last snapshot. -/
structure Reported (counter : Counter) (c : Reporting) : Prop where
  growing : ∀ row ∈ c.rows, counter.ofTotals row.prevStats ≤ counter.ofTotals row.statsNow
  difference : ∀ row ∈ c.rows, (counter.ofTotals row.prevStats).toNat + (row.delta counter).toNat =
    (counter.ofTotals row.statsNow).toNat
  sum : (c.rows.map fun row => (row.delta counter).toNat).sum =
    (counter.ofTotals c.prevStats).toNat

theorem toNat_delta (prevStats statsNow : TotalStats) (grows : counter ≠ .drops)
    (growing : (counter.ofTotals prevStats).toNat ≤ (counter.ofTotals statsNow).toNat) :
    (counter.ofTotals prevStats).toNat + ((reportRow prevStats statsNow).delta counter).toNat =
      (counter.ofTotals statsNow).toNat := by
  have exact (first second : UInt64) (order : first.toNat ≤ second.toNat) :
      first.toNat + (second - first).toNat = second.toNat := by
    rw [UInt64.toNat_sub_of_le _ _ (UInt64.le_iff_toNat_le.mpr order)]
    omega
  cases counter with
  | drops => exact absurd rfl grows
  | _ => exact exact _ _ growing

theorem Reported.step (reported : c.Reported counter) (tracked : c.Tracked counter)
    (grows : counter ≠ .drops) {event : ReportingEvent} (taken : c.step event = some next) :
    next.Reported counter := by
  cases step_cases taken with
  | @report statsNow here =>
      have behind := tracked.behind
      rw [unloaded, here, unloaded_finished, ReportControl.loaded, Nat.add_zero] at behind
      have exact := toNat_delta c.prevStats statsNow grows behind
      constructor
      · intro row member
        rcases List.mem_append.mp member with earlier | last
        · exact reported.growing row earlier
        · rw [List.mem_singleton.mp last]
          exact UInt64.le_iff_toNat_le.mpr behind
      · intro row member
        rcases List.mem_append.mp member with earlier | last
        · exact reported.difference row earlier
        · rw [List.mem_singleton.mp last]
          exact exact
      · rw [List.map_append, List.sum_append, reported.sum, List.map_singleton, List.sum_singleton]
        exact exact
  | _ => exact ⟨reported.growing, reported.difference, reported.sum⟩

/-- The snapshots follow each other, and MISSING is the growth of the drops, or none. -/
structure Chained (c : Reporting) : Prop where
  previous : c.rows.map ReportRow.prevStats ++ [c.prevStats] =
    {} :: c.rows.map ReportRow.statsNow
  missing : ∀ row ∈ c.rows, row.rxDeltaDropped.toNat =
    row.statsNow.totalDrops.toNat - row.prevStats.totalDrops.toNat

theorem toNat_rxDeltaDropped (prevStats statsNow : TotalStats) :
    (reportRow prevStats statsNow).rxDeltaDropped.toNat =
      statsNow.totalDrops.toNat - prevStats.totalDrops.toNat := by
  simp only [reportRow, least]
  split
  next fallen =>
    have order := UInt64.lt_iff_toNat_lt.mp fallen
    rw [UInt64.sub_self, Nat.sub_eq_zero_of_le (Nat.le_of_lt order)]
    rfl
  next grown => rw [UInt64.toNat_sub_of_le _ _ (UInt64.not_lt.mp grown)]

theorem Chained.step (chained : c.Chained) {event : ReportingEvent}
    (taken : c.step event = some next) : next.Chained := by
  cases step_cases taken with
  | @report statsNow here =>
      constructor
      · simp only [List.map_append, List.map_singleton]
        rw [reportRow, ← List.cons_append, ← chained.previous]
      · intro row member
        rcases List.mem_append.mp member with earlier | last
        · exact chained.missing row earlier
        · rw [List.mem_singleton.mp last]
          exact toNat_rxDeltaDropped c.prevStats statsNow
  | _ => exact ⟨chained.previous, chained.missing⟩

theorem reported_run {groups : List Ipv4Addr} {events : List ReportingEvent}
    (reached : PartialRun.run step (start groups) events = some c) (grows : counter ≠ .drops)
    (fits : c.arrived counter < 2 ^ 64) : c.Reported counter := by
  revert fits
  refine PartialRun.run_induction ?initially ?extended reached
  case initially => exact fun _ => ⟨fun _ member => (List.not_mem_nil member).elim,
      fun _ member => (List.not_mem_nil member).elim, by cases counter <;> rfl⟩
  case extended =>
    intro events state event next before reported taken fits
    have within : state.arrived counter < 2 ^ 64 := Nat.lt_of_le_of_lt (arrived_le taken) fits
    exact (reported within).step (tracked_run before grows within) grows taken

/-- In every interleaving of the updates with the snapshots, as long as the packets
and bytes received fit 64 bits, the counters of a snapshot are never behind those
of the one before, the differences reported are exact and add up to the last
snapshot, and MISSING is never a wrapped difference. -/
theorem report_deltas_exact {groups : List Ipv4Addr} {events : List ReportingEvent} {c : Reporting}
    (reached : PartialRun.run step (start groups) events = some c)
    (packetsFit : c.received.length < 2 ^ 64)
    (bytesFit : (c.received.map fun update => update.2.pktSize.toNat).sum < 2 ^ 64) :
    c.Chained ∧ ∀ counter, counter ≠ Counter.drops → c.Reported counter := by
  constructor
  · exact PartialRun.run_invariant (fun _ _ _ chained taken => chained.step taken)
      ⟨rfl, fun _ member => (List.not_mem_nil member).elim⟩ reached
  · intro counter grows
    refine reported_run reached grows ?_
    have packets : (c.received.map fun _ => 1).sum < 2 ^ 64 := by simpa using packetsFit
    cases counter with
    | packets => exact packets
    | bytes => exact bytesFit
    | outOfOrder => exact packets
    | drops => exact absurd rfl grows

/-- The first snapshot loads the packets before the packet is counted, and its bytes after. -/
theorem report_deltas_exact_torn_snapshot : ∃ c,
    PartialRun.run step (start []) [.receive ({ sinAddr := 17 }, ⟨100, {}⟩), .getTotals, .load,
      .update, .update, .update, .update, .update, .load, .load, .load, .advance, .report,
      .getTotals, .load, .load, .load, .load, .advance, .report] = some c ∧
    c.Chained ∧ ∀ counter, counter ≠ Counter.drops → c.Reported counter := by
  have received : (PartialRun.run step (start []) [.receive ({ sinAddr := 17 }, ⟨100, {}⟩),
      .getTotals, .load, .update, .update, .update, .update, .update, .load, .load, .load,
      .advance, .report, .getTotals, .load, .load, .load, .load, .advance, .report]).map
        Reporting.received = some [({ sinAddr := 17 }, ⟨100, {}⟩)] := by decide
  obtain ⟨c, reached, same⟩ := Option.map_eq_some_iff.mp received
  exact ⟨c, reached, report_deltas_exact reached (by rw [same]; decide) (by rw [same]; decide)⟩

end Reporting

end RioClient
