import Mathlib.Order.Interval.Finset.Nat
import Mathlib.Data.List.Induction

/-!
Sequence numbers in order of arrival. A received list is judged by its whole
history: its highest number so far, the numbers of its range still missing, and
the arrivals that neither extend the range nor fill a gap.
-/

namespace SequenceGaps

def first (seqs : List Nat) : Nat := seqs.headD 0

def highest (seqs : List Nat) : Nat := seqs.foldl max 0

def next (seqs : List Nat) : Nat := if seqs.isEmpty then 0 else highest seqs + 1

def missing (seqs : List Nat) : Finset Nat :=
  Finset.Ico (first seqs) (next seqs) \ seqs.toFinset

def countPositions (relation : List Nat → Nat → Bool) (seqs : List Nat) : Nat :=
  seqs.zipIdx.countP fun (value, index) => relation (seqs.take index) value

def isLate (earlier : List Nat) (value : Nat) : Bool := earlier.any fun seq => value ≤ seq

/-- A duplicate, or a number older than the first one received. -/
def isStray (earlier : List Nat) (value : Nat) : Bool :=
  earlier.contains value || decide (value < first earlier)

def lates (seqs : List Nat) : Nat := countPositions isLate seqs

def strays (seqs : List Nat) : Nat := countPositions isStray seqs

/-- At some moment nothing was missing, and no stray arrived after it. -/
def Settled (seqs : List Nat) : Prop :=
  ∃ before after, seqs = before ++ after ∧ missing before = ∅ ∧ strays seqs = strays before

@[simp] theorem next_nil : next [] = 0 := rfl
@[simp] theorem missing_nil : missing [] = ∅ := rfl
@[simp] theorem strays_nil : strays [] = 0 := rfl

theorem highest_snoc (seqs : List Nat) (value : Nat) :
    highest (seqs ++ [value]) = max (highest seqs) value := by
  simp [highest, List.foldl_append]

theorem next_eq_highest {seqs : List Nat} (nonempty : seqs ≠ []) :
    next seqs = highest seqs + 1 := by
  simp [next, nonempty]

theorem next_snoc (seqs : List Nat) (value : Nat) :
    next (seqs ++ [value]) = max (next seqs) (value + 1) := by
  cases seqs with
  | nil => simp [next, highest]
  | cons seq rest =>
      rw [next_eq_highest (by simp), next_eq_highest (by simp), highest_snoc]
      omega

theorem first_snoc {seqs : List Nat} (nonempty : seqs ≠ []) (value : Nat) :
    first (seqs ++ [value]) = first seqs := by
  cases seqs with
  | nil => contradiction
  | cons seq rest => rfl

theorem lt_next_of_mem {seqs : List Nat} {value : Nat} (received : value ∈ seqs) :
    value < next seqs := by
  induction seqs using List.reverseRecOn with
  | nil => simp at received
  | append_singleton seqs last ih =>
      rw [next_snoc]
      rcases List.mem_append.mp received with earlier | now
      · have bound := ih earlier
        omega
      · simp only [List.mem_singleton] at now
        omega

theorem highest_mem {seqs : List Nat} (nonempty : seqs ≠ []) : highest seqs ∈ seqs := by
  induction seqs using List.reverseRecOn with
  | nil => contradiction
  | append_singleton seqs last ih =>
      rw [highest_snoc]
      by_cases empty : seqs = []
      · simp [empty, highest]
      · rcases max_choice (highest seqs) last with earlier | now
        · rw [earlier]
          exact List.mem_append_left _ (ih empty)
        · simp [now]

theorem first_lt_next {seqs : List Nat} (nonempty : seqs ≠ []) : first seqs < next seqs := by
  cases seqs with
  | nil => contradiction
  | cons seq rest => exact lt_next_of_mem (by simp [first])

theorem next_le {seqs : List Nat} {bound : Nat} (bounded : ∀ value ∈ seqs, value < bound) :
    next seqs ≤ bound := by
  by_cases empty : seqs = []
  · simp [empty]
  · rw [next_eq_highest empty]
    exact bounded _ (highest_mem empty)

theorem isLate_iff (earlier : List Nat) (value : Nat) :
    isLate earlier value = true ↔ value < next earlier := by
  simp only [isLate, List.any_eq_true, decide_eq_true_eq]
  constructor
  · rintro ⟨seq, received, higher⟩
    have bound := lt_next_of_mem received
    omega
  · intro below
    have nonempty : earlier ≠ [] := by
      rintro rfl
      simp at below
    rw [next_eq_highest nonempty] at below
    exact ⟨highest earlier, highest_mem nonempty, by omega⟩

theorem isStray_iff (earlier : List Nat) (value : Nat) :
    isStray earlier value = true ↔ value ∈ earlier ∨ value < first earlier := by
  simp [isStray]

theorem countPositions_snoc (relation : List Nat → Nat → Bool) (seqs : List Nat) (value : Nat) :
    countPositions relation (seqs ++ [value]) =
      countPositions relation seqs + if relation seqs value then 1 else 0 := by
  have same : ∀ entry ∈ seqs.zipIdx,
      (relation ((seqs ++ [value]).take entry.2) entry.1 = true ↔
        relation (seqs.take entry.2) entry.1 = true) := by
    intro entry member
    have bound := List.snd_lt_of_mem_zipIdx member
    rw [List.take_append_of_le_length (by omega)]
  simp only [countPositions, List.zipIdx_append, List.countP_append, List.zipIdx_singleton,
    List.countP_singleton, Nat.zero_add]
  rw [List.countP_congr same]
  simp

theorem lates_snoc (seqs : List Nat) (value : Nat) :
    lates (seqs ++ [value]) = lates seqs + if value < next seqs then 1 else 0 := by
  rw [lates, countPositions_snoc, lates]
  simp only [isLate_iff]

theorem strays_snoc (seqs : List Nat) (value : Nat) :
    strays (seqs ++ [value]) =
      strays seqs + if value ∈ seqs ∨ value < first seqs then 1 else 0 := by
  rw [strays, countPositions_snoc, strays]
  simp only [isStray_iff]

theorem strays_append_le (before after : List Nat) : strays before ≤ strays (before ++ after) := by
  induction after using List.reverseRecOn with
  | nil => simp
  | append_singleton after value ih =>
      rw [← List.append_assoc, strays_snoc]
      omega

@[simp] theorem missing_singleton (value : Nat) : missing [value] = ∅ := by
  ext seq
  simp [missing, first, next, highest]

theorem missing_card_fresh {seqs : List Nat} {value : Nat} (nonempty : seqs ≠ [])
    (fresh : next seqs ≤ value) :
    (missing (seqs ++ [value])).card = (missing seqs).card + (value - next seqs) := by
  have split : missing (seqs ++ [value]) = missing seqs ∪ Finset.Ico (next seqs) value := by
    have start := first_lt_next nonempty
    ext seq
    simp only [missing, first_snoc nonempty, next_snoc, Finset.mem_sdiff, Finset.mem_Ico,
      List.mem_toFinset, Finset.mem_union, List.mem_append, List.mem_singleton]
    constructor
    · rintro ⟨⟨lower, upper⟩, absent⟩
      by_cases old : seq < next seqs
      · exact Or.inl ⟨⟨lower, old⟩, fun received => absent (Or.inl received)⟩
      · exact Or.inr ⟨by omega, by have := fun same => absent (Or.inr same); omega⟩
    · rintro (⟨⟨lower, upper⟩, absent⟩ | ⟨lower, upper⟩)
      · refine ⟨⟨lower, by omega⟩, ?_⟩
        rintro (received | same)
        · exact absent received
        · omega
      · refine ⟨⟨by omega, by omega⟩, ?_⟩
        rintro (received | same)
        · have bound := lt_next_of_mem received
          omega
        · omega
  have apart : Disjoint (missing seqs) (Finset.Ico (next seqs) value) := by
    rw [Finset.disjoint_left]
    intro seq old new
    simp only [missing, Finset.mem_sdiff, Finset.mem_Ico] at old new
    omega
  rw [split, Finset.card_union_of_disjoint apart, Nat.card_Ico]

theorem missing_recovered {seqs : List Nat} {value : Nat} (nonempty : seqs ≠ [])
    (late : value < next seqs) (unseen : value ∉ seqs) (recent : first seqs ≤ value) :
    value ∈ missing seqs ∧ missing (seqs ++ [value]) = (missing seqs).erase value := by
  constructor
  · simp [missing, late, unseen, recent]
  · ext seq
    simp only [missing, first_snoc nonempty, next_snoc, Finset.mem_sdiff, Finset.mem_Ico,
      List.mem_toFinset, Finset.mem_erase, List.mem_append, List.mem_singleton, not_or]
    rw [max_eq_left (by omega : value + 1 ≤ next seqs)]
    tauto

theorem missing_card_recovered {seqs : List Nat} {value : Nat} (nonempty : seqs ≠ [])
    (late : value < next seqs) (unseen : value ∉ seqs) (recent : first seqs ≤ value) :
    (missing (seqs ++ [value])).card + 1 = (missing seqs).card := by
  obtain ⟨present, erased⟩ := missing_recovered nonempty late unseen recent
  rw [erased]
  exact Finset.card_erase_add_one present

theorem not_fresh_of_stray {seqs : List Nat} {value : Nat}
    (stray : value ∈ seqs ∨ value < first seqs) : seqs ≠ [] ∧ value < next seqs := by
  have nonempty : seqs ≠ [] := by
    rintro rfl
    simp [first] at stray
  refine ⟨nonempty, ?_⟩
  rcases stray with received | old
  · exact lt_next_of_mem received
  · have start := first_lt_next nonempty
    omega

theorem missing_stray {seqs : List Nat} {value : Nat}
    (stray : value ∈ seqs ∨ value < first seqs) : missing (seqs ++ [value]) = missing seqs := by
  obtain ⟨nonempty, late⟩ := not_fresh_of_stray stray
  ext seq
  simp only [missing, first_snoc nonempty, next_snoc, Finset.mem_sdiff, Finset.mem_Ico,
    List.mem_toFinset, List.mem_append, List.mem_singleton, not_or]
  rw [max_eq_left (by omega : value + 1 ≤ next seqs)]
  constructor
  · rintro ⟨range, absent, _⟩
    exact ⟨range, absent⟩
  · rintro ⟨range, absent⟩
    refine ⟨range, absent, ?_⟩
    rintro rfl
    rcases stray with received | old
    · exact absent received
    · omega

theorem length_add_missing (seqs : List Nat) :
    seqs.length + (missing seqs).card = (next seqs - first seqs) + strays seqs := by
  induction seqs using List.reverseRecOn with
  | nil => simp
  | append_singleton seqs value ih =>
      by_cases empty : seqs = []
      · subst empty
        have single := strays_snoc [] value
        simp only [List.nil_append, List.not_mem_nil, false_or, first, List.headD_nil,
          Nat.not_lt_zero, if_false] at single
        simp [single, next, highest, first]
      · have start := first_lt_next empty
        rw [List.length_append, List.length_singleton, strays_snoc, next_snoc, first_snoc empty]
        by_cases stray : value ∈ seqs ∨ value < first seqs
        · have late := (not_fresh_of_stray stray).2
          rw [missing_stray stray, if_pos stray, max_eq_left (by omega)]
          omega
        · rw [if_neg stray]
          rw [not_or, not_lt] at stray
          by_cases fresh : next seqs ≤ value
          · rw [missing_card_fresh empty fresh, max_eq_right (by omega)]
            omega
          · have filled := missing_card_recovered empty (by omega) stray.1 stray.2
            rw [max_eq_left (by omega)]
            omega

theorem strays_eq_zero {seqs : List Nat} (distinct : seqs.Nodup)
    (recent : ∀ value ∈ seqs, first seqs ≤ value) : strays seqs = 0 := by
  induction seqs using List.reverseRecOn with
  | nil => rfl
  | append_singleton seqs value ih =>
      rw [strays_snoc]
      have parts := List.nodup_append.mp distinct
      have unseen : value ∉ seqs := fun received => parts.2.2 value received value (by simp) rfl
      by_cases empty : seqs = []
      · subst empty
        simp [first]
      · rw [first_snoc empty] at recent
        have old := recent value (by simp)
        have rest := ih parts.1 fun seq received => recent seq (by simp [received])
        rw [rest, if_neg]
        rintro (received | older)
        · exact unseen received
        · omega

/-! A stream in order and without repetition: only its gaps are left to count. -/

theorem increasing_snoc {seqs : List Nat} {value : Nat} :
    (seqs ++ [value]).Pairwise (· < ·) ↔
      seqs.Pairwise (· < ·) ∧ ∀ seq ∈ seqs, seq < value := by
  simp [List.pairwise_append]

theorem next_le_of_increasing {seqs : List Nat} {value : Nat}
    (increasing : (seqs ++ [value]).Pairwise (· < ·)) : next seqs ≤ value :=
  next_le (increasing_snoc.mp increasing).2

theorem lates_of_increasing {seqs : List Nat} (increasing : seqs.Pairwise (· < ·)) :
    lates seqs = 0 := by
  induction seqs using List.reverseRecOn with
  | nil => rfl
  | append_singleton seqs value ih =>
      have fresh := next_le_of_increasing increasing
      rw [lates_snoc, ih (increasing_snoc.mp increasing).1, if_neg (by omega)]

theorem first_eq_head {seqs : List Nat} (nonempty : seqs ≠ []) :
    first seqs = seqs.head nonempty := by
  cases seqs with
  | nil => contradiction
  | cons seq rest => rfl

theorem first_le_of_increasing {seqs : List Nat} (increasing : seqs.Pairwise (· < ·))
    {value : Nat} (received : value ∈ seqs) : first seqs ≤ value := by
  cases seqs with
  | nil => simp at received
  | cons seq rest =>
      rcases List.mem_cons.mp received with same | later
      · exact Nat.le_of_eq same.symm
      · exact Nat.le_of_lt ((List.pairwise_cons.mp increasing).1 value later)

theorem strays_of_increasing {seqs : List Nat} (increasing : seqs.Pairwise (· < ·)) :
    strays seqs = 0 :=
  strays_eq_zero (increasing.imp Nat.ne_of_lt) fun _ => first_le_of_increasing increasing

theorem highest_of_increasing {seqs : List Nat} (increasing : seqs.Pairwise (· < ·))
    (nonempty : seqs ≠ []) : highest seqs = seqs.getLast nonempty := by
  induction seqs using List.reverseRecOn with
  | nil => contradiction
  | append_singleton seqs value ih =>
      rw [List.getLast_append_singleton, highest_snoc]
      by_cases empty : seqs = []
      · simp [empty, highest]
      · have fresh := next_le_of_increasing increasing
        rw [next_eq_highest empty] at fresh
        omega

theorem missing_of_increasing {seqs : List Nat} (increasing : seqs.Pairwise (· < ·))
    (nonempty : seqs ≠ []) :
    missing seqs =
      Finset.Ioo (seqs.head nonempty) (seqs.getLast nonempty) \ seqs.toFinset := by
  have start := first_eq_head nonempty
  have finish := highest_of_increasing increasing nonempty
  have firstIn : seqs.head nonempty ∈ seqs := List.head_mem nonempty
  have lastIn : seqs.getLast nonempty ∈ seqs := List.getLast_mem nonempty
  ext seq
  simp only [missing, start, next_eq_highest nonempty, finish, Finset.mem_sdiff, Finset.mem_Ico,
    Finset.mem_Ioo, List.mem_toFinset]
  constructor
  · rintro ⟨⟨lower, upper⟩, absent⟩
    have afterFirst : seq ≠ seqs.head nonempty := fun same => absent (same ▸ firstIn)
    have beforeLast : seq ≠ seqs.getLast nonempty := fun same => absent (same ▸ lastIn)
    exact ⟨⟨by omega, by omega⟩, absent⟩
  · rintro ⟨⟨lower, upper⟩, absent⟩
    exact ⟨⟨by omega, by omega⟩, absent⟩

theorem Settled.of_no_strays {seqs : List Nat} (none : strays seqs = 0) : Settled seqs :=
  ⟨[], seqs, rfl, rfl, none⟩

theorem Settled.of_missing_empty {seqs : List Nat} (none : missing seqs = ∅) : Settled seqs :=
  ⟨seqs, [], by simp, none, rfl⟩

theorem settled_snoc (seqs : List Nat) (value : Nat) :
    Settled (seqs ++ [value]) ↔ missing (seqs ++ [value]) = ∅ ∨
      (Settled seqs ∧ ¬(value ∈ seqs ∨ value < first seqs)) := by
  constructor
  · rintro ⟨before, after, parts, none, same⟩
    cases after using List.reverseRecOn with
    | nil =>
        rw [List.append_nil] at parts
        exact Or.inl (parts ▸ none)
    | append_singleton after last =>
        rw [← List.append_assoc] at parts
        obtain ⟨rfl, ending⟩ := List.append_inj' parts rfl
        rw [strays_snoc] at same
        have monotone := strays_append_le before after
        split at same
        · omega
        · rename_i fresh
          exact Or.inr ⟨⟨before, after, rfl, none, by omega⟩, fresh⟩
  · rintro (none | ⟨⟨before, after, rfl, none, same⟩, fresh⟩)
    · exact Settled.of_missing_empty none
    · refine ⟨before, after ++ [value], by simp, none, ?_⟩
      rw [strays_snoc, if_neg fresh]
      omega

theorem missing_card_le (seqs : List Nat) : (missing seqs).card ≤ next seqs - first seqs := by
  have bound := Finset.card_le_card (Finset.sdiff_subset (s := Finset.Ico (first seqs) (next seqs))
    (t := seqs.toFinset))
  rwa [Nat.card_Ico] at bound

/-! A drop counter adds every gap and gives one back for every late arrival,
without knowing which numbers are missing. -/

def report (earlier : List Nat) (count value : Nat) : Nat :=
  if value < next earlier then count - 1
  else if earlier.isEmpty then count
  else count + (value - next earlier)

def reportFrom (earlier : List Nat) (count : Nat) : List Nat → Nat
  | [] => count
  | value :: rest => reportFrom (earlier ++ [value]) (report earlier count value) rest

def reported (seqs : List Nat) : Nat := reportFrom [] 0 seqs

theorem reportFrom_snoc (earlier : List Nat) (count : Nat) (seqs : List Nat) (value : Nat) :
    reportFrom earlier count (seqs ++ [value]) =
      report (earlier ++ seqs) (reportFrom earlier count seqs) value := by
  induction seqs generalizing earlier count with
  | nil => simp [reportFrom]
  | cons seq rest ih => simp [reportFrom, ih, List.append_assoc]

theorem reported_snoc (seqs : List Nat) (value : Nat) :
    reported (seqs ++ [value]) = report seqs (reported seqs) value := by
  simpa [reported] using reportFrom_snoc [] 0 seqs value

theorem report_late {earlier : List Nat} {value : Nat} (late : value < next earlier)
    (count : Nat) : report earlier count value = count - 1 := by
  simp [report, late]

theorem report_fresh {earlier : List Nat} {value : Nat} (nonempty : earlier ≠ [])
    (fresh : next earlier ≤ value) (count : Nat) :
    report earlier count value = count + (value - next earlier) := by
  simp [report, nonempty, Nat.not_lt.mpr fresh]

theorem report_first (count value : Nat) : report [] count value = count := by
  simp [report]

theorem report_le_missing {earlier : List Nat} {count : Nat}
    (below : count ≤ (missing earlier).card) (value : Nat) :
    report earlier count value ≤ (missing (earlier ++ [value])).card := by
  by_cases empty : earlier = []
  · subst empty
    simpa [report_first] using below
  · by_cases stray : value ∈ earlier ∨ value < first earlier
    · rw [report_late (not_fresh_of_stray stray).2, missing_stray stray]
      omega
    · rw [not_or, not_lt] at stray
      by_cases late : value < next earlier
      · have filled := missing_card_recovered empty late stray.1 stray.2
        rw [report_late late]
        omega
      · rw [report_fresh empty (by omega), missing_card_fresh empty (by omega)]
        omega

theorem report_deficit {earlier : List Nat} {count : Nat}
    (above : (missing earlier).card ≤ count + strays earlier) (value : Nat) :
    (missing (earlier ++ [value])).card ≤
      report earlier count value + strays (earlier ++ [value]) := by
  rw [strays_snoc]
  by_cases empty : earlier = []
  · subst empty
    simp
  · by_cases stray : value ∈ earlier ∨ value < first earlier
    · rw [report_late (not_fresh_of_stray stray).2, missing_stray stray, if_pos stray]
      omega
    · rw [if_neg stray]
      rw [not_or, not_lt] at stray
      by_cases late : value < next earlier
      · have filled := missing_card_recovered empty late stray.1 stray.2
        rw [report_late late]
        omega
      · rw [report_fresh empty (by omega), missing_card_fresh empty (by omega)]
        omega

theorem report_exact {earlier : List Nat} {count : Nat}
    (below : count ≤ (missing earlier).card)
    (exact : count = (missing earlier).card ↔ Settled earlier) (value : Nat) :
    report earlier count value = (missing (earlier ++ [value])).card ↔
      Settled (earlier ++ [value]) := by
  rw [settled_snoc, ← exact, ← Finset.card_eq_zero]
  by_cases empty : earlier = []
  · subst empty
    simpa [report_first] using below
  · by_cases stray : value ∈ earlier ∨ value < first earlier
    · -- a stray takes one from the counter and nothing from the missing set
      rw [report_late (not_fresh_of_stray stray).2, missing_stray stray]
      simp only [stray, not_true_eq_false, and_false, or_false]
      omega
    · simp only [stray, not_false_eq_true, and_true]
      rw [not_or, not_lt] at stray
      by_cases late : value < next earlier
      · have filled := missing_card_recovered empty late stray.1 stray.2
        rw [report_late late]
        omega
      · rw [report_fresh empty (by omega), missing_card_fresh empty (by omega)]
        omega

theorem reported_le_missing (seqs : List Nat) : reported seqs ≤ (missing seqs).card := by
  induction seqs using List.reverseRecOn with
  | nil => exact Nat.zero_le _
  | append_singleton seqs value ih =>
      rw [reported_snoc]
      exact report_le_missing ih value

/-- Every stray hides at most one missing number. -/
theorem missing_le_reported_add_strays (seqs : List Nat) :
    (missing seqs).card ≤ reported seqs + strays seqs := by
  induction seqs using List.reverseRecOn with
  | nil => simp
  | append_singleton seqs value ih =>
      rw [reported_snoc]
      exact report_deficit ih value

/-- The counter is exact for the settled streams and for no others. -/
theorem reported_eq_missing_iff (seqs : List Nat) :
    reported seqs = (missing seqs).card ↔ Settled seqs := by
  induction seqs using List.reverseRecOn with
  | nil => simp [reported, reportFrom, Settled.of_missing_empty missing_nil]
  | append_singleton seqs value ih =>
      rw [reported_snoc]
      exact report_exact (reported_le_missing seqs) ih value

end SequenceGaps
