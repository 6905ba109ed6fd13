import Mathlib.Algebra.BigOperators.Group.List.Basic
import Mathlib.Algebra.Ring.Nat

/-!
Batches dealt out in turn, each batch from the first receiver on. What every
receiver gets is counted here, and how far the counts drift apart.
-/

namespace Dealing

variable {receivers batch receiver first second : Nat} {batches : List Nat}

def deal (receivers batch : Nat) : List Nat := (List.range batch).map (· % receivers)

def share (receivers batch receiver : Nat) : Nat :=
  batch / receivers + if receiver < batch % receivers then 1 else 0

def shares (receivers : Nat) (batches : List Nat) (receiver : Nat) : Nat :=
  (batches.map fun batch => share receivers batch receiver).sum

theorem deal_succ (receivers batch : Nat) :
    deal receivers (batch + 1) = deal receivers batch ++ [batch % receivers] := by
  simp [deal, List.range_succ]

theorem share_of_dvd (whole : receivers ∣ batch) : share receivers batch receiver =
    batch / receivers := by
  rw [share, Nat.mod_eq_zero_of_dvd whole, if_neg (Nat.not_lt_zero _), Nat.add_zero]

theorem share_succ (bound : receiver < receivers) : share receivers (batch + 1) receiver =
    share receivers batch receiver + if batch % receivers = receiver then 1 else 0 := by
  have positive : 0 < receivers := Nat.zero_lt_of_lt bound
  have below := Nat.mod_lt batch positive
  simp only [share]
  by_cases complete : receivers ∣ batch + 1
  · have last : batch % receivers = receivers - 1 := by
      have parts := Nat.div_add_mod batch receivers
      have multiple : receivers ∣ batch % receivers + 1 := by
        rw [← parts, Nat.add_assoc] at complete
        exact (Nat.dvd_add_right (Nat.dvd_mul_right _ _)).mp complete
      have large := Nat.le_of_dvd (Nat.succ_pos _) multiple
      omega
    rw [Nat.succ_div, if_pos complete, Nat.mod_eq_zero_of_dvd complete, last]
    split <;> split <;> split <;> omega
  · have next : (batch + 1) % receivers = batch % receivers + 1 := by
      rw [← Nat.mod_add_mod]
      refine Nat.mod_eq_of_lt ?_
      rcases Nat.lt_or_ge (batch % receivers + 1) receivers with inside | outside
      · exact inside
      · have parts := Nat.div_add_mod batch receivers
        refine absurd ⟨batch / receivers + 1, ?_⟩ complete
        rw [Nat.mul_add, Nat.mul_one]
        omega
    rw [Nat.succ_div, if_neg complete, next]
    split <;> split <;> split <;> omega

theorem count_deal (bound : receiver < receivers) :
    (deal receivers batch).count receiver = share receivers batch receiver := by
  induction batch with
  | zero => simp [deal, share]
  | succ batch ih =>
      rw [deal_succ, List.count_append, ih, share_succ bound, List.count_singleton]
      simp only [beq_iff_eq]

theorem count_flatMap_deal (bound : receiver < receivers) (batches : List Nat) :
    (batches.flatMap (deal receivers)).count receiver = shares receivers batches receiver := by
  induction batches with
  | nil => rfl
  | cons batch rest ih =>
      rw [List.flatMap_cons, List.count_append, count_deal bound, ih, shares, shares,
        List.map_cons, List.sum_cons]

theorem share_antitone (order : first ≤ second) :
    share receivers batch second ≤ share receivers batch first := by
  simp only [share]
  split <;> split <;> omega

theorem share_le_succ : share receivers batch first ≤ share receivers batch second + 1 := by
  simp only [share]
  split <;> split <;> omega

theorem shares_antitone (order : first ≤ second) :
    shares receivers batches second ≤ shares receivers batches first := by
  induction batches with
  | nil => exact Nat.le_refl _
  | cons batch rest ih =>
      have here := @share_antitone receivers batch first second order
      simp only [shares, List.map_cons, List.sum_cons] at ih ⊢
      omega

theorem shares_gap : shares receivers batches first ≤
    shares receivers batches second + batches.length := by
  induction batches with
  | nil => exact Nat.le_refl _
  | cons batch rest ih =>
      have here := @share_le_succ receivers batch first second
      simp only [shares, List.map_cons, List.sum_cons, List.length_cons] at ih ⊢
      omega

/-- The last receiver is level with the first exactly when every batch is whole rounds. -/
theorem shares_level_iff (positive : 0 < receivers) :
    shares receivers batches 0 = shares receivers batches (receivers - 1) ↔
      receivers = 1 ∨ ∀ batch ∈ batches, receivers ∣ batch := by
  have level (batch : Nat) : share receivers batch 0 = share receivers batch (receivers - 1) ↔
      receivers = 1 ∨ receivers ∣ batch := by
    have below := Nat.mod_lt batch positive
    rw [Nat.dvd_iff_mod_eq_zero]
    simp only [share]
    split <;> split <;> omega
  induction batches with
  | nil => simp [shares]
  | cons batch rest ih =>
      have here := level batch
      have behind := @share_antitone receivers batch 0 (receivers - 1) (Nat.zero_le _)
      have later := @shares_antitone receivers 0 (receivers - 1) rest (Nat.zero_le _)
      calc shares receivers (batch :: rest) 0 = shares receivers (batch :: rest) (receivers - 1)
        _ ↔ share receivers batch 0 = share receivers batch (receivers - 1) ∧
            shares receivers rest 0 = shares receivers rest (receivers - 1) := by
          simp only [shares, List.map_cons, List.sum_cons] at later ⊢
          omega
        _ ↔ (receivers = 1 ∨ receivers ∣ batch) ∧
            (receivers = 1 ∨ ∀ batch ∈ rest, receivers ∣ batch) := and_congr here ih
        _ ↔ receivers = 1 ∨ ∀ other ∈ batch :: rest, receivers ∣ other := by
          rw [← or_and_left, List.forall_mem_cons]

end Dealing
