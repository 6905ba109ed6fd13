import Mathlib.Algebra.Order.Monoid.Defs
import Mathlib.Order.Basic

/-!
A controlled value that is put on a floor whenever a correction takes it below a
limit. Where the floor is below the limit there is a gap: a value on the floor
leaves it only by a correction that crosses the gap at once.
-/

namespace FlooredControl

section
variable {α : Type} [LinearOrder α]

def settle (floor limit value : α) : α := if value < limit then floor else value

def Settled (floor limit value : α) : Prop := value = floor ∨ limit ≤ value

variable {floor limit current value : α}

theorem settled_settle : Settled floor limit (settle floor limit value) := by
  rw [settle]
  split
  next => exact .inl rfl
  next high => exact .inr (not_lt.mp high)

theorem Settled.floor_le (settled : Settled floor limit value) (gap : floor < limit) :
    floor ≤ value := by
  rcases settled with rfl | high
  · exact le_refl _
  · exact le_trans (le_of_lt gap) high

theorem Settled.settle_le (settled : Settled floor limit current) (gap : floor < limit)
    (lowered : value ≤ current) : settle floor limit value ≤ current := by
  rw [settle]
  split
  next => exact settled.floor_le gap
  next => exact lowered

theorem settle_eq_floor_iff (gap : floor < limit) :
    settle floor limit value = floor ↔ value < limit := by
  rw [settle]
  split
  next low => exact iff_of_true rfl low
  next high =>
    refine iff_of_false ?_ high
    rintro rfl
    exact high gap

theorem Settled.lt_settle_iff (settled : Settled floor limit current) (raised : current < value) :
    current < settle floor limit value ↔ limit ≤ value := by
  rw [settle]
  split
  next low =>
    refine iff_of_false ?_ (not_le.mpr low)
    rcases settled with rfl | high
    · exact lt_irrefl _
    · exact absurd (lt_trans raised low) (not_lt.mpr high)
  next high => exact iff_of_true raised (not_lt.mp high)

end

section
variable {α : Type} [AddCommMonoid α] [LinearOrder α] [IsOrderedCancelAddMonoid α]

def raiseAll (floor limit : α) : α → List α → α :=
  List.foldl fun current raise => settle floor limit (current + raise)

variable {floor limit current : α}

theorem Settled.add_lt_limit_iff {raise : α} (settled : Settled floor limit current)
    (gap : floor < limit) (positive : 0 < raise) :
    current + raise < limit ↔ current = floor ∧ floor + raise < limit := by
  rcases settled with rfl | high
  · exact (and_iff_right rfl).symm
  · have above : limit < current + raise := lt_of_le_of_lt high (lt_add_of_pos_right _ positive)
    refine iff_of_false (not_lt.mpr (le_of_lt above)) ?_
    rintro ⟨rfl, _⟩
    exact not_lt.mpr high gap

/-- However often it is raised, a value is on the floor only if it started there and
no raise crosses the gap. -/
theorem Settled.raiseAll_eq_floor_iff {raises : List α} (settled : Settled floor limit current)
    (gap : floor < limit) (positive : ∀ raise ∈ raises, 0 < raise) :
    raiseAll floor limit current raises = floor ↔
      current = floor ∧ ∀ raise ∈ raises, floor + raise < limit := by
  induction raises generalizing current with
  | nil => simp [raiseAll]
  | cons raise raises ih =>
      have later := @ih (settle floor limit (current + raise)) settled_settle
        fun raise member => positive raise (List.mem_cons_of_mem _ member)
      have first := settled.add_lt_limit_iff gap (positive raise List.mem_cons_self)
      rw [raiseAll, List.foldl_cons, ← raiseAll, later, settle_eq_floor_iff gap, first,
        List.forall_mem_cons, and_assoc]

end

end FlooredControl
