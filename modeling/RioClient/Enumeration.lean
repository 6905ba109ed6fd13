import Mathlib.Data.List.Iterate

/-!
Loops of the form `for (current = first; current != stop; ++current)` over a
type whose successor need not follow an order. They end because the number of
successors between the two ends is known, and that number decides what they visit.
-/

namespace Enumeration

structure Walk (T : Type) where
  next : T → T
  differs : T → T → Bool
  distance : T → T → Nat
  arrived : ∀ current stop, differs current stop = false → distance current stop = 0
  closer : ∀ current stop, differs current stop = true →
    distance current stop = distance (next current) stop + 1

variable {T : Type}

def Walk.visit (walk : Walk T) (current stop : T) : List T :=
  if walk.differs current stop = true then current :: walk.visit (walk.next current) stop
  else []
termination_by walk.distance current stop
decreasing_by
  rename_i differs
  have step := walk.closer current stop differs
  omega

variable (walk : Walk T)

theorem Walk.visit_eq_iterate (current stop : T) :
    walk.visit current stop = List.iterate walk.next current (walk.distance current stop) := by
  fun_induction Walk.visit walk current stop with
  | case1 current differs ih => rw [ih, walk.closer current stop differs, List.iterate]
  | case2 current same =>
      rw [walk.arrived current stop (Bool.eq_false_iff.mpr same), List.iterate]

theorem Walk.visit_eq_map (current stop : T) :
    walk.visit current stop =
      (List.range (walk.distance current stop)).map fun count => walk.next^[count] current := by
  rw [walk.visit_eq_iterate, List.range_map_iterate]

variable {walk}

theorem Walk.differs_iff_distance {current stop : T} :
    walk.differs current stop = true ↔ walk.distance current stop ≠ 0 := by
  constructor
  · intro differs
    rw [walk.closer current stop differs]
    exact Nat.succ_ne_zero _
  · intro away
    by_contra same
    exact away (walk.arrived current stop (Bool.eq_false_iff.mpr same))

theorem Walk.distance_iterate {current stop : T} {count : Nat}
    (early : count ≤ walk.distance current stop) :
    walk.distance (walk.next^[count] current) stop = walk.distance current stop - count := by
  induction count generalizing current with
  | zero => rfl
  | succ count ih =>
      have differs : walk.differs current stop = true :=
        Walk.differs_iff_distance.mpr (Nat.ne_of_gt (Nat.lt_of_lt_of_le (Nat.succ_pos count) early))
      have step := walk.closer current stop differs
      have later := @ih (walk.next current) (by omega)
      rw [Function.iterate_succ_apply, later]
      omega

end Enumeration
