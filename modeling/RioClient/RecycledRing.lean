import Mathlib.Data.List.Nodup

/-!
A ring of `size` slots. The first `size` requests take the slots in turn; every
later one takes the slot named by a counter of the repostings, which wraps at
`word`.
-/

namespace RecycledRing

def counterSlot (word size count : Nat) : Nat := count % word % size

def slotOf (word size index : Nat) : Nat :=
  if index < size then index else counterSlot word size (index - size)

theorem eq_of_mod_eq {size low high : Nat} (same : low % size = high % size)
    (order : low ≤ high) (close : high < low + size) : low = high := by
  have divides : size ∣ high - low :=
    Nat.dvd_of_mod_eq_zero (Nat.sub_mod_eq_zero_of_mod_eq same.symm)
  have zero := Nat.eq_zero_of_dvd_of_lt divides (by omega)
  omega

theorem slotOf_initial {word size index : Nat} (bound : index < size) :
    slotOf word size index = index := by
  simp [slotOf, bound]

theorem slotOf_reposted (word size count : Nat) :
    slotOf word size (size + count) = counterSlot word size count := by
  simp only [slotOf, Nat.add_sub_cancel_left]
  rw [if_neg (by omega)]

theorem slotOf_eq_mod {word size index : Nat} (bound : index < word + size) :
    slotOf word size index = index % size := by
  unfold slotOf counterSlot
  split
  · rename_i initial
    exact (Nat.mod_eq_of_lt initial).symm
  · rename_i reposted
    rw [Nat.mod_eq_of_lt (by omega : index - size < word)]
    exact (Nat.mod_eq_sub_mod (by omega)).symm

theorem slotOf_lt {word size : Nat} (positive : 0 < size) (index : Nat) :
    slotOf word size index < size := by
  unfold slotOf
  split
  · assumption
  · exact Nat.mod_lt _ positive

/-- A counter that lags behind the oldest pending request names another slot. -/
theorem counterSlot_eq_slotOf_iff {word size count index : Nat}
    (order : count ≤ index) (pending : index < size + count) (bound : index < word) :
    counterSlot word size count = slotOf word size index ↔ count = index := by
  rw [slotOf_eq_mod (by omega), counterSlot, Nat.mod_eq_of_lt (by omega : count < word)]
  constructor
  · intro same
    exact eq_of_mod_eq same order (by omega)
  · rintro rfl
    rfl

theorem counterSlot_eq_slotOf {word size index : Nat} (bound : index < word) :
    counterSlot word size index = slotOf word size index := by
  rw [slotOf_eq_mod (by omega), counterSlot, Nat.mod_eq_of_lt bound]

theorem counterSlot_wrap_ne {word size : Nat} (positive : 0 < size)
    (uneven : ¬size ∣ word) : counterSlot word size word ≠ slotOf word size word := by
  rw [slotOf_eq_mod (by omega), counterSlot, Nat.mod_self, Nat.zero_mod]
  intro same
  exact uneven (Nat.dvd_of_mod_eq_zero same.symm)

theorem window_nodup {word size start count : Nat} (fits : count ≤ size)
    (bound : start + count ≤ word + size) :
    ((List.range' start count).map (slotOf word size)).Nodup := by
  apply List.Nodup.map_on _ List.nodup_range'
  intro low lowMember high highMember same
  rw [List.mem_range'_1] at lowMember highMember
  rw [slotOf_eq_mod (by omega), slotOf_eq_mod (by omega)] at same
  rcases Nat.le_total low high with order | order
  · exact eq_of_mod_eq same order (by omega)
  · exact (eq_of_mod_eq same.symm order (by omega)).symm

end RecycledRing
