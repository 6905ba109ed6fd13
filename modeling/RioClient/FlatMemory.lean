import Mathlib.Data.List.GetD
import Mathlib.Logic.Function.Basic

/-!
A flat memory of cells, the windows of it that are read as lists, and the
positions a copy has overwritten.
-/

namespace FlatMemory

variable {α : Type}

abbrev Memory (α : Type) := Nat → α

def window (memory : Memory α) (start length : Nat) : List α :=
  (List.range length).map fun index => memory (start + index)

def overwrite (memory : Memory α) (start : Nat) (values : List α) : Memory α := fun position =>
  if start ≤ position then values.getD (position - start) (memory position) else memory position

variable {memory : Memory α} {start position length index : Nat} {values others : List α}

@[simp] theorem window_length : (window memory start length).length = length := by
  simp [window]

@[simp] theorem getElem_window (inside : index < (window memory start length).length) :
    (window memory start length)[index] = memory (start + index) := by
  simp [window]

theorem window_succ : window memory start (length + 1) =
    window memory start length ++ [memory (start + length)] := by
  rw [window, List.range_succ, List.map_append]
  rfl

theorem window_add {more : Nat} : window memory start (length + more) =
    window memory start length ++ window memory (start + length) more := by
  induction more with
  | zero => exact (List.append_nil _).symm
  | succ more ih =>
      rw [← Nat.add_assoc, window_succ, window_succ, ih, List.append_assoc, Nat.add_assoc]

theorem window_const (value : α) :
    window (fun _ => value) start length = List.replicate length value := by
  rw [window, List.map_const', List.length_range]

theorem overwrite_outside (outside : position < start ∨ start + values.length ≤ position) :
    overwrite memory start values position = memory position := by
  rcases outside with below | behind
  · exact if_neg (Nat.not_le.mpr below)
  · rw [overwrite, if_pos (by omega)]
    exact List.getD_eq_default _ _ (by omega)

theorem overwrite_inside (inside : index < values.length) :
    overwrite memory start values (start + index) = values[index] := by
  rw [overwrite, if_pos (Nat.le_add_right _ _), Nat.add_sub_cancel_left]
  exact List.getD_eq_getElem _ _ inside

theorem overwrite_append_cons (value : α) :
    overwrite memory start (values ++ value :: others) (start + values.length) = value := by
  have inside : values.length < (values ++ value :: others).length := by
    rw [List.length_append, List.length_cons]
    omega
  rw [overwrite_inside inside, List.getElem_append_right (Nat.le_refl _)]
  simp

theorem overwrite_nil : overwrite memory start [] = memory := by
  funext position
  exact overwrite_outside (by rw [List.length_nil]; omega)

theorem overwrite_singleton (value : α) :
    overwrite memory start [value] = Function.update memory start value := by
  funext position
  by_cases here : position = start
  · subst here
    rw [Function.update_self]
    exact @overwrite_inside α memory position 0 [value] Nat.one_pos
  · rw [Function.update_of_ne here, overwrite_outside (by rw [List.length_singleton]; omega)]

theorem overwrite_append :
    overwrite (overwrite memory start values) (start + values.length) others =
      overwrite memory start (values ++ others) := by
  have total : (values ++ others).length = values.length + others.length := List.length_append
  funext position
  by_cases outside : position < start ∨ start + values.length + others.length ≤ position
  · rw [overwrite_outside (by omega), overwrite_outside (by omega), overwrite_outside (by omega)]
  · obtain ⟨index, rfl⟩ := Nat.exists_eq_add_of_le (show start ≤ position by omega)
    rw [overwrite_inside (by omega)]
    by_cases front : index < values.length
    · rw [overwrite_outside (by omega), overwrite_inside front, List.getElem_append_left front]
    · obtain ⟨rest, rfl⟩ := Nat.exists_eq_add_of_le (Nat.not_lt.mp front)
      rw [← Nat.add_assoc, overwrite_inside (by omega),
        List.getElem_append_right (Nat.le_add_right _ _)]
      congr 1
      omega

theorem update_overwrite (value : α) :
    Function.update (overwrite memory start values) (start + values.length) value =
      overwrite memory start (values ++ [value]) := by
  rw [← overwrite_singleton, overwrite_append]

theorem overwrite_update (value : α) :
    overwrite (Function.update memory start value) (start + 1) values =
      overwrite memory start (value :: values) := by
  rw [← overwrite_singleton]
  exact overwrite_append

theorem update_overwrite_front (value : α) :
    Function.update (overwrite memory (start + 1) values) start value =
      overwrite memory start (value :: values) := by
  rw [← overwrite_update]
  funext position
  by_cases here : position = start
  · subst here
    rw [Function.update_self, overwrite_outside (by omega), Function.update_self]
  · rw [Function.update_of_ne here, overwrite, overwrite, Function.update_of_ne here]

theorem overwrite_overwrite (covered : values.length ≤ others.length) :
    overwrite (overwrite memory start values) start others = overwrite memory start others := by
  funext position
  by_cases outside : position < start ∨ start + others.length ≤ position
  · rw [overwrite_outside outside, overwrite_outside outside, overwrite_outside (by omega)]
  · obtain ⟨index, rfl⟩ := Nat.exists_eq_add_of_le (show start ≤ position by omega)
    rw [overwrite_inside (by omega), overwrite_inside (by omega)]

theorem window_overwrite (fits : length ≤ values.length) :
    window (overwrite memory start values) start length = values.take length := by
  apply List.ext_getElem
  · simp [fits]
  · intro index inside _
    rw [window_length] at inside
    rw [getElem_window, overwrite_inside (by omega), List.getElem_take]

theorem window_overwrite_outside {first : Nat}
    (outside : first + length ≤ start ∨ start + values.length ≤ first) :
    window (overwrite memory start values) first length = window memory first length := by
  apply List.map_congr_left
  intro index member
  have inside := List.mem_range.mp member
  exact overwrite_outside (by omega)

theorem window_overwrite_append (fits : values.length ≤ length) :
    ∃ behind, window (overwrite memory start values) start length = values ++ behind := by
  obtain ⟨more, rfl⟩ := Nat.exists_eq_add_of_le fits
  rw [window_add, window_overwrite (Nat.le_refl _), List.take_length]
  exact ⟨_, rfl⟩

/-! The first cell that holds a given value, looked for in a window: the length
of the window where none does. -/

section
variable [BEq α] [LawfulBEq α] {value : α}

theorem idxOf_window_le : (window memory start length).idxOf value ≤ length := by
  have bound := @List.idxOf_le_length _ _ _ (window memory start length) value
  rwa [window_length] at bound

theorem ne_of_lt_idxOf (before : index < (window memory start length).idxOf value) :
    memory (start + index) ≠ value := by
  intro found
  have inside : index < (window memory start length).length := by
    rw [window_length]
    exact Nat.lt_of_lt_of_le before idxOf_window_le
  have differs := List.not_of_lt_findIdx before
  rw [getElem_window, found, beq_self_eq_true] at differs
  exact absurd differs (by decide)

theorem eq_of_idxOf_lt (found : (window memory start length).idxOf value < length) :
    memory (start + (window memory start length).idxOf value) = value := by
  have inside : (window memory start length).idxOf value < (window memory start length).length := by
    rwa [window_length]
  have here := List.getElem_idxOf inside
  rwa [getElem_window] at here

theorem idxOf_window_eq (bound : index ≤ length)
    (before : ∀ earlier < index, memory (start + earlier) ≠ value)
    (here : index < length → memory (start + index) = value) :
    (window memory start length).idxOf value = index := by
  rcases Nat.lt_trichotomy ((window memory start length).idxOf value) index
    with earlier | same | later
  · exact absurd (eq_of_idxOf_lt (Nat.lt_of_lt_of_le earlier bound)) (before _ earlier)
  · exact same
  · have inside := Nat.lt_of_lt_of_le later idxOf_window_le
    exact absurd (here inside) (ne_of_lt_idxOf later)

end

end FlatMemory
