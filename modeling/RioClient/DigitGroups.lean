import Mathlib.Algebra.Order.Group.Nat
import Mathlib.Data.List.Basic

/-!
Lists cut into groups of a given size, counted from the end: only the first group
may be smaller.
-/

namespace DigitGroups

variable {α : Type}

def Grouped (separator : α) (size : Nat) (symbols text : List α) : Prop :=
  ∃ first rest, text = [separator].intercalate (first :: rest) ∧
    (first :: rest).flatten = symbols ∧ 0 < first.length ∧ first.length ≤ size ∧
    ∀ group ∈ rest, group.length = size

def separated (separator : α) (size : Nat) : List α → List α
  | [] => []
  | symbol :: rest =>
      if (rest.length + 1) % size = 0 then separator :: symbol :: separated separator size rest
      else symbol :: separated separator size rest

variable {separator : α} {size : Nat} {front back text symbols : List α}

theorem intercalate_singleton_cons (first : List α) (rest : List (List α)) :
    [separator].intercalate (first :: rest) = first ++ rest.flatMap (separator :: ·) := by
  induction rest generalizing first with
  | nil => rw [List.intercalate_singleton, List.flatMap_nil, List.append_nil]
  | cons group rest ih =>
      rw [List.intercalate_cons_cons, ih, List.flatMap_cons, List.append_assoc,
        List.singleton_append, List.cons_append]

theorem length_separated : (separated separator size back).length =
    back.length + back.length / size := by
  induction back with
  | nil => simp [separated]
  | cons symbol rest ih =>
      rw [separated, List.length_cons, Nat.succ_div]
      by_cases full : size ∣ rest.length + 1
      · have whole := Nat.mod_eq_zero_of_dvd full
        rw [if_pos whole, if_pos full, List.length_cons, List.length_cons, ih]
        omega
      · have partway : ¬(rest.length + 1) % size = 0 :=
          fun whole => full (Nat.dvd_of_mod_eq_zero whole)
        rw [if_neg partway, if_neg full, List.length_cons, ih]
        omega

theorem separated_append_of_lt (aligned : size ∣ back.length) (small : front.length < size) :
    separated separator size (front ++ back) = front ++ separated separator size back := by
  induction front with
  | nil => rfl
  | cons symbol front ih =>
      have within : front.length < size := Nat.lt_of_succ_lt small
      have partway : ¬((front ++ back).length + 1) % size = 0 := by
        intro whole
        have divides := Nat.dvd_of_mod_eq_zero whole
        rw [List.length_append, Nat.add_right_comm] at divides
        have smaller := Nat.le_of_dvd (Nat.succ_pos _) ((Nat.dvd_add_left aligned).mp divides)
        exact absurd small (Nat.not_lt.mpr smaller)
      rw [List.cons_append, separated, if_neg partway, ih within, List.cons_append]

theorem separated_append_of_eq (aligned : size ∣ back.length) (full : front.length = size)
    (positive : 0 < size) :
    separated separator size (front ++ back) =
      separator :: (front ++ separated separator size back) := by
  cases front with
  | nil =>
      rw [← full] at positive
      exact absurd positive (Nat.lt_irrefl 0)
  | cons symbol front =>
      have whole : ((front ++ back).length + 1) % size = 0 := by
        rw [List.length_append, Nat.add_right_comm, ← List.length_cons, full]
        exact Nat.mod_eq_zero_of_dvd (Nat.dvd_add (Nat.dvd_refl size) aligned)
      have small : front.length < size := by
        rw [← full, List.length_cons]
        exact Nat.lt_succ_self _
      rw [List.cons_append, separated, if_pos whole, separated_append_of_lt aligned small,
        List.cons_append]

theorem exists_groups (positive : 0 < size) {count : Nat} (length : back.length = size * count) :
    ∃ groups : List (List α), (∀ group ∈ groups, group.length = size) ∧ groups.flatten = back ∧
      separated separator size back = groups.flatMap (separator :: ·) := by
  induction count generalizing back with
  | zero =>
      have empty := List.eq_nil_of_length_eq_zero length
      subst empty
      exact ⟨[], nofun, rfl, rfl⟩
  | succ count ih =>
      rw [Nat.mul_succ] at length
      have group : (back.take size).length = size := by
        rw [List.length_take]
        omega
      have others : (back.drop size).length = size * count := by
        rw [List.length_drop]
        omega
      obtain ⟨groups, sizes, flat, text⟩ := ih others
      refine ⟨back.take size :: groups, ?_, ?_, ?_⟩
      · intro member inside
        rcases List.mem_cons.mp inside with rfl | later
        · exact group
        · exact sizes member later
      · rw [List.flatten_cons, flat, List.take_append_drop]
      · have aligned : size ∣ (back.drop size).length := ⟨count, others⟩
        have step : separated separator size (back.take size ++ back.drop size) = _ :=
          separated_append_of_eq aligned group positive
        rw [List.take_append_drop] at step
        rw [step, text, List.flatMap_cons, List.cons_append]

theorem grouped_of_separated (filled : 0 < front.length) (small : front.length ≤ size)
    {count : Nat} (length : back.length = size * count) :
    Grouped separator size (front ++ back) (front ++ separated separator size back) := by
  have positive := Nat.lt_of_lt_of_le filled small
  obtain ⟨groups, sizes, flat, text⟩ := @exists_groups α separator size back positive count length
  refine ⟨front, groups, ?_, ?_, filled, small, sizes⟩
  · rw [intercalate_singleton_cons, text]
  · rw [List.flatten_cons, flat]

theorem filter_of_free [DecidableEq α] (free : separator ∉ text) :
    text.filter (· ≠ separator) = text := by
  apply List.filter_eq_self.mpr
  intro symbol member
  exact decide_eq_true (ne_of_mem_of_not_mem member free)

theorem filter_flatMap [DecidableEq α] {groups : List (List α)}
    (free : ∀ group ∈ groups, separator ∉ group) :
    (groups.flatMap (separator :: ·)).filter (· ≠ separator) = groups.flatten := by
  induction groups with
  | nil => rfl
  | cons group groups ih =>
      have others := ih fun other member => free other (List.mem_cons_of_mem _ member)
      rw [List.flatMap_cons, List.cons_append, List.filter_cons_of_neg (by simp),
        List.filter_append, others, filter_of_free (free group List.mem_cons_self),
        List.flatten_cons]

theorem Grouped.filter_eq [DecidableEq α] (grouped : Grouped separator size symbols text)
    (free : separator ∉ symbols) : text.filter (· ≠ separator) = symbols := by
  obtain ⟨first, rest, rfl, rfl, -⟩ := grouped
  rw [List.flatten_cons, List.mem_append, not_or] at free
  have groupFree : ∀ group ∈ rest, separator ∉ group := by
    intro group member inside
    exact free.2 (List.mem_flatten.mpr ⟨group, member, inside⟩)
  rw [intercalate_singleton_cons, List.filter_append, filter_of_free free.1,
    filter_flatMap groupFree, List.flatten_cons]

theorem Grouped.mem (grouped : Grouped separator size symbols text) {symbol : α}
    (member : symbol ∈ text) : symbol = separator ∨ symbol ∈ symbols := by
  obtain ⟨first, rest, rfl, rfl, -⟩ := grouped
  rw [intercalate_singleton_cons, List.mem_append, List.mem_flatMap] at member
  rw [List.flatten_cons, List.mem_append, List.mem_flatten]
  rcases member with inFirst | ⟨group, inRest, inGroup⟩
  · exact .inr (.inl inFirst)
  · rcases List.mem_cons.mp inGroup with same | inside
    · exact .inl same
    · exact .inr (.inr ⟨group, inRest, inside⟩)

end DigitGroups
