import Mathlib.Data.List.DropRight

/-!
Trimming a list at both ends: the outer symbols go, up to the first and the last
symbol that is not one. What remains does not depend on the end that comes first.
-/

namespace ListTrim

variable {α : Type} {outer : α → Bool} {front core back : List α}

def trim (outer : α → Bool) (list : List α) : List α := (list.rdropWhile outer).dropWhile outer

def Trimmed (outer : α → Bool) (list : List α) : Prop :=
  ∀ nonempty : list ≠ [], ¬outer (list.head nonempty) ∧ ¬outer (list.getLast nonempty)

/-! `dropWhile` by the index of the first symbol that stays. -/

theorem dropWhile_of_none {list : List α} (none : list.findIdx? (!outer ·) = none) :
    list.dropWhile outer = [] := by
  apply List.dropWhile_eq_nil_iff.mpr
  intro symbol member
  have stays := List.findIdx?_eq_none_iff.mp none symbol member
  rwa [Bool.not_eq_false'] at stays

theorem dropWhile_of_some {list : List α} {index : Nat}
    (some : list.findIdx? (!outer ·) = some index) :
    index < list.length ∧ list.dropWhile outer = list.drop index := by
  obtain ⟨inside, first⟩ := List.findIdx?_eq_some_iff_findIdx_eq.mp some
  refine ⟨inside, ?_⟩
  rw [List.dropWhile_eq_drop_findIdx_not, first]

theorem trimmed_trim (outer : α → Bool) (list : List α) : Trimmed outer (trim outer list) := by
  intro nonempty
  have right : list.rdropWhile outer ≠ [] := by
    intro empty
    rw [trim, empty] at nonempty
    exact nonempty rfl
  constructor
  · rw [Bool.not_eq_true]
    exact List.head_dropWhile_not outer nonempty
  · have last : (trim outer list).getLast nonempty = (list.rdropWhile outer).getLast right :=
      (List.dropWhile_suffix outer).getLast nonempty
    rw [last]
    exact List.rdropWhile_last_not outer list right

theorem exists_trim (outer : α → Bool) (list : List α) :
    ∃ front back, list = front ++ trim outer list ++ back ∧
      (∀ symbol ∈ front, outer symbol) ∧ ∀ symbol ∈ back, outer symbol := by
  refine ⟨(list.rdropWhile outer).takeWhile outer, list.rtakeWhile outer, ?_, ?_, ?_⟩
  · rw [trim, List.takeWhile_append_dropWhile, List.rdropWhile_append_rtakeWhile]
  · intro symbol member
    exact List.mem_takeWhile_imp member
  · intro symbol member
    exact List.mem_rtakeWhile_imp member

theorem rdropWhile_append (allOuter : ∀ symbol ∈ back, outer symbol) :
    (front ++ back).rdropWhile outer = front.rdropWhile outer := by
  induction back using List.reverseRecOn with
  | nil => rw [List.append_nil]
  | append_singleton back symbol ih =>
      have last : outer symbol = true := allOuter symbol (by simp)
      have others : ∀ symbol ∈ back, outer symbol :=
        fun symbol member => allOuter symbol (List.mem_append_left _ member)
      rw [← List.append_assoc, List.rdropWhile_concat_pos outer _ symbol last, ih others]

section
variable (trimmed : Trimmed outer core) (frontOuter : ∀ symbol ∈ front, outer symbol)
  (backOuter : ∀ symbol ∈ back, outer symbol)
include trimmed frontOuter backOuter

/-- The core that is left between the outer symbols is what trimming finds. -/
theorem trim_eq : trim outer (front ++ core ++ back) = core := by
  rw [trim, rdropWhile_append backOuter]
  by_cases empty : core = []
  · rw [empty, List.append_nil, List.rdropWhile_eq_nil_iff.mpr frontOuter, List.dropWhile_nil]
  · have last : ∀ nonempty : front ++ core ≠ [], ¬outer ((front ++ core).getLast nonempty) := by
      intro nonempty
      rw [List.getLast_append_of_ne_nil nonempty empty]
      exact (trimmed empty).2
    rw [List.rdropWhile_eq_self_iff.mpr last, List.dropWhile_append_of_pos frontOuter]
    cases core with
    | nil => rfl
    | cons symbol core => exact List.dropWhile_cons_of_neg (trimmed empty).1

theorem trim_left_first :
    ((front ++ core ++ back).dropWhile outer).rdropWhile outer = core := by
  rw [List.append_assoc, List.dropWhile_append_of_pos frontOuter]
  cases core with
  | nil =>
      rw [List.nil_append, List.dropWhile_eq_nil_iff.mpr backOuter, List.rdropWhile_nil]
  | cons symbol core =>
      have first : ¬outer symbol := (trimmed (List.cons_ne_nil _ _)).1
      rw [List.cons_append, List.dropWhile_cons_of_neg first, ← List.cons_append,
        rdropWhile_append backOuter]
      exact List.rdropWhile_eq_self_iff.mpr fun nonempty => (trimmed nonempty).2

end

theorem trim_idempotent (outer : α → Bool) (list : List α) :
    trim outer (trim outer list) = trim outer list := by
  have again := @trim_eq α outer [] (trim outer list) [] (trimmed_trim outer list) nofun nofun
  rwa [List.nil_append, List.append_nil] at again

theorem rdropWhile_dropWhile_comm (outer : α → Bool) (list : List α) :
    (list.dropWhile outer).rdropWhile outer = (list.rdropWhile outer).dropWhile outer := by
  obtain ⟨front, back, whole, frontOuter, backOuter⟩ := exists_trim outer list
  have left := trim_left_first (trimmed_trim outer list) frontOuter backOuter
  rwa [← whole] at left

end ListTrim
