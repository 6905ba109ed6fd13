import Mathlib.Data.List.Basic

/-!
Lines of right aligned columns, and the words read back from them. A column is
filled up to its width on the left, and a longer text makes it wider.
-/

namespace AlignedColumns

variable {α : Type}

def padLeft (fill : α) (width : Nat) (text : List α) : List α :=
  List.replicate (width - text.length) fill ++ text

structure Cell (α : Type) where
  gap : List α
  width : Nat
  text : List α

def Cell.print (fill : α) (cell : Cell α) : List α :=
  cell.gap ++ padLeft fill cell.width cell.text

def Cell.Apart (cell : Cell α) : Prop := cell.gap ≠ [] ∨ cell.text.length < cell.width

def wordsFrom (blank : α → Bool) (word : List α) : List α → List (List α)
  | [] => if word.isEmpty then [] else [word]
  | symbol :: rest =>
      if blank symbol then
        if word.isEmpty then wordsFrom blank [] rest else word :: wordsFrom blank [] rest
      else wordsFrom blank (word ++ [symbol]) rest

def words (blank : α → Bool) (text : List α) : List (List α) := wordsFrom blank [] text

variable {blank : α → Bool} {fill : α} {word more gap rest : List α} {cells : List (Cell α)}

theorem wordsFrom_append (solid : ∀ symbol ∈ more, blank symbol = false) :
    wordsFrom blank word (more ++ rest) = wordsFrom blank (word ++ more) rest := by
  induction more generalizing word with
  | nil => rw [List.nil_append, List.append_nil]
  | cons symbol more ih =>
      have here := solid symbol List.mem_cons_self
      rw [List.cons_append, wordsFrom, here, if_neg Bool.false_ne_true,
        ih fun later member => solid later (List.mem_cons_of_mem _ member), List.append_assoc,
        List.singleton_append]

theorem words_blanks_append (blanks : ∀ symbol ∈ gap, blank symbol = true) :
    words blank (gap ++ rest) = words blank rest := by
  induction gap with
  | nil => rfl
  | cons symbol gap ih =>
      have here := blanks symbol List.mem_cons_self
      rw [List.cons_append, words, wordsFrom, if_pos here, List.isEmpty_nil, if_pos rfl]
      exact ih fun later member => blanks later (List.mem_cons_of_mem _ member)

theorem wordsFrom_blanks_append (present : word ≠ []) (nonempty : gap ≠ [])
    (blanks : ∀ symbol ∈ gap, blank symbol = true) :
    wordsFrom blank word (gap ++ rest) = word :: words blank rest := by
  cases gap with
  | nil => exact absurd rfl nonempty
  | cons symbol gap =>
      have here := blanks symbol List.mem_cons_self
      rw [List.cons_append, wordsFrom, if_pos here, if_neg (by simp [present])]
      exact congrArg (word :: ·) (words_blanks_append fun later member =>
        blanks later (List.mem_cons_of_mem _ member))

theorem wordsFrom_head (present : word ≠ []) :
    ∃ more others, wordsFrom blank word rest = (word ++ more) :: others := by
  induction rest generalizing word with
  | nil => exact ⟨[], [], by simp [wordsFrom, present]⟩
  | cons symbol rest ih =>
      rw [wordsFrom]
      split
      · rw [if_neg (by simp [present])]
        exact ⟨[], _, by rw [List.append_nil]⟩
      · obtain ⟨more, others, read⟩ := @ih (word ++ [symbol]) (by simp)
        exact ⟨symbol :: more, others, by rw [read, List.append_assoc, List.singleton_append]⟩

def IsWord (blank : α → Bool) (text : List α) : Prop :=
  text ≠ [] ∧ ∀ symbol ∈ text, blank symbol = false

instance (blank : α → Bool) (text : List α) : Decidable (IsWord blank text) :=
  decidable_of_iff (text.isEmpty = false ∧ text.all (fun symbol => !blank symbol) = true)
    (by simp [IsWord])

def Cell.spacing (fill : α) (cell : Cell α) : List α :=
  cell.gap ++ List.replicate (cell.width - cell.text.length) fill

theorem Cell.spacing_eq_nil_iff {cell : Cell α} : cell.spacing fill = [] ↔ ¬cell.Apart := by
  simp [spacing, Apart]
  omega

theorem Cell.print_append (cell : Cell α) :
    cell.print fill ++ rest = cell.spacing fill ++ (cell.text ++ rest) := by
  rw [print, padLeft, spacing, List.append_assoc, List.append_assoc, List.append_assoc]

theorem Cell.blank_of_mem_spacing (filled : blank fill = true) {cell : Cell α}
    (blanks : ∀ symbol ∈ cell.gap, blank symbol = true) :
    ∀ symbol ∈ cell.spacing fill, blank symbol = true := by
  intro symbol member
  rcases List.mem_append.mp member with between | padding
  · exact blanks symbol between
  · rw [List.eq_of_mem_replicate padding, filled]

/-- The texts of a line are read back exactly when each stands apart from the one before. -/
theorem wordsFrom_cells_iff (filled : blank fill = true)
    (gaps : ∀ cell ∈ cells, ∀ symbol ∈ cell.gap, blank symbol = true)
    (texts : ∀ cell ∈ cells, IsWord blank cell.text) (present : word ≠ []) :
    wordsFrom blank word (cells.flatMap (Cell.print fill)) = word :: cells.map Cell.text ↔
      ∀ cell ∈ cells, cell.Apart := by
  induction cells generalizing word with
  | nil => simp [wordsFrom, present]
  | cons cell cells ih =>
      obtain ⟨nonempty, solid⟩ := texts cell List.mem_cons_self
      have blanks := Cell.blank_of_mem_spacing filled (gaps cell List.mem_cons_self)
      have later := @ih cell.text (fun other member => gaps other (List.mem_cons_of_mem _ member))
        (fun other member => texts other (List.mem_cons_of_mem _ member)) nonempty
      rw [List.flatMap_cons, Cell.print_append, List.forall_mem_cons]
      by_cases apart : cell.Apart
      · have spaced : cell.spacing fill ≠ [] := fun empty => Cell.spacing_eq_nil_iff.mp empty apart
        rw [wordsFrom_blanks_append present spaced blanks, words, wordsFrom_append solid,
          List.nil_append, List.map_cons, List.cons.injEq, later]
        simp [apart]
      · have joined : cell.spacing fill = [] := Cell.spacing_eq_nil_iff.mpr apart
        rw [joined, List.nil_append, wordsFrom_append solid]
        obtain ⟨more, others, read⟩ := @wordsFrom_head _ blank (word ++ cell.text)
          (cells.flatMap (Cell.print fill)) (by simp [present])
        rw [read, List.append_assoc]
        simp [apart, nonempty]

end AlignedColumns
