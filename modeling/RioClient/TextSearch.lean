import Mathlib.Data.List.Basic
import Mathlib.Data.List.Infix

/-!
Where a pattern first occurs in a text, and the pieces that a text is cut into at
the occurrences found from the left, each behind the one before.
-/

namespace TextSearch

variable {α : Type} [DecidableEq α]

def search (pattern : List α) : List α → Option Nat
  | [] => if pattern = [] then some 0 else none
  | symbol :: rest =>
      if pattern <+: symbol :: rest then some 0 else (search pattern rest).map (· + 1)

/-- The occurrences met from the left, with `skip` symbols of the last one still to come. -/
def occurrencesFrom (pattern : List α) : Nat → List α → Nat
  | _, [] => 0
  | skip + 1, _ :: rest => occurrencesFrom pattern skip rest
  | 0, symbol :: rest =>
      if pattern <+: symbol :: rest then occurrencesFrom pattern (pattern.length - 1) rest + 1
      else occurrencesFrom pattern 0 rest

def occurrences (pattern text : List α) : Nat := occurrencesFrom pattern 0 text

inductive Pieces (pattern : List α) : List α → List (List α) → Prop
  | whole (text : List α) (none : search pattern text = none) : Pieces pattern text [text]
  | cut (before behind : List α) {pieces : List (List α)}
      (first : search pattern (before ++ (pattern ++ behind)) = some before.length)
      (rest : Pieces pattern behind pieces) :
      Pieces pattern (before ++ (pattern ++ behind)) (before :: pieces)

variable {pattern text : List α}

theorem search_nil_pattern : search [] text = some 0 := by
  cases text with
  | nil => rfl
  | cons symbol rest => exact if_pos List.nil_prefix

theorem search_eq_none_iff : search pattern text = none ↔ ¬pattern <:+: text := by
  induction text with
  | nil =>
      rw [search, List.infix_nil]
      split <;> simp [*]
  | cons symbol rest ih =>
      rw [search, List.infix_cons_iff]
      split
      next starts => simp [starts]
      next other => rw [Option.map_eq_none_iff, ih, or_iff_right other]

theorem search_eq_some {position : Nat} (nonempty : pattern ≠ [])
    (found : search pattern text = some position) :
    ∃ before behind, text = before ++ (pattern ++ behind) ∧ before.length = position ∧
      ¬pattern <:+: before := by
  induction text generalizing position with
  | nil =>
      rw [search, if_neg nonempty] at found
      cases found
  | cons symbol rest ih =>
      rw [search] at found
      split at found
      next starts =>
        obtain ⟨behind, same⟩ := starts
        cases found
        refine ⟨[], behind, same.symm, rfl, ?_⟩
        rwa [List.infix_nil]
      next other =>
        obtain ⟨later, inRest, rfl⟩ := Option.map_eq_some_iff.mp found
        obtain ⟨before, behind, rfl, rfl, free⟩ := ih inRest
        refine ⟨symbol :: before, behind, rfl, rfl, ?_⟩
        intro inside
        rcases List.infix_cons_iff.mp inside with starts | inBefore
        · exact other (starts.trans (List.prefix_append (symbol :: before) _))
        · exact free inBefore

section
variable {before behind : List α} {pieces : List (List α)}

theorem occurrencesFrom_skip :
    occurrencesFrom pattern before.length (before ++ behind) =
      occurrencesFrom pattern 0 behind := by
  induction before with
  | nil => rfl
  | cons symbol before ih => exact ih

theorem occurrences_of_not_found (none : search pattern text = none) :
    occurrences pattern text = 0 := by
  induction text with
  | nil => rfl
  | cons symbol rest ih =>
      rw [search] at none
      split at none
      next => cases none
      next other =>
        rw [occurrences, occurrencesFrom, if_neg other]
        exact ih (Option.map_eq_none_iff.mp none)

theorem occurrences_of_found (nonempty : pattern ≠ [])
    (first : search pattern (before ++ (pattern ++ behind)) = some before.length) :
    occurrences pattern (before ++ (pattern ++ behind)) = occurrences pattern behind + 1 := by
  induction before with
  | nil =>
      cases pattern with
      | nil => exact absurd rfl nonempty
      | cons symbol pattern =>
          have starts : symbol :: pattern <+: symbol :: (pattern ++ behind) :=
            List.prefix_append (symbol :: pattern) behind
          rw [occurrences, List.nil_append, List.cons_append, occurrencesFrom, if_pos starts]
          exact congrArg (· + 1) occurrencesFrom_skip
  | cons symbol before ih =>
      rw [List.cons_append, search] at first
      split at first
      next => cases first
      next other =>
        obtain ⟨later, inRest, same⟩ := Option.map_eq_some_iff.mp first
        rw [List.cons_append, occurrences, occurrencesFrom, if_neg other]
        apply ih
        rw [inRest, Nat.succ.inj same]

theorem occurrencesFrom_le_length (skip : Nat) :
    occurrencesFrom pattern skip text ≤ text.length := by
  induction text generalizing skip with
  | nil => exact Nat.le_refl 0
  | cons symbol rest ih =>
      cases skip with
      | succ skip => exact Nat.le_succ_of_le (ih skip)
      | zero =>
          rw [occurrencesFrom]
          split
          · exact Nat.succ_le_succ (ih _)
          · exact Nat.le_succ_of_le (ih 0)

theorem exists_pieces (nonempty : pattern ≠ []) (text : List α) :
    ∃ pieces, Pieces pattern text pieces := by
  cases found : search pattern text with
  | none => exact ⟨_, .whole text found⟩
  | some position =>
      obtain ⟨before, behind, rfl, rfl, _⟩ := search_eq_some nonempty found
      obtain ⟨pieces, rest⟩ := exists_pieces nonempty behind
      exact ⟨_, .cut before behind found rest⟩
termination_by text.length
decreasing_by
  have positive := List.length_pos_iff.mpr nonempty
  subst_vars
  simp only [List.length_append]
  omega

theorem Pieces.ne_nil (cut : Pieces pattern text pieces) : pieces ≠ [] := by
  cases cut <;> exact List.cons_ne_nil _ _

theorem Pieces.intercalate_eq (cut : Pieces pattern text pieces) :
    pattern.intercalate pieces = text := by
  induction cut with
  | whole text none => exact List.intercalate_singleton
  | cut before behind first rest ih =>
      rw [List.intercalate_cons_of_ne_nil rest.ne_nil, ih, List.append_assoc]

theorem Pieces.free (nonempty : pattern ≠ []) (cut : Pieces pattern text pieces) :
    ∀ piece ∈ pieces, ¬pattern <:+: piece := by
  induction cut with
  | whole text none =>
      intro piece member
      rw [List.mem_singleton.mp member]
      exact search_eq_none_iff.mp none
  | cut before behind first rest ih =>
      intro piece member
      rcases List.mem_cons.mp member with rfl | later
      · obtain ⟨front, back, same, length, free⟩ := search_eq_some nonempty first
        rwa [(List.append_inj same length.symm).1]
      · exact ih piece later

theorem Pieces.eq_splitOn {symbol : α} (cut : Pieces [symbol] text pieces) :
    pieces = text.splitOn symbol := by
  have free : ∀ piece ∈ pieces, symbol ∉ piece := by
    intro piece member inside
    exact cut.free (List.cons_ne_nil _ _) piece member ((List.singleton_infix_iff _ _).mpr inside)
  rw [← cut.intercalate_eq, List.splitOn_intercalate symbol free cut.ne_nil]

theorem Pieces.length_eq (nonempty : pattern ≠ []) (cut : Pieces pattern text pieces) :
    pieces.length = occurrences pattern text + 1 := by
  induction cut with
  | whole text none => rw [occurrences_of_not_found none, List.length_singleton]
  | cut before behind first rest ih =>
      rw [List.length_cons, ih, occurrences_of_found nonempty first]

end

end TextSearch
