import RioClient.SplitCore

/-!
The pieces that `split` cuts a text into at a string, and `join`, which puts them
together again.
-/

namespace RioClient

open TextSearch

section
variable {delimiter front text : Text}

theorem findText_append :
    findText (front ++ text) delimiter front.length =
      (search delimiter text).map (front.length + ·) := by
  rw [findText, if_pos (by simp), List.drop_left' rfl]

theorem splitLoop_whole (none : search delimiter text = none) (res : List Text) (fuel : Nat) :
    splitLoop (front ++ text) delimiter res front.length (fuel + 1) = some (res ++ [text]) := by
  rw [splitLoop, findText_append, none, Option.map_none, List.drop_left' rfl]

/-- One round of the loop: the token in front of the first delimiter is taken, and
the search goes on behind it. -/
theorem splitLoop_cut {before behind : Text}
    (first : search delimiter (before ++ (delimiter ++ behind)) = some before.length)
    (res : List Text) (fuel : Nat) :
    splitLoop (front ++ (before ++ (delimiter ++ behind))) delimiter res front.length (fuel + 1) =
      splitLoop ((front ++ before ++ delimiter) ++ behind) delimiter (res ++ [before])
        (front ++ before ++ delimiter).length fuel := by
  have token : substr (front ++ (before ++ (delimiter ++ behind))) front.length
      (front.length + before.length - front.length) = before := by
    rw [substr, List.drop_left' rfl, Nat.add_sub_cancel_left, List.take_left' rfl]
  have position : front.length + before.length + delimiter.length =
      (front ++ before ++ delimiter).length := by
    rw [List.length_append, List.length_append]
  have whole : front ++ (before ++ (delimiter ++ behind)) =
      (front ++ before ++ delimiter) ++ behind := by
    rw [List.append_assoc, List.append_assoc]
  rw [splitLoop, findText_append, first, Option.map_some]
  dsimp only
  rw [token, position, whole]

theorem splitLoop_pieces (nonempty : delimiter ≠ []) {pieces : List Text}
    (cut : Pieces delimiter text pieces) (front : Text) (res : List Text) (fuel : Nat)
    (enough : text.length < fuel) :
    splitLoop (front ++ text) delimiter res front.length fuel = some (res ++ pieces) := by
  have positive := List.length_pos_iff.mpr nonempty
  induction cut generalizing front res fuel with
  | whole text none =>
      obtain ⟨fuel, rfl⟩ := Nat.exists_eq_add_of_lt enough
      exact splitLoop_whole none res _
  | cut before behind first rest ih =>
      cases fuel with
      | zero => exact absurd enough (Nat.not_lt_zero _)
      | succ fuel =>
          rw [splitLoop_cut first, ih, List.append_assoc, List.singleton_append]
          rw [List.length_append, List.length_append] at enough
          omega

end

def SplitReturns (s delimiter : Text) (pieces : List Text) : Prop :=
  ∃ enough, ∀ fuel ≥ enough, splitString fuel s delimiter = some pieces

def SplitEnds (s delimiter : Text) : Prop :=
  ∃ pieces, SplitReturns s delimiter pieces ∧ pieces.length ≤ s.length + 1

theorem splitReturns_of_pieces {s delimiter : Text} {pieces : List Text}
    (nonempty : delimiter ≠ []) (cut : Pieces delimiter s pieces) :
    SplitReturns s delimiter pieces := by
  refine ⟨s.length + 1, ?_⟩
  intro fuel enough
  exact splitLoop_pieces nonempty cut [] [] fuel enough

/-- An empty delimiter is found where the search starts, and the search does not move on. -/
theorem splitLoop_empty_delimiter (s : Text) (res : List Text) (fuel : Nat) :
    splitLoop s [] res 0 fuel = none := by
  induction fuel generalizing res with
  | zero => rfl
  | succ fuel ih =>
      have found : findText s [] 0 = some 0 := by
        rw [findText, if_pos (Nat.zero_le _), search_nil_pattern]
        rfl
      rw [splitLoop, found]
      exact ih _

theorem not_splitEnds_empty_delimiter (s : Text) : ¬SplitEnds s [] := by
  rintro ⟨pieces, ⟨enough, returned⟩, -⟩
  have ended := returned enough (Nat.le_refl enough)
  rw [splitString, splitLoop_empty_delimiter] at ended
  cases ended

/-- The loop of `split` ends exactly when the delimiter is not empty. -/
theorem splitString_ends_iff (s delimiter : Text) : SplitEnds s delimiter ↔ delimiter ≠ [] := by
  constructor
  · rintro ends rfl
    exact not_splitEnds_empty_delimiter s ends
  · intro nonempty
    obtain ⟨pieces, cut⟩ := exists_pieces nonempty s
    refine ⟨pieces, splitReturns_of_pieces nonempty cut, ?_⟩
    rw [cut.length_eq nonempty]
    exact Nat.succ_le_succ (occurrencesFrom_le_length 0)

/-- Not even the empty text is split at the empty delimiter. -/
theorem splitString_never_ends :
    (∀ fuel, splitString fuel [] [] = none) ∧ ¬∀ s delimiter, SplitEnds s delimiter := by
  refine ⟨splitLoop_empty_delimiter [] [], ?_⟩
  intro ends
  exact not_splitEnds_empty_delimiter [] (ends [] [])

theorem intercalate_append_cons (sep front first : Text) (rest : List Text) :
    sep.intercalate ((front ++ first) :: rest) = front ++ sep.intercalate (first :: rest) := by
  cases rest with
  | nil => rw [List.intercalate_singleton, List.intercalate_singleton]
  | cons second rest =>
      rw [List.intercalate_cons_cons, List.intercalate_cons_cons, List.append_assoc,
        List.append_assoc, List.append_assoc]

theorem join_loop (sep os : Text) (items : List Text) :
    items.foldl (fun os item => os ++ (sep ++ [] ++ item ++ [])) os =
      sep.intercalate (os :: items) := by
  induction items generalizing os with
  | nil => rw [List.foldl_nil, List.intercalate_singleton]
  | cons item items ih =>
      rw [List.foldl_cons, ih, List.append_nil, List.append_nil, ← List.append_assoc,
        intercalate_append_cons, List.intercalate_cons_cons]

theorem join_sep (sep : Text) (container : List Text) :
    join container { sep } = sep.intercalate container := by
  cases container with
  | nil => rfl
  | cons first rest =>
      rw [join, join_loop, List.append_nil, List.append_nil, List.nil_append, List.nil_append]

/-- `split` at a text that is not empty ends, and `join` puts the pieces together again. -/
theorem join_split {s delimiter : Text} (nonempty : delimiter ≠ []) :
    ∃ pieces, SplitReturns s delimiter pieces ∧ join pieces { sep := delimiter } = s ∧
      pieces ≠ [] ∧ (∀ piece ∈ pieces, ¬delimiter <:+: piece) ∧
      pieces.length = occurrences delimiter s + 1 := by
  obtain ⟨pieces, cut⟩ := exists_pieces nonempty s
  refine ⟨pieces, splitReturns_of_pieces nonempty cut, ?_, cut.ne_nil, cut.free nonempty,
    cut.length_eq nonempty⟩
  rw [join_sep, cut.intercalate_eq]

theorem join_split_self_overlapping : ∃ pieces,
    SplitReturns "aaabaa".toList "aa".toList pieces ∧
      join pieces { sep := "aa".toList } = "aaabaa".toList ∧ pieces ≠ [] ∧
      (∀ piece ∈ pieces, ¬"aa".toList <:+: piece) ∧
      pieces.length = occurrences "aa".toList "aaabaa".toList + 1 :=
  join_split (by decide)

end RioClient
