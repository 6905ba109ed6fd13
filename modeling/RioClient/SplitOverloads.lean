import RioClient.GetlineCore
import RioClient.RangeCore
import RioClient.SplitJoin

/-!
The two overloads of `split` on one delimiter: the loop over `std::getline` reads
the fields of the text, the loop over `find` takes the pieces between the delimiters.
-/

namespace RioClient

open TextSearch TextFields

section
variable {delim : Char} {field rest : Text} {item : Text}

theorem isFieldSymbol_of_free (free : delim ∉ field) :
    ∀ symbol ∈ field, decide (symbol ≠ delim) = true := by
  intro symbol member
  exact decide_eq_true (ne_of_mem_of_not_mem member free)

theorem getline_whole (free : delim ∉ field) :
    StringStream.getline { rest := field } item delim =
      ({ rest := [], eofbit := true, failbit := field.isEmpty }, field) := by
  have plain := isFieldSymbol_of_free free
  have front : field.takeWhile (· ≠ delim) = field := List.takeWhile_eq_self_iff.mpr plain
  have behind : field.dropWhile (· ≠ delim) = [] := List.dropWhile_eq_nil_iff.mpr plain
  rw [StringStream.getline, if_pos (StringStream.good_mk _)]
  dsimp only
  rw [behind, front]

theorem getline_cut (free : delim ∉ field) :
    StringStream.getline { rest := field ++ delim :: rest } item delim =
      ({ rest := rest }, field) := by
  have plain := isFieldSymbol_of_free free
  have front : (field ++ delim :: rest).takeWhile (· ≠ delim) = field := by
    rw [List.takeWhile_append_of_pos plain, List.takeWhile_cons_of_neg (by simp), List.append_nil]
  have behind : (field ++ delim :: rest).dropWhile (· ≠ delim) = delim :: rest := by
    rw [List.dropWhile_append_of_pos plain, List.dropWhile_cons_of_neg (by simp)]
  rw [StringStream.getline, if_pos (StringStream.good_mk _)]
  dsimp only
  rw [behind, front]

theorem getlineLoop_at_end (failbit : Bool) (result : List Text) :
    getlineLoop { rest := [], eofbit := true, failbit } item delim result = result := by
  rw [getlineLoop]
  exact if_neg nofun

theorem getlineLoop_eq (text item : Text) (result : List Text) :
    getlineLoop { rest := text } item delim result = result ++ fields text delim := by
  induction text using cutInduction delim generalizing item result with
  | whole field free =>
      rw [getlineLoop, getline_whole free, fields_of_free free]
      cases field with
      | nil => exact (List.append_nil result).symm
      | cons symbol field => exact getlineLoop_at_end false _
  | cut field rest free ih =>
      rw [getlineLoop, getline_cut free, if_pos rfl, ih, fields_append_delim free,
        List.append_assoc, List.singleton_append]

end

theorem splitChar_eq_split (s : Text) (delim : Char) : splitChar s delim = split s delim :=
  getlineLoop_eq s [] []

/-- Split at a character is split at the text of that one character, but for the last
piece when it is empty. -/
theorem splitChar_eq_dropEmptyLast (s : Text) (c : Char) :
    ∃ pieces, SplitReturns s [c] pieces ∧ splitChar s c = dropEmptyLast pieces ∧
      split s c = dropEmptyLast pieces := by
  obtain ⟨pieces, cut⟩ := exists_pieces (List.cons_ne_nil c []) s
  have same : split s c = dropEmptyLast pieces := by
    rw [cut.eq_splitOn]
    exact fields_eq_dropEmptyLast s
  refine ⟨pieces, splitReturns_of_pieces (List.cons_ne_nil c []) cut, ?_, same⟩
  rw [splitChar_eq_split, same]

end RioClient
