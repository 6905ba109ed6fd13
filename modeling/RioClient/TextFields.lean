import Mathlib.Data.List.Basic

/-!
A text read field by field up to a delimiter, as repeated `std::getline` does:
the delimiter ends a field, and so does the end of the text, but only when
something was read since the last delimiter.
-/

namespace TextFields

variable {α : Type} [DecidableEq α]

def getlines (delim : α) (item : List α) : List α → List (List α)
  | [] => if item.isEmpty then [] else [item]
  | symbol :: rest =>
      if symbol = delim then item :: getlines delim [] rest
      else getlines delim (item ++ [symbol]) rest

def fields (text : List α) (delim : α) : List (List α) := getlines delim [] text

variable {delim : α} {item field rest : List α}

theorem getlines_append (free : delim ∉ field) :
    getlines delim item (field ++ rest) = getlines delim (item ++ field) rest := by
  induction field generalizing item with
  | nil => rw [List.nil_append, List.append_nil]
  | cons symbol field ih =>
      have other : symbol ≠ delim := fun same => free (by rw [same]; exact List.mem_cons_self)
      have tailFree : delim ∉ field := fun member => free (List.mem_cons_of_mem _ member)
      rw [List.cons_append, getlines, if_neg other, ih tailFree, List.append_assoc,
        List.singleton_append]

theorem fields_append_delim (free : delim ∉ field) :
    fields (field ++ delim :: rest) delim = field :: fields rest delim := by
  rw [fields, getlines_append free, List.nil_append, getlines, if_pos rfl]
  rfl

theorem fields_flatMap_delim {items : List (List α)} (free : ∀ field ∈ items, delim ∉ field) :
    fields (items.flatMap (fun field => field ++ [delim]) ++ rest) delim =
      items ++ fields rest delim := by
  induction items with
  | nil => rfl
  | cons field items ih =>
      rw [List.flatMap_cons, List.append_assoc, List.append_assoc, List.singleton_append,
        fields_append_delim (free field List.mem_cons_self),
        ih fun later member => free later (List.mem_cons_of_mem _ member)]
      rfl

theorem fields_of_free (free : delim ∉ field) :
    fields field delim = if field.isEmpty then [] else [field] := by
  have read := @getlines_append _ _ delim [] field [] free
  rwa [List.append_nil, List.nil_append] at read

/-- A text is without the delimiter, or it has a first field and goes on behind the delimiter. -/
@[elab_as_elim]
theorem cutInduction {motive : List α → Prop} (delim : α)
    (whole : ∀ field, delim ∉ field → motive field)
    (cut : ∀ field rest, delim ∉ field → motive rest → motive (field ++ delim :: rest))
    (text : List α) : motive text := by
  by_cases member : delim ∈ text
  · obtain ⟨field, rest, rfl, free⟩ := List.eq_append_cons_of_mem member
    exact cut field rest free (cutInduction delim whole cut rest)
  · exact whole text member
termination_by text.length
decreasing_by
  subst_vars
  simp
  omega

theorem fields_eq_nil_iff {text : List α} : fields text delim = [] ↔ text = [] := by
  induction text using cutInduction delim with
  | whole field free =>
      rw [fields_of_free free]
      cases field <;> simp
  | cut field rest free _ =>
      rw [fields_append_delim free]
      simp

/-- The fields joined again are the text, but for a delimiter at its end. -/
theorem intercalate_fields (text : List α) :
    [delim].intercalate (fields text delim) = text ∨
      [delim].intercalate (fields text delim) ++ [delim] = text := by
  induction text using cutInduction delim with
  | whole field free =>
      left
      rw [fields_of_free free]
      cases field <;> simp
  | cut field rest free ih =>
      rw [fields_append_delim free]
      by_cases ends : rest = []
      · right
        rw [fields_eq_nil_iff.mpr ends, ends, List.intercalate_singleton]
      · have more : fields rest delim ≠ [] := fun none => ends (fields_eq_nil_iff.mp none)
        rw [List.intercalate_cons_of_ne_nil more, List.append_assoc, List.append_assoc,
          List.singleton_append]
        rcases ih with whole | ended
        · left
          rw [whole]
        · right
          rw [List.cons_append, ended]

def dropEmptyLast (pieces : List (List α)) : List (List α) :=
  if pieces.getLast? = some [] then pieces.dropLast else pieces

theorem dropEmptyLast_cons {pieces : List (List α)} (nonempty : pieces ≠ []) :
    dropEmptyLast (field :: pieces) = field :: dropEmptyLast pieces := by
  rw [dropEmptyLast, dropEmptyLast, List.getLast?_cons_of_ne_nil nonempty,
    List.dropLast_cons_of_ne_nil nonempty]
  split
  · rfl
  · rfl

/-- The end of the text ends a field only when the field is not empty: that is all that
sets the fields apart from the pieces between the delimiters. -/
theorem fields_eq_dropEmptyLast (text : List α) :
    fields text delim = dropEmptyLast (text.splitOn delim) := by
  induction text using cutInduction delim with
  | whole field free =>
      rw [fields_of_free free, List.splitOn_eq_singleton free]
      cases field with
      | nil => rfl
      | cons symbol field => rfl
  | cut field rest free ih =>
      rw [fields_append_delim free, List.splitOn_append_cons_self_of_not_mem free,
        dropEmptyLast_cons (List.splitOn_ne_nil delim rest), ih]

/-- Fields joined by the delimiter are read back, when the last one is not empty. -/
theorem fields_intercalate {parts : List (List α)} (last : List α)
    (free : ∀ part ∈ parts ++ [last], delim ∉ part) (filled : last ≠ []) :
    fields ([delim].intercalate (parts ++ [last])) delim = parts ++ [last] := by
  induction parts with
  | nil =>
      rw [List.nil_append, List.intercalate_singleton,
        fields_of_free (free last (by simp)), if_neg (by simpa using filled)]
  | cons part parts ih =>
      have tailFree : ∀ part ∈ parts ++ [last], delim ∉ part :=
        fun part member => free part (List.mem_cons_of_mem _ member)
      rw [List.cons_append, List.intercalate_cons_of_ne_nil (by simp), List.append_assoc,
        List.singleton_append, fields_append_delim (free part List.mem_cons_self), ih tailFree]

end TextFields
