import RioClient.RangeCore

/-!
How the end of a range is completed from its beginning. `completeIp` looks for
dots from left to right, and what it takes from the beginning ends at a dot.
-/

namespace RioClient

section
variable {symbol : Char} {front part rest : Text}

theorem findFrom_append (free : symbol ∉ part) :
    findFrom (front ++ (part ++ symbol :: rest)) symbol front.length =
      some (front.length + part.length) := by
  have skipped : part.findIdx? (fun other => other = symbol) = none := by
    rw [List.findIdx?_eq_none_iff]
    intro other member
    exact decide_eq_false fun same => free (same ▸ member)
  rw [findFrom, List.drop_left, List.findIdx?_append, skipped, Option.none_or,
    List.findIdx?_cons]
  simp

theorem findFrom_eq_none (free : symbol ∉ part) : findFrom part symbol 0 = none := by
  rw [findFrom, List.drop_zero, Option.map_eq_none_iff, List.findIdx?_eq_none_iff]
  intro other member
  exact decide_eq_false fun same => free (same ▸ member)

end

theorem findFrom_lt {text : Text} {symbol : Char} {pos found : Nat}
    (located : findFrom text symbol pos = some found) : found < text.length := by
  obtain ⟨index, inside, rfl⟩ := Option.map_eq_some_iff.mp located
  have bound := (List.findIdx?_eq_some_iff_getElem.mp inside).1
  rw [List.length_drop] at bound
  omega

/-- No position that `find` starts from or `substr` ends at is past the end. -/
theorem skipDots_le {from_ : Text} (dots : Nat) {pos : Nat} (inside : pos ≤ from_.length) :
    skipDots from_ dots pos ≤ from_.length := by
  induction dots generalizing pos with
  | zero => exact inside
  | succ dots ih =>
      rw [skipDots]
      apply ih
      cases located : findFrom from_ '.' pos with
      | none => exact Nat.zero_le _
      | some found => exact findFrom_lt located

def dotted (parts : List Text) : Text := (parts.map fun part => part ++ ['.']).flatten

@[simp] theorem dotted_cons (part : Text) (parts : List Text) :
    dotted (part :: parts) = part ++ '.' :: dotted parts := by
  simp [dotted]

theorem dotted_append_intercalate (parts : List Text) {rest : List Text} (some : rest ≠ []) :
    dotted parts ++ ['.'].intercalate rest = ['.'].intercalate (parts ++ rest) := by
  induction parts with
  | nil => rfl
  | cons part parts ih =>
      have more : parts ++ rest ≠ [] := List.append_ne_nil_of_right_ne_nil parts some
      rw [List.cons_append, List.intercalate_cons_of_ne_nil more, ← ih, dotted_cons]
      simp

theorem dotted_eq_append {parts : List Text} (some : parts ≠ []) :
    dotted parts = ['.'].intercalate parts ++ ['.'] := by
  induction parts with
  | nil => exact absurd rfl some
  | cons part parts ih =>
      cases parts with
      | nil => simp [dotted]
      | cons next parts =>
          rw [dotted_cons, ih (List.cons_ne_nil next parts),
            List.intercalate_cons_of_ne_nil (List.cons_ne_nil next parts)]
          simp

theorem count_dot_intercalate {parts : List Text} (some : parts ≠ [])
    (free : ∀ part ∈ parts, '.' ∉ part) :
    (['.'].intercalate parts).count '.' = parts.length - 1 := by
  induction parts with
  | nil => exact absurd rfl some
  | cons part parts ih =>
      have none : part.count '.' = 0 := List.count_eq_zero.mpr (free part List.mem_cons_self)
      cases parts with
      | nil => simpa using none
      | cons next parts =>
          have later := ih (List.cons_ne_nil next parts)
            fun part member => free part (List.mem_cons_of_mem _ member)
          rw [List.intercalate_cons_of_ne_nil (List.cons_ne_nil next parts), List.count_append,
            List.count_append, none, later]
          simp
          omega

theorem skipDots_dotted {parts : List Text} (free : ∀ part ∈ parts, '.' ∉ part)
    (front rest : Text) :
    skipDots (front ++ (dotted parts ++ rest)) parts.length front.length =
      (front ++ dotted parts).length := by
  induction parts generalizing front with
  | nil => simp [skipDots, dotted]
  | cons part parts ih =>
      have partFree : '.' ∉ part := free part List.mem_cons_self
      have laterFree : ∀ later ∈ parts, '.' ∉ later :=
        fun later member => free later (List.mem_cons_of_mem part member)
      have passed := ih laterFree (front ++ (part ++ ['.']))
      have whole : front ++ (part ++ ['.']) ++ (dotted parts ++ rest) =
          front ++ (part ++ '.' :: (dotted parts ++ rest)) := by simp
      have position : (front ++ (part ++ ['.'])).length = front.length + part.length + 1 := by
        simp
        omega
      have text : dotted (part :: parts) ++ rest = part ++ '.' :: (dotted parts ++ rest) := by
        simp
      rw [whole, position] at passed
      rw [List.length_cons, skipDots, text, findFrom_append partFree]
      refine passed.trans ?_
      simp

/-- The parts that are missing are taken over, in front of those that are given. -/
theorem completeIp_intercalate {parts tillParts : List Text} (four : parts.length = 4)
    (free : ∀ part ∈ parts, '.' ∉ part) (some : tillParts ≠ [])
    (tillFree : ∀ part ∈ tillParts, '.' ∉ part) :
    completeIp (['.'].intercalate parts) (['.'].intercalate tillParts) =
      ['.'].intercalate (parts.take (4 - tillParts.length) ++ tillParts) := by
  have count := List.length_pos_iff.mpr some
  have missing : 3 - (['.'].intercalate tillParts).count '.' = 4 - tillParts.length := by
    rw [count_dot_intercalate some tillFree]
    omega
  have kept : (parts.take (4 - tillParts.length)).length = 4 - tillParts.length := by
    rw [List.length_take, four]
    omega
  have remaining : parts.drop (4 - tillParts.length) ≠ [] := by
    intro none
    have size := congrArg List.length none
    rw [List.length_drop, four, List.length_nil] at size
    omega
  have text : dotted (parts.take (4 - tillParts.length)) ++
      ['.'].intercalate (parts.drop (4 - tillParts.length)) = ['.'].intercalate parts := by
    rw [dotted_append_intercalate _ remaining, List.take_append_drop]
  have passed := @skipDots_dotted (parts.take (4 - tillParts.length))
    (fun part member => free part (List.mem_of_mem_take member)) []
    (['.'].intercalate (parts.drop (4 - tillParts.length)))
  rw [List.nil_append, List.nil_append, List.length_nil, text, kept] at passed
  rw [completeIp, missing, passed]
  conv_lhs =>
    arg 1
    arg 2
    rw [← text]
  rw [List.take_left, dotted_append_intercalate _ some]

/-- Completion stays inside `from` and puts a prefix of it in front of `till`;
of an address it takes as many leading parts as `till` lacks. -/
theorem completeIp_correct :
    (∀ from_ till : Text, (∀ dots, skipDots from_ dots 0 ≤ from_.length) ∧
      ∃ front, front <+: from_ ∧ completeIp from_ till = front ++ till) ∧
    (∀ parts tillParts : List Text, parts.length = 4 →
      (∀ part ∈ parts, part ≠ [] ∧ '.' ∉ part) →
      1 ≤ tillParts.length ∧ tillParts.length ≤ 4 → (∀ part ∈ tillParts, '.' ∉ part) →
      completeIp (['.'].intercalate parts) (['.'].intercalate tillParts) =
        ['.'].intercalate (parts.take (4 - tillParts.length) ++ tillParts)) := by
  constructor
  · intro from_ till
    refine ⟨fun dots => skipDots_le dots (Nat.zero_le _), _, ?_, rfl⟩
    exact List.take_prefix _ _
  · intro parts tillParts four filled size tillFree
    exact completeIp_intercalate four (fun part member => (filled part member).2)
      (List.length_pos_iff.mp size.1) tillFree

theorem completeIp_correct_two_parts :
    completeIp "192.168.1.3".toList "2.1".toList = "192.168.2.1".toList :=
  completeIp_correct.2 ["192".toList, "168".toList, "1".toList, "3".toList]
    ["2".toList, "1".toList] rfl (by decide) (by decide) (by decide)

end RioClient
