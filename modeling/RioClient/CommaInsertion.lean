import Mathlib.Data.List.Induction
import RioClient.CommaSeparatedCore
import RioClient.DigitGroups

/-!
The digits moved apart in place: what the buffer holds while two indexes walk back
over it, as far apart as commas are still missing.
-/

namespace RioClient

open FlatMemory DigitGroups

/-- The access stays in the buffer, and a store behind the digits not moved yet. -/
def Access.Safe : Access → Prop
  | load index => 0 ≤ index ∧ index < prettyIntSize
  | store index unmoved => 0 ≤ index ∧ index < prettyIntSize ∧ unmoved < index

section
variable {s : Spacing} (safe : ∀ access ∈ s.accesses, access.Safe)
include safe

theorem load_safe (lower : 0 ≤ s.len) (upper : s.len < prettyIntSize) :
    ∀ access ∈ s.load.accesses, access.Safe := by
  intro access member
  rcases List.mem_append.mp member with earlier | last
  · exact safe access earlier
  · rw [List.mem_singleton.mp last]
    exact ⟨lower, upper⟩

theorem put_safe (symbol : Char) (lower : 0 ≤ s.nlen) (upper : s.nlen < prettyIntSize)
    (behind : s.len < s.nlen) : ∀ access ∈ (s.put symbol).accesses, access.Safe := by
  intro access member
  rcases List.mem_append.mp member with earlier | last
  · exact safe access earlier
  · rw [List.mem_singleton.mp last]
    exact ⟨lower, upper, behind⟩

theorem move_safe (lower : 0 ≤ s.len) (behind : s.len ≤ s.nlen) (upper : s.nlen < prettyIntSize) :
    ∀ access ∈ s.move.accesses, access.Safe := by
  have loaded := load_safe safe lower (by omega)
  have inside : 0 ≤ s.nlen := by omega
  have last : s.len - 1 < s.nlen := by omega
  exact @put_safe { s.load with len := s.len - 1 } loaded _ inside upper last

end

def written (memory : Memory Char) (digits : Text) : Memory Char :=
  overwrite memory 0 (digits ++ ['\x00'])

variable {memory : Memory Char} {digits front back : Text} {digit : Char} {pending : Nat}
  {s : Spacing}

theorem written_digit (whole : digits = front ++ digit :: back) :
    written memory digits front.length = digit := by
  have cell := @overwrite_append_cons Char memory 0 front (back ++ ['\x00']) digit
  rwa [Nat.zero_add, ← List.cons_append, ← List.append_assoc, ← whole] at cell

theorem written_end : written memory digits digits.length = '\x00' := by
  have cell := @overwrite_append_cons Char memory 0 digits [] '\x00'
  rwa [Nat.zero_add] at cell

/-- The digits in `front` have not been moved, those in `back` have, with their commas,
and `pending` commas are still missing. -/
structure Spaced (memory : Memory Char) (digits front back : Text) (pending : Nat) (s : Spacing) :
    Prop where
  whole : digits = front ++ back
  len : s.len + 1 = front.length
  nlen : s.nlen = s.len + pending
  n : s.n = back.length
  prettyInt : s.prettyInt =
    overwrite (written memory digits) (front.length + pending) (separated ',' 3 back ++ ['\x00'])
  commas : pending + back.length / 3 = (digits.length - 1) / 3
  moved : back.length ≤ 3 * ((digits.length - 1) / 3)
  room : front.length + pending < prettyIntSize
  safe : ∀ access ∈ s.accesses, access.Safe

namespace Spaced

theorem unfinished_iff (spaced : Spaced memory digits front back pending s) (more : front ≠ []) :
    s.unfinished = true ↔ pending ≠ 0 := by
  have positive := List.length_pos_iff.mpr more
  have len := spaced.len
  have nlen := spaced.nlen
  simp only [Spacing.unfinished, Bool.and_eq_true, decide_eq_true_eq]
  omega

theorem indexes (spaced : Spaced memory digits (front ++ [digit]) back (pending + 1) s) :
    s.len = front.length ∧ s.nlen = (front.length + pending + 1 : Nat) ∧
      front.length + pending + 2 < prettyIntSize := by
  have length : (front ++ [digit]).length = front.length + 1 := List.length_append
  have len := spaced.len
  have nlen := spaced.nlen
  have room := spaced.room
  omega

theorem move_prettyInt (spaced : Spaced memory digits (front ++ [digit]) back (pending + 1) s) :
    s.move.prettyInt = overwrite (written memory digits) (front.length + pending + 1)
      (digit :: (separated ',' 3 back ++ ['\x00'])) := by
  obtain ⟨len, nlen, -⟩ := spaced.indexes
  have start : (front ++ [digit]).length + (pending + 1) = front.length + pending + 1 + 1 := by
    rw [List.length_append, List.length_singleton]
    omega
  have read : s.prettyInt front.length = digit := by
    rw [spaced.prettyInt, start, overwrite_outside (by omega)]
    apply written_digit
    rw [spaced.whole, List.append_assoc, List.singleton_append]
  rw [Spacing.move_prettyInt, len, nlen, Int.toNat_natCast, Int.toNat_natCast, read,
    spaced.prettyInt, start, update_overwrite_front]

theorem move_safe (spaced : Spaced memory digits (front ++ [digit]) back (pending + 1) s) :
    ∀ access ∈ s.move.accesses, access.Safe := by
  obtain ⟨len, nlen, room⟩ := spaced.indexes
  exact RioClient.move_safe spaced.safe (by omega) (by omega) (by omega)

/-- What a round keeps, whether a comma follows the digit or not. -/
theorem advance {t : Spacing} {left : Nat}
    (spaced : Spaced memory digits (front ++ [digit]) back (pending + 1) s)
    (len : t.len = s.move.len) (n : t.n = s.move.n + 1) (nlen : t.nlen = t.len + left)
    (prettyInt : t.prettyInt = overwrite (written memory digits) (front.length + left)
      (separated ',' 3 (digit :: back) ++ ['\x00']))
    (commas : left + (back.length + 1) / 3 = pending + 1 + back.length / 3)
    (safe : ∀ access ∈ t.accesses, access.Safe) :
    Spaced memory digits front (digit :: back) left t := by
  obtain ⟨lenBefore, -, roomBefore⟩ := spaced.indexes
  have commasBefore := spaced.commas
  have movedBefore := spaced.moved
  constructor
  case whole => rw [spaced.whole, List.append_assoc, List.singleton_append]
  case len =>
    rw [len, Spacing.move_len]
    omega
  case nlen => exact nlen
  case n =>
    rw [n, Spacing.move_n, spaced.n, List.length_cons]
  case prettyInt => exact prettyInt
  case commas =>
    rw [List.length_cons]
    omega
  case moved =>
    rw [List.length_cons]
    omega
  case room => omega
  case safe => exact safe

theorem step_comma (spaced : Spaced memory digits (front ++ [digit]) back (pending + 1) s)
    (full : (back.length + 1) % 3 = 0) :
    Spaced memory digits front (digit :: back) pending s.move.comma := by
  obtain ⟨len, nlen, room⟩ := spaced.indexes
  have unmoved : s.move.len = front.length - 1 := by rw [Spacing.move_len, len]
  have next : s.move.nlen = (front.length + pending : Nat) := by
    rw [Spacing.move_nlen, nlen]
    omega
  have count : (s.move.n + 1) % 3 = 0 := by
    rw [Spacing.move_n, spaced.n]
    exact full
  have stepped : s.move.comma = { s.move with n := s.move.n + 1 }.put ',' := by
    rw [Spacing.comma, if_pos (by omega), if_pos count]
  rw [stepped]
  refine spaced.advance rfl rfl ?nlen ?prettyInt ?commas ?safe
  case nlen =>
    change s.move.nlen - 1 = s.move.len + pending
    omega
  case prettyInt =>
    change Function.update s.move.prettyInt s.move.nlen.toNat ',' = _
    rw [next, Int.toNat_natCast, spaced.move_prettyInt, update_overwrite_front, separated,
      if_pos full]
    rfl
  case commas => omega
  case safe =>
    have counted : ∀ access ∈ ({ s.move with n := s.move.n + 1 }).accesses, access.Safe :=
      spaced.move_safe
    refine put_safe counted ',' ?_ ?_ ?_
    · change 0 ≤ s.move.nlen
      omega
    · change s.move.nlen < prettyIntSize
      omega
    · change s.move.len < s.move.nlen
      omega

theorem step_plain (spaced : Spaced memory digits (front ++ [digit]) back (pending + 1) s)
    (incomplete : (back.length + 1) % 3 ≠ 0) :
    Spaced memory digits front (digit :: back) (pending + 1) s.move.comma := by
  obtain ⟨len, nlen, -⟩ := spaced.indexes
  have unmoved : s.move.len = front.length - 1 := by rw [Spacing.move_len, len]
  have next : s.move.nlen = (front.length + pending : Nat) := by
    rw [Spacing.move_nlen, nlen]
    omega
  have count : (s.move.n + 1) % 3 ≠ 0 := by
    rw [Spacing.move_n, spaced.n]
    exact incomplete
  have stepped : s.move.comma = { s.move with n := s.move.n + 1 } := by
    rw [Spacing.comma, if_pos (by omega), if_neg count]
  rw [stepped]
  refine spaced.advance rfl rfl ?nlen ?prettyInt ?commas ?safe
  case nlen =>
    change s.move.nlen = s.move.len + (pending + 1 : Nat)
    omega
  case prettyInt =>
    rw [separated, if_neg incomplete]
    exact spaced.move_prettyInt
  case commas => omega
  case safe => exact spaced.move_safe

/-- The loop ends when no comma is missing any more: all whole groups but the first
have been moved then. -/
theorem loop (spaced : Spaced memory digits front back pending s) (filled : digits ≠ []) :
    ∃ front back, Spaced memory digits front back 0 s.loop := by
  have positive := List.length_pos_iff.mpr filled
  induction front using List.reverseRecOn generalizing back pending s with
  | nil =>
      -- at least one digit stays where it is
      have length := congrArg List.length spaced.whole
      have moved := spaced.moved
      rw [List.nil_append] at length
      omega
  | append_singleton front digit ih =>
      have more : front ++ [digit] ≠ [] :=
        List.append_ne_nil_of_right_ne_nil _ (List.cons_ne_nil _ _)
      cases pending with
      | zero =>
          have stops : ¬s.unfinished = true := fun runs => (spaced.unfinished_iff more).mp runs rfl
          rw [Spacing.loop, if_neg stops]
          exact ⟨_, _, spaced⟩
      | succ pending =>
          have runs := (spaced.unfinished_iff more).mpr (Nat.succ_ne_zero _)
          rw [Spacing.loop, if_pos runs]
          by_cases full : (back.length + 1) % 3 = 0
          · exact ih (spaced.step_comma full)
          · exact ih (spaced.step_plain full)

end Spaced

theorem count_written (plain : '\x00' ∉ digits) (fits : digits.length < prettyIntSize)
    (whole : digits = front ++ back) (holds : s.prettyInt = written memory digits)
    (len : s.len = front.length) (safe : ∀ access ∈ s.accesses, access.Safe) {cells : Nat}
    (enough : back.length < cells) :
    ∃ counted, s.count cells = some counted ∧ counted.prettyInt = written memory digits ∧
      counted.len = digits.length ∧ counted.n = s.n ∧
      ∀ access ∈ counted.accesses, access.Safe := by
  induction back generalizing front s cells with
  | nil =>
      obtain ⟨cells, rfl⟩ := Nat.exists_eq_add_of_lt enough
      rw [List.append_nil] at whole
      subst whole
      have ends : s.prettyInt s.len.toNat = '\x00' := by
        rw [holds, len, Int.toNat_natCast, written_end]
      rw [Spacing.count, if_pos ends]
      exact ⟨s.load, rfl, holds, len, rfl, load_safe safe (by omega) (by omega)⟩
  | cons digit back ih =>
      obtain ⟨cells, rfl⟩ := Nat.exists_eq_add_of_lt enough
      have length := congrArg List.length whole
      rw [List.length_append, List.length_cons] at length
      have more : s.prettyInt s.len.toNat ≠ '\x00' := by
        rw [holds, len, Int.toNat_natCast, written_digit whole]
        rw [whole] at plain
        exact ne_of_mem_of_not_mem (List.mem_append_right _ List.mem_cons_self) plain
      have next : s.len + 1 = (front ++ [digit]).length := by
        rw [List.length_append, len]
        rfl
      rw [Spacing.count, if_neg more]
      refine @ih (front ++ [digit]) { s.load with len := s.len + 1 } ?_ holds next
        (load_safe safe (by omega) (by omega)) _ ?_
      · rw [whole, List.append_assoc, List.singleton_append]
      · rw [List.length_cons]
        omega

/-- The loop starts when the end of the text has been moved, with every comma missing. -/
theorem spaced_start (fits : digits.length + pending < prettyIntSize)
    (commas : pending = (digits.length - 1) / 3) (holds : s.prettyInt = written memory digits)
    (len : s.len = digits.length) (nlen : s.nlen = s.len + pending) (n : s.n = 0)
    (safe : ∀ access ∈ s.accesses, access.Safe) :
    Spaced memory digits digits [] pending s.move := by
  have read : s.prettyInt s.len.toNat = '\x00' := by
    rw [holds, len, Int.toNat_natCast, written_end]
  have position : s.nlen.toNat = digits.length + pending := by omega
  constructor
  case whole => rw [List.append_nil]
  case len =>
    rw [Spacing.move_len]
    omega
  case nlen =>
    rw [Spacing.move_nlen, Spacing.move_len]
    omega
  case n => exact n
  case prettyInt =>
    rw [Spacing.move_prettyInt, read, position, holds, ← overwrite_singleton]
    rfl
  case commas => exact commas
  case moved => exact Nat.zero_le _
  case room => exact fits
  case safe => exact move_safe safe (by omega) (by omega) (by omega)

/-- With no comma missing, the first group stands where it was and the whole groups behind
it, each with its comma. -/
theorem Spaced.text (spaced : Spaced memory digits front back 0 s) :
    s.prettyInt = overwrite memory 0 (front ++ separated ',' 3 back ++ ['\x00']) := by
  have covered : (back ++ ['\x00']).length ≤ (separated ',' 3 back ++ ['\x00']).length := by
    rw [List.length_append, List.length_append, length_separated]
    omega
  have start : front.length + 0 = 0 + front.length := Nat.add_comm _ _
  have split : overwrite memory 0 (front ++ (back ++ ['\x00'])) =
      overwrite (overwrite memory 0 front) (0 + front.length) (back ++ ['\x00']) :=
    overwrite_append.symm
  rw [spaced.prettyInt, written, spaced.whole, List.append_assoc, start, split,
    overwrite_overwrite covered, overwrite_append, List.append_assoc]

theorem Spaced.length_back (spaced : Spaced memory digits front back 0 s) :
    back.length = 3 * ((digits.length - 1) / 3) := by
  have commas := spaced.commas
  have moved := spaced.moved
  omega

theorem insertCommas_written (filled : digits ≠ []) (plain : '\x00' ∉ digits)
    (fits : digits.length + (digits.length - 1) / 3 < prettyIntSize) :
    ∃ s front back, insertCommas (written memory digits) = some s ∧ digits = front ++ back ∧
      back.length = 3 * ((digits.length - 1) / 3) ∧
      s.prettyInt = overwrite memory 0 (front ++ separated ',' 3 back ++ ['\x00']) ∧
      ∀ access ∈ s.accesses, access.Safe := by
  have positive := List.length_pos_iff.mpr filled
  obtain ⟨counted, returned, holds, len, n, safe⟩ :=
    @count_written memory digits [] digits { prettyInt := written memory digits } plain (by omega)
      rfl rfl rfl nofun prettyIntSize (by omega)
  have commas : (counted.len - 1).tdiv 3 = ((digits.length - 1) / 3 : Nat) := by
    rw [len, Int.tdiv_eq_ediv_of_nonneg (by omega)]
    omega
  rw [insertCommas, returned, Option.map_some, commas]
  dsimp only
  cases missing : (digits.length - 1) / 3 with
  | zero =>
      have stops : ¬({ counted with nlen := counted.len + (0 : Nat) }).unfinished = true := by
        simp [Spacing.unfinished]
      rw [if_neg stops]
      refine ⟨_, digits, [], rfl, (List.append_nil digits).symm, rfl, ?_, safe⟩
      rw [separated, List.append_nil]
      exact holds
  | succ pending =>
      have runs :
          ({ counted with nlen := counted.len + (pending + 1 : Nat) }).unfinished = true := by
        simp only [Spacing.unfinished, Bool.and_eq_true, decide_eq_true_eq]
        omega
      have start : Spaced memory digits digits [] (pending + 1)
          ({ counted with nlen := counted.len + (pending + 1 : Nat) }).move :=
        spaced_start (by omega) missing.symm holds len rfl n safe
      obtain ⟨front, back, done⟩ := start.loop filled
      rw [if_pos runs]
      exact ⟨_, front, back, rfl, done.whole, missing ▸ done.length_back, done.text, done.safe⟩

theorem cStr_ended {text behind : Text} (plain : '\x00' ∉ text) :
    cStr (text ++ ['\x00'] ++ behind) = text := by
  have kept : ∀ symbol ∈ text, decide (symbol ≠ '\x00') = true := by
    intro symbol member
    exact decide_eq_true (ne_of_mem_of_not_mem member plain)
  rw [cStr, List.append_assoc, List.takeWhile_append_of_pos kept, List.singleton_append,
    List.takeWhile_cons_of_neg (by decide), List.append_nil]

theorem ne_of_isDigit {symbol : Char} (digital : ∀ digit ∈ digits, digit.isDigit)
    (other : ¬symbol.isDigit) : symbol ∉ digits := fun member => other (digital symbol member)

theorem insertCommas_grouped (memory : Memory Char) (filled : digits ≠ [])
    (digital : ∀ digit ∈ digits, digit.isDigit)
    (fits : digits.length + (digits.length - 1) / 3 < prettyIntSize) :
    ∃ s, insertCommas (written memory digits) = some s ∧
      Grouped ',' 3 digits (cStr (window s.prettyInt 0 prettyIntSize)) ∧
      (cStr (window s.prettyInt 0 prettyIntSize)).filter (· ≠ ',') = digits ∧
      ∀ access ∈ s.accesses, access.Safe := by
  have plain : '\x00' ∉ digits := ne_of_isDigit digital (by decide)
  have noComma : ',' ∉ digits := ne_of_isDigit digital (by decide)
  obtain ⟨s, front, back, returned, whole, moved, stored, safe⟩ :=
    @insertCommas_written memory digits filled plain fits
  have length := congrArg List.length whole
  have positive := List.length_pos_iff.mpr filled
  rw [List.length_append] at length
  have grouped : Grouped ',' 3 digits (front ++ separated ',' 3 back) := by
    rw [whole]
    exact grouped_of_separated (by omega) (by omega) moved
  have textPlain : '\x00' ∉ front ++ separated ',' 3 back := by
    intro member
    rcases grouped.mem member with comma | digit
    · cases comma
    · exact plain digit
  have size : (front ++ separated ',' 3 back ++ ['\x00']).length ≤ prettyIntSize := by
    rw [List.length_append, List.length_append, length_separated]
    change front.length + (back.length + back.length / 3) + 1 ≤ prettyIntSize
    omega
  obtain ⟨behind, read⟩ := @window_overwrite_append _ memory 0 _ _ size
  rw [← stored] at read
  refine ⟨s, returned, ?_⟩
  rw [read, cStr_ended textPlain]
  exact ⟨grouped, grouped.filter_eq noComma, safe⟩

theorem length_digits_le (value : UInt64) : (Nat.toDigits 10 value.toNat).length ≤ 20 := by
  apply (Nat.length_toDigits_le_iff (by decide) (by decide)).mpr
  exact Nat.lt_trans value.toNat_lt (by decide)

/-- The number as text, on any value and any text of digits that fits with its commas. -/
theorem commaSeparated_grouped :
    (∀ (memory : Memory Char) (value : UInt64) (len : Int),
      ∃ cs accesses, CommaSeparated.make memory value len = some (cs, accesses) ∧
        Grouped ',' 3 (Nat.toDigits 10 value.toNat) cs.str ∧
        cs.str.filter (· ≠ ',') = Nat.toDigits 10 value.toNat ∧
        ∀ access ∈ accesses, access.Safe) ∧
      ∀ (memory : Memory Char) (digits : Text), digits ≠ [] →
        (∀ digit ∈ digits, digit.isDigit) →
        digits.length + (digits.length - 1) / 3 < prettyIntSize →
        ∃ s, insertCommas (written memory digits) = some s ∧
          Grouped ',' 3 digits (cStr (window s.prettyInt 0 prettyIntSize)) ∧
          (cStr (window s.prettyInt 0 prettyIntSize)).filter (· ≠ ',') = digits ∧
          ∀ access ∈ s.accesses, access.Safe := by
  constructor
  · intro memory value len
    have few := length_digits_le value
    have room : (Nat.toDigits 10 value.toNat).length ≤ prettyIntSize - 1 :=
      Nat.le_trans few (by decide)
    have printed : snprintf memory prettyIntSize (Nat.toDigits 10 value.toNat) =
        written memory (Nat.toDigits 10 value.toNat) := by
      rw [snprintf, List.take_of_length_le room, written]
    obtain ⟨s, returned, grouped, digits, safe⟩ :=
      @insertCommas_grouped (Nat.toDigits 10 value.toNat) memory Nat.toDigits_ne_nil
        (fun _ => Nat.isDigit_of_mem_toDigits (by decide) (by decide))
        (show _ < 64 by omega)
    refine ⟨{ value, len, prettyInt := s.prettyInt }, s.accesses, ?_, grouped, digits, safe⟩
    rw [CommaSeparated.make, printed, returned, Option.map_some]
  · intro memory digits filled digital fits
    exact insertCommas_grouped memory filled digital fits

theorem commaSeparated_thousands : ∃ s,
    insertCommas (written (fun _ => 'x') ['1', '2', '3', '4']) = some s ∧
      Grouped ',' 3 ['1', '2', '3', '4'] (cStr (window s.prettyInt 0 prettyIntSize)) ∧
      (cStr (window s.prettyInt 0 prettyIntSize)).filter (· ≠ ',') = ['1', '2', '3', '4'] ∧
      ∀ access ∈ s.accesses, access.Safe :=
  commaSeparated_grouped.2 (fun _ => 'x') ['1', '2', '3', '4'] (List.cons_ne_nil _ _)
    (List.all_eq_true.mp (by decide)) (by decide)

end RioClient
