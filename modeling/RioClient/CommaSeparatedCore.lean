import RioClient.FlatMemory
import RioClient.NetworkCore

/-!
`CommaSeparated` of `StringUtils.hpp`: a number is written into a buffer, and its
digits are moved apart in place. The accesses to the buffer are recorded.
-/

namespace RioClient

open FlatMemory

/-- A store is recorded with the last index whose digit was not moved at that time. -/
inductive Access
  | load (index : Int)
  | store (index unmoved : Int)
deriving DecidableEq, Repr

structure Spacing where
  prettyInt : Memory Char
  len : Int := 0
  nlen : Int := 0
  n : Nat := 0
  accesses : List Access := []

def prettyIntSize : Nat := 64

namespace Spacing

def load (s : Spacing) : Spacing := { s with accesses := s.accesses ++ [.load s.len] }

/-- `prettyInt[nlen--] = symbol` -/
def put (s : Spacing) (symbol : Char) : Spacing :=
  { s with
    prettyInt := Function.update s.prettyInt s.nlen.toNat symbol
    nlen := s.nlen - 1
    accesses := s.accesses ++ [.store s.nlen s.len] }

/-- `prettyInt[nlen--] = prettyInt[len--]` -/
def move (s : Spacing) : Spacing :=
  put { s.load with len := s.len - 1 } (s.prettyInt s.len.toNat)

section
variable (s : Spacing)

@[simp] theorem move_len : s.move.len = s.len - 1 := rfl

@[simp] theorem move_nlen : s.move.nlen = s.nlen - 1 := rfl

@[simp] theorem move_n : s.move.n = s.n := rfl

theorem move_prettyInt : s.move.prettyInt =
    Function.update s.prettyInt s.nlen.toNat (s.prettyInt s.len.toNat) := rfl

end

/-- The comma of one round: `++n` is evaluated only when `nlen >= 0`. -/
def comma (s : Spacing) : Spacing :=
  if 0 ≤ s.nlen then
    if (s.n + 1) % 3 = 0 then put { s with n := s.n + 1 } ',' else { s with n := s.n + 1 }
  else s

def unfinished (s : Spacing) : Bool :=
  decide (0 ≤ s.len) && decide (0 ≤ s.nlen) && decide (s.nlen ≠ s.len)

@[simp] theorem len_comma (s : Spacing) : s.comma.len = s.len := by
  rw [comma]
  split
  · split <;> rfl
  · rfl

def loop (s : Spacing) : Spacing := if s.unfinished then s.move.comma.loop else s
termination_by (s.len + 1).toNat
decreasing_by
  rename_i unfinished
  simp only [Spacing.unfinished, Bool.and_eq_true, decide_eq_true_eq] at unfinished
  rw [len_comma, move_len]
  omega

/-- The loop that counts the digits, which is given up behind the last of the cells. -/
def count (s : Spacing) : Nat → Option Spacing
  | 0 => none
  | cells + 1 =>
      if s.prettyInt s.len.toNat = '\x00' then some s.load
      else { s.load with len := s.len + 1 }.count cells

end Spacing

/-- The constructor behind `snprintf`; `none` when the text does not end in the buffer. -/
def insertCommas (prettyInt : Memory Char) : Option Spacing :=
  (Spacing.count { prettyInt } prettyIntSize).map fun s =>
    let s := { s with nlen := s.len + (s.len - 1).tdiv 3 }
    if s.unfinished then s.move.loop else s

def snprintf (buffer : Memory Char) (size : Nat) (text : Text) : Memory Char :=
  overwrite buffer 0 (text.take (size - 1) ++ ['\x00'])

structure CommaSeparated where
  value : UInt64
  len : Int := 20
  prettyInt : Memory Char

namespace CommaSeparated

/-- The constructor, on a buffer that is not initialized. -/
def make (prettyInt : Memory Char) (value : UInt64) (len : Int) :
    Option (CommaSeparated × List Access) :=
  (insertCommas (snprintf prettyInt prettyIntSize (Nat.toDigits 10 value.toNat))).map fun s =>
    ({ value, len, prettyInt := s.prettyInt }, s.accesses)

def str (cs : CommaSeparated) : Text := cStr (window cs.prettyInt 0 prettyIntSize)

end CommaSeparated

end RioClient
