import Mathlib.Data.List.TakeWhile
import RioClient.NetworkCore

/-! `split` at a character, as `StringUtils` writes it: a string stream read by `std::getline`. -/

namespace RioClient

structure StringStream where
  rest : Text
  eofbit : Bool := false
  failbit : Bool := false

namespace StringStream

def good (ss : StringStream) : Bool := !ss.eofbit && !ss.failbit

@[simp] theorem good_mk (rest : Text) : good { rest } = true := rfl

/-- `std::getline`: nothing is extracted from a stream that is not good. The delimiter is
extracted with the characters in front of it, the end of the text sets `eofbit`, and
`failbit` is set when no character was extracted. -/
def getline (ss : StringStream) (item : Text) (delim : Char) : StringStream × Text :=
  if ss.good then
    let field := ss.rest.takeWhile (· ≠ delim)
    match ss.rest.dropWhile (· ≠ delim) with
    | [] => ({ rest := [], eofbit := true, failbit := field.isEmpty }, field)
    | _ :: behind => ({ rest := behind }, field)
  else ({ ss with failbit := true }, item)

def unread (ss : StringStream) : Nat := if ss.good then ss.rest.length + 1 else 0

theorem getline_unread {ss : StringStream} {item : Text} {delim : Char}
    (succeeded : (ss.getline item delim).1.failbit = false) :
    (ss.getline item delim).1.unread < ss.unread := by
  rw [getline] at succeeded ⊢
  split at succeeded
  next good =>
    have shorter : (ss.rest.dropWhile (· ≠ delim)).length ≤ ss.rest.length :=
      (List.dropWhile_suffix _).length_le
    rw [if_pos good, unread, unread, if_pos good]
    cases cut : ss.rest.dropWhile (· ≠ delim) with
    | nil => exact Nat.succ_pos _
    | cons symbol behind =>
        rw [cut, List.length_cons] at shorter
        exact Nat.succ_le_succ shorter
  next => cases succeeded

end StringStream

/-- The loop of `split`, which ends when `std::getline` fails. -/
def getlineLoop (ss : StringStream) (item : Text) (delim : Char) (result : List Text) :
    List Text :=
  if (ss.getline item delim).1.failbit = false then
    getlineLoop (ss.getline item delim).1 (ss.getline item delim).2 delim
      (result ++ [(ss.getline item delim).2])
  else result
termination_by ss.unread
decreasing_by exact StringStream.getline_unread ‹_›

def splitChar (s : Text) (delim : Char) : List Text := getlineLoop { rest := s } [] delim []

end RioClient
