import RioClient.NetworkCore
import RioClient.TextSearch

/-! `split` at a string, and `join`, as in `StringUtils`. -/

namespace RioClient

/-- `std::string::find`; `npos` is `none`. -/
def findText (s str : Text) (pos : Nat) : Option Nat :=
  if pos ≤ s.length then (TextSearch.search str (s.drop pos)).map (pos + ·) else none

def substr (s : Text) (pos count : Nat) : Text := (s.drop pos).take count

/-- The loop of `split`, which is given up after `fuel` searches. -/
def splitLoop (s delimiter : Text) (res : List Text) (posStart : Nat) : Nat → Option (List Text)
  | 0 => none
  | fuel + 1 =>
      match findText s delimiter posStart with
      | some posEnd =>
          let token := substr s posStart (posEnd - posStart)
          splitLoop s delimiter (res ++ [token]) (posEnd + delimiter.length) fuel
      | none => some (res ++ [s.drop posStart])

def splitString (fuel : Nat) (s delimiter : Text) : Option (List Text) :=
  splitLoop s delimiter [] 0 fuel

structure JoinParams where
  sep : Text := [' ']
  start : Text := []
  end_ : Text := []
  before : Text := []
  after : Text := []
  empty : Option Text := none

def join (container : List Text) (params : JoinParams) : Text :=
  match container with
  | [] =>
      match params.empty with
      | some empty => empty
      | none => params.start ++ params.end_
  | first :: rest =>
      let os := params.start ++ (params.before ++ first ++ params.after)
      let os := rest.foldl
        (fun os item => os ++ (params.sep ++ params.before ++ item ++ params.after)) os
      os ++ params.end_

end RioClient
