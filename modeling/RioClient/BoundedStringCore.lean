import RioClient.FlatMemory

/-!
The bounded string functions of `StringUtils.cpp` over a flat byte memory. A
pointer is a position in it, or `none` for `NULL`.
-/

namespace RioClient

open FlatMemory

def rsizeMaxStr : Nat := 4 <<< 10

def esnullp : Int32 := 400
def eszerol : Int32 := 401
def eslemax : Int32 := 403
def esovrlp : Int32 := 404
def esnospc : Int32 := 406
def eok : Int32 := 0

def rcNegate (code : Int32) : Int32 := -code

structure CopyResult where
  errno : Int32
  memory : Memory UInt8
  reads : List Nat

def handleError (memory : Memory UInt8) (origDest : Nat) : Nat → Memory UInt8
  | 0 => memory
  | origDmax + 1 => handleError (Function.update memory origDest 0) (origDest + 1) origDmax

/-- The two loops of `strncpy_s`, which differ in the pointer that is compared
with the bumper. -/
def copyLoop (onBumper : Nat → Nat → Bool) (origDest origDmax : Nat) (memory : Memory UInt8)
    (reads : List Nat) (dest src slen : Nat) : Nat → CopyResult
  | 0 =>
      -- the entire src was not copied
      { errno := rcNegate esnospc, memory := handleError memory origDest origDmax, reads }
  | dmax + 1 =>
      if onBumper dest src then
        { errno := rcNegate esovrlp, memory := handleError memory origDest origDmax, reads }
      else if slen = 0 then
        { errno := rcNegate eok, memory := Function.update memory dest 0, reads }
      else
        let reads := reads ++ [src]
        let memory := Function.update memory dest (memory src)
        if memory dest = 0 then { errno := rcNegate eok, memory, reads }
        else copyLoop onBumper origDest origDmax memory reads (dest + 1) (src + 1) (slen - 1) dmax

def strncpyS (memory : Memory UInt8) (dest : Option Nat) (dmax : Nat) (src : Option Nat)
    (slen : Nat) : CopyResult :=
  match dest with
  | none => { errno := rcNegate esnullp, memory, reads := [] }
  | some dest =>
      if dmax = 0 then { errno := rcNegate eszerol, memory, reads := [] }
      else if dmax > rsizeMaxStr then { errno := rcNegate eslemax, memory, reads := [] }
      else match src with
        | none => { errno := rcNegate esnullp, memory := handleError memory dest dmax, reads := [] }
        | some src =>
            if slen = 0 then
              { errno := rcNegate eszerol, memory := handleError memory dest dmax, reads := [] }
            else if slen > rsizeMaxStr then
              { errno := rcNegate eslemax, memory := handleError memory dest dmax, reads := [] }
            else if dest < src then
              let overlapBumper := src
              copyLoop (fun dest _ => dest = overlapBumper) dest dmax memory [] dest src slen dmax
            else
              let overlapBumper := dest
              copyLoop (fun _ src => src = overlapBumper) dest dmax memory [] dest src slen dmax

structure LengthResult where
  count : Nat
  accesses : List Nat

/-- `while (*dest && dmax)`: the byte is looked at before the length that is left. -/
def lengthLoop (memory : Memory UInt8) (count : Nat) (accesses : List Nat) (dest : Nat) :
    Nat → LengthResult
  | 0 => { count, accesses := accesses ++ [dest] }
  | dmax + 1 =>
      if memory dest = 0 then { count, accesses := accesses ++ [dest] }
      else lengthLoop memory (count + 1) (accesses ++ [dest]) (dest + 1) dmax

def strnlenS (memory : Memory UInt8) (dest : Option Nat) (dmax : Nat) : LengthResult :=
  match dest with
  | none => { count := 0, accesses := [] }
  | some dest =>
      if dmax = 0 then { count := 0, accesses := [] }
      else if dmax > rsizeMaxStr then { count := 0, accesses := [] }
      else lengthLoop memory 0 [] dest dmax

structure TerminateResult extends LengthResult where
  memory : Memory UInt8

/-- The loop `while (dmax > 1)` and the store behind it. -/
def terminateLoop (memory : Memory UInt8) (count : Nat) (accesses : List Nat) (dest : Nat) :
    Nat → TerminateResult
  | dmax + 2 =>
      if memory dest ≠ 0 then
        terminateLoop memory (count + 1) (accesses ++ [dest]) (dest + 1) (dmax + 1)
      else
        { count, accesses := accesses ++ [dest, dest], memory := Function.update memory dest 0 }
  | _ => { count, accesses := accesses ++ [dest], memory := Function.update memory dest 0 }

def strnterminateS (memory : Memory UInt8) (dest : Option Nat) (dmax : Nat) : TerminateResult :=
  match dest with
  | none => { count := 0, accesses := [], memory }
  | some dest =>
      if dmax = 0 then { count := 0, accesses := [], memory }
      else if dmax > rsizeMaxStr then { count := 0, accesses := [], memory }
      else terminateLoop memory 0 [] dest dmax

end RioClient
