import Mathlib.Algebra.Group.Nat.Defs
import Mathlib.Data.List.Basic

/-!
Addresses as `NetworkUtils.hpp` handles them on the little-endian Windows
target, and the two Winsock conversions it relies on.
-/

namespace RioClient

abbrev Text := List Char

inductive StdException
  | invalidArgument (what : Text)
  | outOfRange (what : Text)
  | runtimeError (what : Text)
deriving DecidableEq, Repr

section
variable {α β : Type}

@[simp] theorem ok_bind (value : α) (next : α → Except StdException β) :
    (Except.ok value >>= next) = next value := rfl

theorem bind_eq_ok {action : Except StdException α} {next : α → Except StdException β}
    {result : β} :
    (action >>= next) = .ok result ↔ ∃ value, action = .ok value ∧ next value = .ok result := by
  cases action with
  | error thrown => exact ⟨nofun, fun ⟨_, returned, _⟩ => nomatch returned⟩
  | ok value => exact ⟨fun returned => ⟨value, rfl, returned⟩, fun ⟨_, rfl, returned⟩ => returned⟩

end

def byteOf (value : UInt32) (index : Nat) : Nat := value.toNat / 256 ^ index % 256

/-- Host to network order: on a little-endian host the four bytes are swapped. -/
def htonl (value : UInt32) : UInt32 :=
  UInt32.ofNat (byteOf value 0 * 256 ^ 3 + byteOf value 1 * 256 ^ 2 +
    byteOf value 2 * 256 + byteOf value 3)

def ntohl (value : UInt32) : UInt32 := htonl value

def dottedQuad (host : UInt32) : Text :=
  ['.'].intercalate
    ([byteOf host 3, byteOf host 2, byteOf host 1, byteOf host 0].map (Nat.toDigits 10))

/-- What a C function reads behind `c_str()`: the bytes before the first NUL. -/
def cStr (text : Text) : Text := text.takeWhile (· ≠ '\x00')

/-- The two Winsock text conversions. `inetPton` is `none` when the call does not return 1. -/
structure Winsock where
  inetPton : Text → Option UInt32
  inetNtop : UInt32 → Text

/-- What the client relies on: exactly the dotted-quad notation, in network order. -/
structure Winsock.Standard (winsock : Winsock) : Prop where
  pton : ∀ text ip, winsock.inetPton text = some ip ↔ text = dottedQuad (ntohl ip)
  ntop : ∀ ip, winsock.inetNtop ip = dottedQuad (ntohl ip)

structure Ipv4Addr where
  ipBe : UInt32 := 0
deriving DecidableEq, Repr

namespace Ipv4Addr

def ofText (winsock : Winsock) (v : Text) : Except StdException Ipv4Addr :=
  if v.isEmpty then .ok {}
  else
    match winsock.inetPton (cStr v) with
    | some ipBeTemp => .ok ⟨ipBeTemp⟩
    | none => .error (.invalidArgument "Ipv4Addr_t: Invalid IP Address".toList)

def ne (a b : Ipv4Addr) : Bool := a.ipBe != b.ipBe

def gt (a b : Ipv4Addr) : Bool := decide (a.ipBe > b.ipBe)

def ipHostOrder (a : Ipv4Addr) : UInt32 := ntohl a.ipBe

def ipNetOrder (a : Ipv4Addr) : UInt32 := a.ipBe

def setHostOrder (_a : Ipv4Addr) (v : UInt32) : Ipv4Addr := ⟨htonl v⟩

/-- `operator+`: the source adds 1 whatever the operand is. -/
def add (a : Ipv4Addr) (_i : UInt32) : Ipv4Addr := a.setHostOrder (a.ipHostOrder + 1)

def str (winsock : Winsock) (a : Ipv4Addr) : Text := winsock.inetNtop a.ipBe

end Ipv4Addr

end RioClient
