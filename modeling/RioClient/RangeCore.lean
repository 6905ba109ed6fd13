import RioClient.Addresses
import RioClient.Enumeration
import RioClient.TextFields

/-!
`Range.hpp`, and the call in `args.cpp` that reads the destinations with it.
-/

namespace RioClient

def split (s : Text) (delim : Char) : List Text := TextFields.fields s delim

/-- What the template needs of its element type: `operator!=` and `operator+` make
the loop, with the proof that it ends; `operator>` and `operator<<` are checked and printed. -/
structure RangeElement (T : Type) extends Enumeration.Walk T where
  greater : T → T → Bool
  stream : T → Text

/-- `Range<T>`, which exists only when `checkRange` did not throw. -/
structure Range {T : Type} (element : RangeElement T) where
  from_ : T
  till : T
  checkRange : element.greater from_ till = false

namespace Range

variable {T : Type} (element : RangeElement T)

def make (from_ till : T) : Except StdException (Range element) :=
  if check : element.greater from_ till = true then
    .error (.invalidArgument ("from: ".toList ++ element.stream from_ ++ " > ".toList ++
      "till: ".toList ++ element.stream till))
  else .ok ⟨from_, till, Bool.eq_false_iff.mpr check⟩

def single (value : T) : Except StdException (Range element) := make element value value

def elements {element : RangeElement T} (range : Range element) : List T :=
  element.visit range.from_ (element.next range.till)

end Range

def makeRange {T : Type} (element : RangeElement T) (range : Text)
    (fromString : Text → Except StdException T)
    (parseFrom parseTill : Option (Text → Text → Text)) : Except StdException (Range element) :=
  let build (first second : Text) : Except StdException (Range element) := do
    let from_ := match parseFrom with
      | some parse => parse first second
      | none => first
    let till := match parseTill with
      | some parse => parse first second
      | none => second
    Range.make element (← fromString from_) (← fromString till)
  match split range '-' with
  | [part] => build part part
  | [first, second] => build first second
  | _ => .error (.invalidArgument ("invalid range format: ".toList ++ range))

def findFrom (text : Text) (symbol : Char) (pos : Nat) : Option Nat :=
  ((text.drop pos).findIdx? (· = symbol)).map (pos + ·)

/-- The loop of `completeIp`: past the next `dots` dots. `npos + 1` is 0. -/
def skipDots (from_ : Text) : Nat → Nat → Nat
  | 0, pos => pos
  | dots + 1, pos =>
      skipDots from_ dots (match findFrom from_ '.' pos with
        | some found => found + 1
        | none => 0)

/-- `completeIp`: the parts missing in `till` are taken from the front of `from`. -/
def completeIp (from_ till : Text) : Text :=
  from_.take (skipDots from_ (3 - till.count '.') 0) ++ till

/-- Addresses as elements of a range. What is missing to the end is counted on the numeric values. -/
def ipv4Element (winsock : Winsock) : RangeElement Ipv4Addr where
  next := fun current => current.add 1
  differs := Ipv4Addr.ne
  distance := fun current stop => (stop.ipHostOrder - current.ipHostOrder).toNat
  arrived current stop same := by
    rw [Ipv4Addr.ne_eq_false_iff.mp same, UInt32.sub_self]
    rfl
  closer _ _ differs := Ipv4Addr.distance_add differs
  greater := Ipv4Addr.gt
  stream := Ipv4Addr.str winsock

section
variable (winsock : Winsock) (current stop : Ipv4Addr)

@[simp] theorem ipv4Element_next : (ipv4Element winsock).next current = current.add 1 := rfl

@[simp] theorem ipv4Element_distance : (ipv4Element winsock).distance current stop =
    (stop.ipHostOrder - current.ipHostOrder).toNat := rfl

end

def makeIpv4Range (winsock : Winsock) (range : Text) :
    Except StdException (Range (ipv4Element winsock)) :=
  makeRange (ipv4Element winsock) range (Ipv4Addr.ofText winsock) none (some completeIp)

def parseDestinations (winsock : Winsock) (dest : Text) (defaultIpv4 : Ipv4Addr) :
    Except StdException (List Ipv4Addr) := do
  let ipv4Range ← if dest.isEmpty then Range.single (ipv4Element winsock) defaultIpv4
    else makeIpv4Range winsock dest
  return ipv4Range.elements

end RioClient
