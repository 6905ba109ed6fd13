import RioClient.AddressRanges
import RioClient.ArgsCore
import RioClient.MulticastCheck

/-!
`MakePortRange`: the ends are narrowed to 16 bits before they are compared, and
the end of the loop is one past the last port modulo 2^16.
-/

namespace RioClient

def portElement : RangeElement UInt16 where
  next := fun current => current + 1
  differs := fun current stop => current != stop
  distance := fun current stop => (stop - current).toNat
  arrived current stop same := by
    rw [bne_eq_false_iff_eq.mp same, UInt16.sub_self]
    rfl
  closer current stop differs := by
    have currentBound := current.toNat_lt
    have stopBound := stop.toNat_lt
    have apart : current.toNat ≠ stop.toNat :=
      fun same => bne_iff_ne.mp differs (UInt16.toNat_inj.mp same)
    rw [UInt16.toNat_sub, UInt16.toNat_sub, UInt16.toNat_add, UInt16.toNat_one]
    omega
  greater := fun left right => decide (left > right)
  stream := fun port => Nat.toDigits 10 port.toNat

def makePortRange (range : Text) : Except StdException (Range portElement) :=
  makeRange portElement range (fun val => do return (← stoi val).toUInt32.toUInt16) none none

@[simp] theorem portElement_next (current : UInt16) : portElement.next current = current + 1 := rfl

@[simp] theorem portElement_distance (current stop : UInt16) :
    portElement.distance current stop = (stop - current).toNat := rfl

theorem portElement_greater (first last : Nat) :
    portElement.greater (UInt16.ofNat first) (UInt16.ofNat last) =
      decide (last % 65536 < first % 65536) := by
  have order : UInt16.ofNat first > UInt16.ofNat last ↔ last % 65536 < first % 65536 := by
    rw [gt_iff_lt, UInt16.lt_iff_toNat_lt, UInt16.toNat_ofNat', UInt16.toNat_ofNat']
  exact decide_eq_decide.mpr order

theorem toNat_iterate_add_one (port : UInt16) (count : Nat) :
    ((fun current : UInt16 => current + 1)^[count] port).toNat = (port.toNat + count) % 65536 := by
  induction count generalizing port with
  | zero =>
      have bound := port.toNat_lt
      rw [Function.iterate_zero_apply]
      omega
  | succ count ih =>
      rw [Function.iterate_succ_apply, ih, UInt16.toNat_add, UInt16.toNat_one]
      omega

theorem Range.elements_ports (range : Range portElement) :
    range.elements.map UInt16.toNat =
      (List.range (range.till + 1 - range.from_).toNat).map fun count =>
        (range.from_.toNat + count) % 65536 := by
  rw [Range.elements, Enumeration.Walk.visit_eq_map, List.map_map, portElement_distance,
    portElement_next]
  refine List.map_congr_left fun count _ => ?_
  exact toNat_iterate_add_one range.from_ count

theorem Range.elements_ports_of_span (range : Range portElement)
    (ordered : range.from_.toNat ≤ range.till.toNat)
    (proper : ¬(range.from_.toNat = 0 ∧ range.till.toNat = 65535)) :
    range.elements.map UInt16.toNat =
      List.range' range.from_.toNat (range.till.toNat + 1 - range.from_.toNat) := by
  have bound := range.till.toNat_lt
  have span : (range.till + 1 - range.from_).toNat =
      range.till.toNat + 1 - range.from_.toNat := by
    rw [UInt16.toNat_sub, UInt16.toNat_add, UInt16.toNat_one]
    omega
  rw [range.elements_ports, span, List.range'_eq_map_range]
  refine List.map_congr_left fun count member => ?_
  have inside := List.mem_range.mp member
  omega

/-- One past the last port is 0, where the loop over all ports also starts. -/
theorem Range.elements_all_ports {range : Range portElement} (start : range.from_.toNat = 0)
    (stop : range.till.toNat = 65535) : range.elements = [] := by
  have span : (range.till + 1 - range.from_).toNat = 0 := by
    rw [UInt16.toNat_sub, UInt16.toNat_add, UInt16.toNat_one, start, stop]
  have visited := range.elements_ports
  rw [span, List.range_zero, List.map_nil] at visited
  exact List.map_eq_nil_iff.mp visited

theorem makeRange_none {T : Type} {element : RangeElement T} {range : Text}
    {fromString : Text → Except StdException T} :
    makeRange element range fromString none none =
      makeRange element range fromString none (some fun _ second => second) := rfl

def portRange (first last : Nat) : Text := Nat.toDigits 10 first ++ '-' :: Nat.toDigits 10 last

theorem dash_not_mem_toDigits (value : Nat) : '-' ∉ Nat.toDigits 10 value := by
  intro member
  have digit := Nat.isDigit_of_mem_toDigits (by decide) (by decide) member
  exact absurd digit (by decide)

theorem split_portRange (first last : Nat) :
    split (portRange first last) '-' = [Nat.toDigits 10 first, Nat.toDigits 10 last] := by
  rw [portRange, split, TextFields.fields_append_delim (dash_not_mem_toDigits first),
    TextFields.fields_of_free (dash_not_mem_toDigits last), if_neg]
  simp

section
variable {first last : Nat}

theorem stoi_port {value : Nat} (readable : value < 2147483648) :
    (do return (← stoi (Nat.toDigits 10 value)).toUInt32.toUInt16 : Except StdException UInt16) =
      .ok (UInt16.ofNat value) := by
  have narrowed : (Int32.ofNat value).toUInt32.toUInt16 = UInt16.ofNat value := by
    apply UInt16.toNat_inj.mp
    simp
  rw [stoi_toDigits readable, ← narrowed]
  rfl

theorem makePortRange_portRange (firstReadable : first < 2147483648)
    (lastReadable : last < 2147483648) :
    makePortRange (portRange first last) =
      Range.make portElement (UInt16.ofNat first) (UInt16.ofNat last) := by
  rw [makePortRange, makeRange_none]
  exact makeRange_pair (split_portRange first last) (stoi_port firstReadable)
    (stoi_port lastReadable)

def DenotesPorts (first last : Nat) : Prop :=
  (∃ thrown, makePortRange (portRange first last) = .error thrown) ∨
    ∃ range, makePortRange (portRange first last) = .ok range ∧ first ≤ last ∧ last ≤ 65535 ∧
      range.elements.map UInt16.toNat = List.range' first (last + 1 - first)

theorem makePortRange_rejects (firstReadable : first < 2147483648)
    (lastReadable : last < 2147483648) (descending : last % 65536 < first % 65536) :
    ∃ thrown, makePortRange (portRange first last) = .error thrown := by
  have greater : portElement.greater (UInt16.ofNat first) (UInt16.ofNat last) = true := by
    rw [portElement_greater]
    exact decide_eq_true descending
  obtain ⟨what, thrown⟩ := Range.make_of_greater portElement greater
  exact ⟨_, (makePortRange_portRange firstReadable lastReadable).trans thrown⟩

theorem makePortRange_accepts (firstReadable : first < 2147483648)
    (lastReadable : last < 2147483648) (ordered : ¬last % 65536 < first % 65536) :
    ∃ range, makePortRange (portRange first last) = .ok range ∧
      range.from_.toNat = first % 65536 ∧ range.till.toNat = last % 65536 := by
  have notGreater : portElement.greater (UInt16.ofNat first) (UInt16.ofNat last) = false := by
    rw [portElement_greater]
    exact decide_eq_false ordered
  obtain ⟨range, made, start, stop⟩ := Range.make_of_not_greater portElement notGreater
  refine ⟨range, (makePortRange_portRange firstReadable lastReadable).trans made, ?_, ?_⟩
  · rw [start, UInt16.toNat_ofNat']
  · rw [stop, UInt16.toNat_ofNat']

/-- A port range denotes what it says exactly when its narrowed ends descend, or
both ends are ports and it is not the range of all ports. -/
theorem makePortRange_denotes_iff (firstReadable : first < 2147483648)
    (lastReadable : last < 2147483648) :
    DenotesPorts first last ↔ last % 65536 < first % 65536 ∨
      (first ≤ last ∧ last ≤ 65535 ∧ ¬(first = 0 ∧ last = 65535)) := by
  by_cases descending : last % 65536 < first % 65536
  · have rejected := makePortRange_rejects firstReadable lastReadable descending
    exact ⟨fun _ => .inl descending, fun _ => .inl rejected⟩
  obtain ⟨range, accepted, start, stop⟩ :=
    makePortRange_accepts firstReadable lastReadable descending
  constructor
  · rintro (⟨thrown, rejected⟩ | ⟨_, returned, ordered, isPort, listed⟩)
    · rw [accepted] at rejected
      cases rejected
    · rw [accepted] at returned
      cases returned
      refine .inr ⟨ordered, isPort, ?_⟩
      rintro ⟨rfl, rfl⟩
      rw [Range.elements_all_ports start stop] at listed
      cases listed
  · rintro (descends | ⟨ordered, isPort, proper⟩)
    · exact absurd descends descending
    · rw [Nat.mod_eq_of_lt (by omega)] at start stop
      refine .inr ⟨range, accepted, ordered, isPort, ?_⟩
      rw [range.elements_ports_of_span (by omega) (by omega), start, stop]

end

theorem makePortRange_denotes_iff_last_port : DenotesPorts 65000 65535 :=
  (makePortRange_denotes_iff (by decide) (by decide)).mpr (.inr (by decide))

/-- The range of all ports is accepted and empty, and one that begins behind the
last port denotes others. -/
theorem makePortRange_wraps :
    (∃ range, makePortRange "0-65535".toList = .ok range ∧ range.elements = []) ∧
    (∃ range, makePortRange "70000-70001".toList = .ok range ∧
      range.elements.map UInt16.toNat = [4464, 4465]) ∧
    ¬DenotesPorts 0 65535 ∧ ¬DenotesPorts 70000 70001 := by
  obtain ⟨all, allAccepted, allStart, allStop⟩ :=
    @makePortRange_accepts 0 65535 (by decide) (by decide) (by decide)
  obtain ⟨others, othersAccepted, othersStart, othersStop⟩ :=
    @makePortRange_accepts 70000 70001 (by decide) (by decide) (by decide)
  have empty : all.elements = [] := Range.elements_all_ports allStart allStop
  refine ⟨⟨all, allAccepted, empty⟩, ⟨others, othersAccepted, ?_⟩, ?_, ?_⟩
  · rw [others.elements_ports_of_span (by omega) (by omega), othersStart, othersStop]
    rfl
  · rintro (⟨thrown, rejected⟩ | ⟨_, returned, _, _, listed⟩)
    · rw [allAccepted] at rejected
      cases rejected
    · rw [allAccepted] at returned
      cases returned
      rw [empty] at listed
      cases listed
  · rintro (⟨thrown, rejected⟩ | ⟨_, _, _, isPort, _⟩)
    · rw [othersAccepted] at rejected
      cases rejected
    · exact absurd isPort (by decide)

end RioClient
