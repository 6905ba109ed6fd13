import Mathlib.Algebra.Ring.Int.Defs
import Mathlib.Data.List.Nodup
import RioClient.RangeCore
import RioClient.WinsockReference

/-!
What a range of addresses written in full denotes. The loop over it counts on
the numeric values, but whether it is accepted is decided on the stored words.
-/

namespace RioClient

def addressRange (first last : UInt32) : Text := dottedQuad first ++ '-' :: dottedQuad last

theorem split_addressRange (first last : UInt32) :
    split (addressRange first last) '-' = [dottedQuad first, dottedQuad last] := by
  have free : ∀ part ∈ [dottedQuad first] ++ [dottedQuad last], '-' ∉ part := by
    intro part member
    rcases List.mem_cons.mp member with rfl | member
    · exact dash_not_mem_dottedQuad first
    · rw [List.mem_singleton.mp member]
      exact dash_not_mem_dottedQuad last
  have read := TextFields.fields_intercalate (dottedQuad last) free (dottedQuad_ne_nil last)
  rwa [List.singleton_append, List.intercalate_cons_cons, List.intercalate_singleton,
    List.append_assoc, List.singleton_append] at read

theorem completeIp_of_complete {from_ till : Text} (complete : 3 ≤ till.count '.') :
    completeIp from_ till = till := by
  rw [completeIp, Nat.sub_eq_zero_of_le complete, skipDots, List.take_zero, List.nil_append]

section
variable {T : Type} {element : RangeElement T} {range : Text}
  {fromString : Text → Except StdException T} {parseTill : Text → Text → Text}

theorem makeRange_pair {first second : Text} {from_ till : T}
    (parts : split range '-' = [first, second]) (left : fromString first = .ok from_)
    (right : fromString (parseTill first second) = .ok till) :
    makeRange element range fromString none (some parseTill) = Range.make element from_ till := by
  simp only [makeRange, parts, left, right]
  rfl

end

namespace Range

variable {T : Type} (element : RangeElement T) {from_ till : T}

theorem make_of_greater (greater : element.greater from_ till = true) :
    ∃ what, make element from_ till = .error (.invalidArgument what) :=
  ⟨_, dif_pos greater⟩

theorem make_of_not_greater (ordered : element.greater from_ till = false) :
    ∃ range, make element from_ till = .ok range ∧ range.from_ = from_ ∧ range.till = till :=
  ⟨⟨from_, till, ordered⟩, dif_neg (Bool.eq_false_iff.mp ordered), rfl, rfl⟩

theorem make_eq_ok {element : RangeElement T} {made : Range element}
    (returned : make element from_ till = .ok made) :
    made.from_ = from_ ∧ made.till = till := by
  unfold make at returned
  split at returned
  · cases returned
  · cases returned
    exact ⟨rfl, rfl⟩

end Range

section
variable {T : Type} {element : RangeElement T} {range : Text}
  {fromString : Text → Except StdException T} {parseTill : Text → Text → Text}

theorem makeRange_eq_ok {made : Range element}
    (returned : makeRange element range fromString none (some parseTill) = .ok made) :
    ∃ first second, (split range '-' = [first] ∧ second = first ∨
        split range '-' = [first, second]) ∧
      fromString first = .ok made.from_ ∧
      fromString (parseTill first second) = .ok made.till := by
  have built {first second : Text}
      (returned : (fromString first >>= fun from_ => fromString (parseTill first second) >>=
        fun till => Range.make element from_ till) = .ok made) :
      fromString first = .ok made.from_ ∧
      fromString (parseTill first second) = .ok made.till := by
    obtain ⟨from_, left, rest⟩ := bind_eq_ok.mp returned
    obtain ⟨till, right, last⟩ := bind_eq_ok.mp rest
    obtain ⟨rfl, rfl⟩ := Range.make_eq_ok last
    exact ⟨left, right⟩
  unfold makeRange at returned
  dsimp only at returned
  split at returned
  next part parts => exact ⟨part, part, .inl ⟨parts, rfl⟩, built returned⟩
  next first second parts => exact ⟨first, second, .inr parts, built returned⟩
  next => cases returned

end

section
variable {winsock : Winsock}

theorem makeIpv4Range_addressRange (standard : winsock.Standard) (first last : UInt32) :
    makeIpv4Range winsock (addressRange first last) =
      Range.make (ipv4Element winsock) ⟨htonl first⟩ ⟨htonl last⟩ := by
  have complete : completeIp (dottedQuad first) (dottedQuad last) = dottedQuad last :=
    completeIp_of_complete (Nat.le_of_eq (count_dot_dottedQuad last).symm)
  refine makeRange_pair (split_addressRange first last)
    (Ipv4Addr.ofText_dottedQuad standard first) ?_
  rw [complete]
  exact Ipv4Addr.ofText_dottedQuad standard last

theorem addressRange_ne_nil (first last : UInt32) : addressRange first last ≠ [] :=
  List.append_ne_nil_of_left_ne_nil (dottedQuad_ne_nil first) _

theorem parseDestinations_of_ne_nil {dest : Text} {defaultIpv4 : Ipv4Addr} (given : dest ≠ []) :
    parseDestinations winsock dest defaultIpv4 =
      (makeIpv4Range winsock dest).map Range.elements := by
  rw [parseDestinations, if_neg (by simpa using given)]
  cases makeIpv4Range winsock dest <;> rfl

theorem parseDestinations_addressRange (standard : winsock.Standard) (first last : UInt32)
    (defaultIpv4 : Ipv4Addr) :
    parseDestinations winsock (addressRange first last) defaultIpv4 =
      (Range.make (ipv4Element winsock) ⟨htonl first⟩ ⟨htonl last⟩).map Range.elements := by
  rw [parseDestinations_of_ne_nil (addressRange_ne_nil first last),
    makeIpv4Range_addressRange standard]

theorem Range.elements_ipHostOrder (range : Range (ipv4Element winsock)) :
    range.elements.map Ipv4Addr.ipHostOrder =
      (List.range (range.till.ipHostOrder + 1 - range.from_.ipHostOrder).toNat).map fun count =>
        range.from_.ipHostOrder + UInt32.ofNat count := by
  rw [Range.elements, Enumeration.Walk.visit_eq_map, List.map_map, ipv4Element_next,
    ipv4Element_distance, Ipv4Addr.ipHostOrder_add]
  exact List.map_congr_left fun count _ => Ipv4Addr.ipHostOrder_iterate_add range.from_ count

theorem Range.length_elements (range : Range (ipv4Element winsock)) :
    range.elements.length = (range.till.ipHostOrder + 1 - range.from_.ipHostOrder).toNat := by
  have lengths := congrArg List.length range.elements_ipHostOrder
  rwa [List.length_map, List.length_map, List.length_range] at lengths

theorem Range.elements_eq_nil_iff (range : Range (ipv4Element winsock)) :
    range.elements = [] ↔ range.from_ = range.till.add 1 := by
  rw [← List.length_eq_zero_iff, range.length_elements, ← Ipv4Addr.ipHostOrder_injective.eq_iff,
    Ipv4Addr.ipHostOrder_add]
  have firstBound := range.from_.ipHostOrder.toNat_lt
  have lastBound := (range.till.ipHostOrder + 1).toNat_lt
  rw [← UInt32.toNat_inj, UInt32.toNat_sub]
  omega

theorem Range.elements_nodup (range : Range (ipv4Element winsock)) : range.elements.Nodup := by
  refine List.Nodup.of_map Ipv4Addr.ipHostOrder ?_
  rw [range.elements_ipHostOrder]
  refine List.Nodup.map_on (fun first firstIn second secondIn same => ?_) List.nodup_range
  have bound := (range.till.ipHostOrder + 1 - range.from_.ipHostOrder).toNat_lt
  have firstBound := List.mem_range.mp firstIn
  have secondBound := List.mem_range.mp secondIn
  have counts := congrArg UInt32.toNat ((UInt32.add_right_inj _).mp same)
  rwa [UInt32.toNat_ofNat_of_lt' (Nat.lt_trans firstBound bound),
    UInt32.toNat_ofNat_of_lt' (Nat.lt_trans secondBound bound)] at counts

theorem toNat_distance (first stop : UInt32) :
    ((stop - first).toNat : Int) = ((stop.toNat : Int) - first.toNat) % 2 ^ 32 := by
  have firstBound := first.toNat_lt
  have stopBound := stop.toNat_lt
  rw [UInt32.toNat_sub]
  omega

/-- The loop over a range ends after as many steps as the numbers of its ends
say, modulo 2^32, and visits consecutive numbers from the first one on, none twice. -/
theorem Range.visits_each_once (range : Range (ipv4Element winsock)) : ∃ steps : Nat,
    (steps : Int) =
      ((range.till.ipHostOrder.toNat : Int) - range.from_.ipHostOrder.toNat + 1) % 2 ^ 32 ∧
    (∀ count < steps, ((fun current : Ipv4Addr => current.add 1)^[count] range.from_).ne
      (range.till.add 1) = true) ∧
    ((fun current : Ipv4Addr => current.add 1)^[steps] range.from_).ne (range.till.add 1) = false ∧
    range.elements = List.iterate (fun current => current.add 1) range.from_ steps ∧
    range.elements.Nodup ∧
    range.elements.map (fun ip => ip.ipHostOrder.toNat) =
      (List.range steps).map fun count => (range.from_.ipHostOrder.toNat + count) % 2 ^ 32 := by
  have walked := @Enumeration.Walk.distance_iterate _ (ipv4Element winsock).toWalk range.from_
    (range.till.add 1)
  have differs (count : Nat) := @Enumeration.Walk.differs_iff_distance _
    (ipv4Element winsock).toWalk ((ipv4Element winsock).next^[count] range.from_)
    (range.till.add 1)
  refine ⟨(ipv4Element winsock).distance range.from_ (range.till.add 1), ?_, ?_, ?_, ?_,
    range.elements_nodup, ?_⟩
  · have next : ((range.till.ipHostOrder + 1).toNat : Int) =
        ((range.till.ipHostOrder.toNat : Int) + 1) % 2 ^ 32 := by
      rw [UInt32.toNat_add]
      rfl
    rw [ipv4Element_distance, Ipv4Addr.ipHostOrder_add, toNat_distance, next]
    omega
  · intro count early
    apply (differs count).mpr
    rw [walked (Nat.le_of_lt early)]
    omega
  · rw [← Bool.not_eq_true]
    intro further
    apply (differs _).mp further
    rw [walked (Nat.le_refl _), Nat.sub_self]
  · exact Enumeration.Walk.visit_eq_iterate _ _ _
  · have numbers := congrArg (List.map UInt32.toNat) range.elements_ipHostOrder
    rw [List.map_map, List.map_map] at numbers
    refine numbers.trans ?_
    rw [ipv4Element_distance, Ipv4Addr.ipHostOrder_add]
    refine List.map_congr_left fun count member => ?_
    have bound := List.mem_range.mp member
    have limit := (range.till.ipHostOrder + 1 - range.from_.ipHostOrder).toNat_lt
    rw [Function.comp_apply, UInt32.toNat_add,
      UInt32.toNat_ofNat_of_lt' (Nat.lt_trans bound limit)]

theorem toNat_span {first last : UInt32} (ordered : first ≤ last)
    (proper : ¬(first = 0 ∧ last = 4294967295)) :
    (last + 1 - first).toNat = last.toNat + 1 - first.toNat := by
  have order := UInt32.le_iff_toNat_le.mp ordered
  have bound := last.toNat_lt
  rw [← UInt32.toNat_inj, ← UInt32.toNat_inj, show (0 : UInt32).toNat = 0 from rfl,
    show (4294967295 : UInt32).toNat = 4294967295 from rfl] at proper
  rw [UInt32.toNat_sub, UInt32.toNat_add, show (1 : UInt32).toNat = 1 from rfl]
  omega

theorem Range.elements_toNat (range : Range (ipv4Element winsock))
    (ordered : range.from_.ipHostOrder ≤ range.till.ipHostOrder)
    (proper : ¬(range.from_.ipHostOrder = 0 ∧ range.till.ipHostOrder = 4294967295)) :
    range.elements.map (fun ip => ip.ipHostOrder.toNat) =
      List.range' range.from_.ipHostOrder.toNat
        (range.till.ipHostOrder.toNat + 1 - range.from_.ipHostOrder.toNat) := by
  have bound := range.till.ipHostOrder.toNat_lt
  have numbers := congrArg (List.map UInt32.toNat) range.elements_ipHostOrder
  rw [List.map_map, List.map_map, toNat_span ordered proper] at numbers
  refine numbers.trans ?_
  rw [List.range'_eq_map_range]
  refine List.map_congr_left fun index member => ?_
  have inside := List.mem_range.mp member
  rw [Function.comp_apply, UInt32.toNat_add, UInt32.toNat_ofNat_of_lt' (by
    rw [show UInt32.size = 4294967296 from rfl]
    omega)]
  omega

def Denotes (winsock : Winsock) (defaultIpv4 : Ipv4Addr) (first last : UInt32) : Prop :=
  (first ≤ last → ¬(first = 0 ∧ last = 4294967295) → ∃ ipVec,
    parseDestinations winsock (addressRange first last) defaultIpv4 = .ok ipVec ∧
    ipVec.map (fun ip => ip.ipHostOrder.toNat) =
      List.range' first.toNat (last.toNat + 1 - first.toNat)) ∧
  (last < first → ∃ what,
    parseDestinations winsock (addressRange first last) defaultIpv4 =
      .error (.invalidArgument what))

/-- `operator>` on the stored words says which of the two numbers is larger. -/
def ComparesNumerically (first last : UInt32) : Prop :=
  Ipv4Addr.gt ⟨htonl first⟩ ⟨htonl last⟩ = true ↔ last < first

variable {defaultIpv4 : Ipv4Addr} {first last : UInt32}

theorem comparesNumerically_of_lastOctet (third : byteOf first 3 = byteOf last 3)
    (second : byteOf first 2 = byteOf last 2) (same : byteOf first 1 = byteOf last 1) :
    ComparesNumerically first last := by
  have firstValue := toNat_eq_bytes first
  have lastValue := toNat_eq_bytes last
  have firstStored := toNat_htonl first
  have lastStored := toNat_htonl last
  have compared : Ipv4Addr.gt ⟨htonl first⟩ ⟨htonl last⟩ = true ↔
      (htonl last).toNat < (htonl first).toNat := decide_eq_true_iff
  rw [ComparesNumerically, compared, UInt32.lt_iff_toNat_lt]
  omega

theorem parseDestinations_rejected (standard : winsock.Standard)
    (greater : Ipv4Addr.gt ⟨htonl first⟩ ⟨htonl last⟩ = true) : ∃ what,
    parseDestinations winsock (addressRange first last) defaultIpv4 =
      .error (.invalidArgument what) := by
  obtain ⟨what, thrown⟩ := Range.make_of_greater (ipv4Element winsock) greater
  refine ⟨what, ?_⟩
  rw [parseDestinations_addressRange standard, thrown]
  rfl

theorem parseDestinations_accepted (standard : winsock.Standard)
    (ordered : Ipv4Addr.gt ⟨htonl first⟩ ⟨htonl last⟩ = false) :
    ∃ range : Range (ipv4Element winsock),
      range.from_.ipHostOrder = first ∧ range.till.ipHostOrder = last ∧
      parseDestinations winsock (addressRange first last) defaultIpv4 = .ok range.elements := by
  obtain ⟨range, made, start, stop⟩ := Range.make_of_not_greater (ipv4Element winsock) ordered
  refine ⟨range, ?_, ?_, ?_⟩
  · rw [start]
    exact ntohl_htonl first
  · rw [stop]
    exact ntohl_htonl last
  · rw [parseDestinations_addressRange standard, made]
    rfl

/-- A range denotes what it says exactly when the comparison of its ends is numeric. -/
theorem parseDestinations_denotes_iff (standard : winsock.Standard) (defaultIpv4 : Ipv4Addr)
    (first last : UInt32) :
    Denotes winsock defaultIpv4 first last ↔ ComparesNumerically first last := by
  constructor
  · rintro ⟨listed, thrown⟩
    constructor
    · intro greater
      by_contra ordered
      have order : first ≤ last := UInt32.not_lt.mp ordered
      have proper : ¬(first = 0 ∧ last = 4294967295) := by
        rintro ⟨rfl, rfl⟩
        exact absurd greater (by decide)
      obtain ⟨ipVec, accepted, _⟩ := listed order proper
      obtain ⟨what, rejected⟩ := parseDestinations_rejected standard greater
      rw [rejected] at accepted
      cases accepted
    · intro descending
      obtain ⟨what, rejected⟩ := thrown descending
      cases compared : Ipv4Addr.gt ⟨htonl first⟩ ⟨htonl last⟩ with
      | true => rfl
      | false =>
          obtain ⟨range, _, _, accepted⟩ := parseDestinations_accepted standard compared
          rw [accepted] at rejected
          cases rejected
  · intro numeric
    refine ⟨fun order proper => ?_, fun descending =>
      parseDestinations_rejected standard (numeric.mpr descending)⟩
    have ordered : Ipv4Addr.gt ⟨htonl first⟩ ⟨htonl last⟩ = false :=
      Bool.eq_false_iff.mpr fun greater => UInt32.not_lt.mpr order (numeric.mp greater)
    obtain ⟨range, rfl, rfl, accepted⟩ := parseDestinations_accepted standard ordered
    exact ⟨range.elements, accepted, range.elements_toNat order proper⟩

end

open WinsockReference in
theorem parseDestinations_denotes_iff_last_octet :
    Denotes referenceWinsock {} (ofOctets 239 5 69 2) (ofOctets 239 5 69 17) :=
  (parseDestinations_denotes_iff referenceWinsock_standard {} _ _).mpr
    (comparesNumerically_of_lastOctet (by decide) (by decide) (by decide))

open WinsockReference in
/-- The ends of the range given as the example in `Range.hpp`: its text is rejected,
although the first address comes before the last. -/
theorem parseDestinations_rejects_ascending_range :
    parseDestinations referenceWinsock "192.168.1.3-192.168.2.1".toList {} =
      .error (.invalidArgument "from: 192.168.1.3 > till: 192.168.2.1".toList) ∧
    ¬Denotes referenceWinsock {} (ofOctets 192 168 1 3) (ofOctets 192 168 2 1) := by
  refine ⟨by rfl, fun denotes => ?_⟩
  obtain ⟨ipVec, accepted, _⟩ := denotes.1 (by decide) (by decide)
  obtain ⟨what, rejected⟩ := @parseDestinations_rejected referenceWinsock {}
    (ofOctets 192 168 1 3) (ofOctets 192 168 2 1) referenceWinsock_standard (by decide)
  rw [rejected] at accepted
  cases accepted

end RioClient
