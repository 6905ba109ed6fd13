import RioClient.AddressRanges
import RioClient.MulticastCheck
import RioClient.ProducerCore

/-!
The arguments a session is started with: read from the options and accepted by
`Check`. The only range that is accepted without naming a group is one that
begins right after its own end.
-/

namespace RioClient

open WinsockReference

section
variable {winsock : Winsock}

theorem count_dot_of_ofText (standard : winsock.Standard) {part : Text} {ip : Ipv4Addr}
    (read : Ipv4Addr.ofText winsock part = .ok ip) : part = [] ∨ 3 ≤ part.count '.' := by
  rcases (Ipv4Addr.ofText_eq_ok_iff standard).mp read with ⟨empty, _⟩ | text
  · exact .inl empty
  · have dots := count_dot_dottedQuad ip.ipHostOrder
    rw [← text] at dots
    exact .inr (dots ▸ (List.takeWhile_prefix _).sublist.count_le '.')

theorem completeIp_self (standard : winsock.Standard) {part : Text} {ip : Ipv4Addr}
    (read : Ipv4Addr.ofText winsock part = .ok ip) : completeIp part part = part := by
  rcases count_dot_of_ofText standard read with rfl | complete
  · rfl
  · exact completeIp_of_complete complete

/-- The text gives two ends, and the first address is the one after the last. -/
def RunsPastItsEnd (winsock : Winsock) (dest : Text) : Prop :=
  ∃ first second from_ till, split dest '-' = [first, second] ∧
    Ipv4Addr.ofText winsock first = .ok from_ ∧
    Ipv4Addr.ofText winsock (completeIp first second) = .ok till ∧ from_ = till.add 1

theorem runsPastItsEnd_addressRange (standard : winsock.Standard) (first last : UInt32) :
    RunsPastItsEnd winsock (addressRange first last) ↔ first = last + 1 := by
  have complete : completeIp (dottedQuad first) (dottedQuad last) = dottedQuad last :=
    completeIp_of_complete (Nat.le_of_eq (count_dot_dottedQuad last).symm)
  have numeric : (⟨htonl first⟩ : Ipv4Addr) = Ipv4Addr.add ⟨htonl last⟩ 1 ↔ first = last + 1 := by
    rw [← Ipv4Addr.ipHostOrder_injective.eq_iff, Ipv4Addr.ipHostOrder_add]
    simp only [Ipv4Addr.ipHostOrder, ntohl_htonl]
  constructor
  · rintro ⟨_, _, from_, till, pair, readFrom, readTill, next⟩
    rw [split_addressRange] at pair
    cases pair
    rw [Ipv4Addr.ofText_dottedQuad standard] at readFrom
    rw [complete, Ipv4Addr.ofText_dottedQuad standard] at readTill
    cases readFrom
    cases readTill
    exact numeric.mp next
  · intro next
    exact ⟨_, _, _, _, split_addressRange first last, Ipv4Addr.ofText_dottedQuad standard first,
      complete.symm ▸ Ipv4Addr.ofText_dottedQuad standard last, numeric.mpr next⟩

theorem parseDestinations_eq_ok (standard : winsock.Standard) {dest : Text}
    {defaultIpv4 : Ipv4Addr} {ipVec : List Ipv4Addr}
    (returned : parseDestinations winsock dest defaultIpv4 = .ok ipVec) :
    ∃ range : Range (ipv4Element winsock), ipVec = range.elements ∧
      (range.from_ = range.till.add 1 ↔ RunsPastItsEnd winsock dest) := by
  have single {range : Range (ipv4Element winsock)} (same : range.from_ = range.till)
      (parts : ∀ first second, split dest '-' ≠ [first, second]) :
      range.from_ = range.till.add 1 ↔ RunsPastItsEnd winsock dest := by
    rw [same]
    exact ⟨fun next => absurd next range.till.ne_add,
      fun ⟨first, second, _, _, pair, _⟩ => absurd pair (parts first second)⟩
  unfold parseDestinations at returned
  dsimp only at returned
  split at returned
  next empty =>
    obtain ⟨range, made, listed⟩ := bind_eq_ok.mp returned
    cases listed
    obtain ⟨left, right⟩ := Range.make_eq_ok made
    refine ⟨range, rfl, single (left.trans right.symm) fun first second pair => ?_⟩
    rw [List.isEmpty_iff.mp empty] at pair
    cases pair
  next =>
    obtain ⟨range, made, listed⟩ := bind_eq_ok.mp returned
    cases listed
    refine ⟨range, rfl, ?_⟩
    obtain ⟨first, second, parts, left, right⟩ := makeRange_eq_ok made
    rcases parts with ⟨parts, rfl⟩ | parts
    · rw [completeIp_self standard left, left] at right
      refine single (Except.ok.inj right) fun first second pair => ?_
      rw [parts] at pair
      cases pair
    · constructor
      · exact fun next => ⟨first, second, _, _, parts, left, right, next⟩
      · rintro ⟨_, _, from_, till, pair, readFrom, readTill, next⟩
        rw [parts] at pair
        cases pair
        rw [left] at readFrom
        rw [right] at readTill
        cases readFrom
        cases readTill
        exact next

structure Usable (args : Args) : Prop where
  groups : args.mcastAddrStr ≠ []
  distinct : args.mcastAddrStr.Nodup
  multicast : ∀ ip ∈ args.mcastAddrStr, ip.IsMulticast
  rate : 1 ≤ args.packetRate.toInt
  sends : 1 ≤ args.packetRate.toInt * args.mcastAddrStr.length
  limit : args.packetRate.toInt * args.mcastAddrStr.length ≤ 1000000

def Startable (args : Args) : Prop :=
  ∃ producer : ProducerArgs, producer.toArgs = args ∧ 0 < producer.numberOfMcGroups ∧
    0 < producer.maxOutstandingSend

theorem Usable.startable {args : Args} (usable : Usable args) : Startable args := by
  have groups : 0 < args.mcastAddrStr.length := List.length_pos_iff.mpr usable.groups
  have rate := usable.rate
  refine ⟨⟨args, rate, groups, usable.limit⟩, rfl, groups, ?_⟩
  exact Nat.mul_pos (show 0 < args.packetRate.toInt.toNat by omega) groups

theorem parseArguments_eq_ok {options : Options} {args : Args}
    (returned : parseArguments winsock options = .ok args) : ∃ defaultIpv4,
    parseDestinations winsock options.mcastIp defaultIpv4 = .ok args.mcastAddrStr ∧
      args = options.toArgs args.mcastAddrStr := by
  unfold parseArguments at returned
  obtain ⟨defaultIpv4, _, rest⟩ := bind_eq_ok.mp returned
  obtain ⟨mcastAddrStr, parsed, built⟩ := bind_eq_ok.mp rest
  cases built
  exact ⟨defaultIpv4, parsed, rfl⟩

/-- The address that stands in for empty destinations is always readable. -/
theorem parseArguments_eq_map (standard : winsock.Standard) (options : Options) :
    parseArguments winsock options =
      (parseDestinations winsock options.mcastIp ⟨htonl (ofOctets 239 5 69 2)⟩).map
        options.toArgs := by
  have standing : Ipv4Addr.ofText winsock "239.5.69.2".toList =
      .ok ⟨htonl (ofOctets 239 5 69 2)⟩ :=
    Ipv4Addr.ofText_dottedQuad standard (ofOctets 239 5 69 2)
  rw [parseArguments, standing, ok_bind]
  cases parseDestinations winsock options.mcastIp ⟨htonl (ofOctets 239 5 69 2)⟩ <;> rfl

/-- Accepted arguments are usable unless the range of groups begins right after its end. -/
theorem accepted_usable_iff (standard : winsock.Standard) {options : Options} {args : Args}
    {line : Option Text} (returned : parseArguments winsock options = .ok args)
    (accepted : check winsock (some args) = .ok (true, line)) :
    Usable args ∧ Startable args ↔ ¬RunsPastItsEnd winsock options.mcastIp := by
  obtain ⟨defaultIpv4, parsed, -⟩ := parseArguments_eq_ok returned
  obtain ⟨range, listed, past⟩ := parseDestinations_eq_ok standard parsed
  obtain ⟨_, _, multicast, _, _, rateAccepted⟩ := (check_accepts_iff standard).mp accepted
  have few : args.mcastAddrStr.length < 2 ^ 32 := by
    rw [listed, range.length_elements]
    exact UInt32.toNat_lt _
  obtain ⟨rate, limit⟩ := (rate_accepted_iff few).mp rateAccepted
  rw [← past, ← range.elements_eq_nil_iff, ← listed]
  constructor
  · exact fun usable => usable.1.groups
  · intro groups
    have count : 1 ≤ args.mcastAddrStr.length := List.length_pos_iff.mpr groups
    have usable : Usable args :=
      { groups
        distinct := listed ▸ range.elements_nodup
        multicast
        rate
        sends := Int.mul_pos (by omega) (by omega)
        limit }
    exact ⟨usable, usable.startable⟩

end

theorem parseArguments_addressRange {options : Options} {first last : UInt32}
    (text : options.mcastIp = addressRange first last)
    (ordered : Ipv4Addr.gt ⟨htonl first⟩ ⟨htonl last⟩ = false) :
    ∃ range : Range (ipv4Element referenceWinsock),
      range.from_.ipHostOrder = first ∧ range.till.ipHostOrder = last ∧
      parseArguments referenceWinsock options = .ok (options.toArgs range.elements) := by
  obtain ⟨range, start, stop, parsed⟩ :=
    @parseDestinations_accepted _ _ _ _ referenceWinsock_standard ordered
  refine ⟨range, start, stop, ?_⟩
  rw [parseArguments_eq_map referenceWinsock_standard, text, parsed]
  rfl

theorem parseArguments_twoGroups {options : Options}
    (text : options.mcastIp = "239.5.69.2-239.5.69.3".toList) :
    parseArguments referenceWinsock options = .ok (options.toArgs
      [⟨htonl (ofOctets 239 5 69 2)⟩, ⟨htonl (ofOctets 239 5 69 3)⟩]) := by
  have whole : options.mcastIp = addressRange (ofOctets 239 5 69 2) (ofOctets 239 5 69 3) :=
    text.trans (by decide)
  obtain ⟨range, start, stop, returned⟩ := parseArguments_addressRange whole (by decide)
  have groups : range.elements =
      [⟨htonl (ofOctets 239 5 69 2)⟩, ⟨htonl (ofOctets 239 5 69 3)⟩] := by
    apply List.map_injective_iff.mpr Ipv4Addr.ipHostOrder_injective
    rw [range.elements_ipHostOrder, start, stop]
    decide
  rw [returned, groups]

theorem accepted_usable_iff_two_groups : ∃ args,
    parseArguments referenceWinsock
      { command := "producer".toList, mcastIp := "239.5.69.2-239.5.69.3".toList } = .ok args ∧
    Usable args ∧ Startable args := by
  have returned := @parseArguments_twoGroups
    { command := "producer".toList, mcastIp := "239.5.69.2-239.5.69.3".toList } rfl
  have apart : ¬RunsPastItsEnd referenceWinsock "239.5.69.2-239.5.69.3".toList :=
    (runsPastItsEnd_addressRange referenceWinsock_standard (ofOctets 239 5 69 2)
      (ofOctets 239 5 69 3)).not.mpr (by decide)
  exact ⟨_, returned,
    (@accepted_usable_iff _ referenceWinsock_standard _ _ none returned rfl).mpr apart⟩

theorem check_accepts_no_groups : ∃ args,
    parseArguments referenceWinsock
      { command := "producer".toList, mcastIp := "224.0.1.0-224.0.0.255".toList } = .ok args ∧
    check referenceWinsock (some args) = .ok (true, none) ∧
    ¬(Usable args ∧ Startable args) := by
  obtain ⟨range, start, stop, returned⟩ := @parseArguments_addressRange
    { command := "producer".toList, mcastIp := "224.0.1.0-224.0.0.255".toList }
    (ofOctets 224 0 1 0) (ofOctets 224 0 0 255) (by decide) (by decide)
  have none : range.elements = [] := by
    rw [← List.map_eq_nil_iff, range.elements_ipHostOrder, start, stop]
    decide
  rw [none] at returned
  exact ⟨_, returned, rfl, fun usable => usable.1.groups rfl⟩

end RioClient
