import RioClient.AcceptedArgs
import RioClient.ProducerStatistics

/-!
From the text of the command line to the datagrams. `checkRange` compares the ends of
a range byte by byte in the wrong order, but a range that goes past the last
address holds address 0, which the multicast check rejects: what is accepted is in order.
-/

namespace RioClient

open WinsockReference ProducerArgs

section
variable {winsock : Winsock} {range : Range (ipv4Element winsock)}

theorem mem_elements_of_lt {count : Nat}
    (inside : count < (range.till.ipHostOrder + 1 - range.from_.ipHostOrder).toNat) :
    ∃ ip ∈ range.elements, ip.ipHostOrder = range.from_.ipHostOrder + UInt32.ofNat count := by
  have listed : range.from_.ipHostOrder + UInt32.ofNat count ∈
      range.elements.map Ipv4Addr.ipHostOrder := by
    rw [range.elements_ipHostOrder]
    exact List.mem_map_of_mem (List.mem_range.mpr inside)
  exact List.mem_map.mp listed

theorem pos_of_isMulticast {ip : Ipv4Addr} (multicast : ip.IsMulticast) :
    0 < ip.ipHostOrder.toNat := by
  have least := UInt32.le_iff_toNat_le.mp multicast.1
  have first : 0 < (ofOctets 224 0 0 1).toNat := by decide +kernel
  omega

theorem ordered_of_multicast (some : range.elements ≠ [])
    (multicast : ∀ ip ∈ range.elements, ip.IsMulticast) :
    range.from_.ipHostOrder ≤ range.till.ipHostOrder := by
  by_contra reversed
  rw [UInt32.le_iff_toNat_le] at reversed
  have fromBound := range.from_.ipHostOrder.toNat_lt
  have tillBound := range.till.ipHostOrder.toNat_lt
  have steps := List.length_pos_iff.mpr some
  rw [range.length_elements] at steps
  have inside : 2 ^ 32 - range.from_.ipHostOrder.toNat <
      (range.till.ipHostOrder + 1 - range.from_.ipHostOrder).toNat := by
    rw [UInt32.toNat_sub, UInt32.toNat_add, show (1 : UInt32).toNat = 1 from rfl] at steps ⊢
    omega
  -- the walk passes address 0 on its way around
  obtain ⟨ip, member, number⟩ := mem_elements_of_lt inside
  have positive := pos_of_isMulticast (multicast ip member)
  rw [number, UInt32.toNat_add, UInt32.toNat_ofNat'] at positive
  omega

theorem mem_elements_iff (some : range.elements ≠ [])
    (multicast : ∀ ip ∈ range.elements, ip.IsMulticast) (ip : Ipv4Addr) :
    ip ∈ range.elements ↔
      range.from_.ipHostOrder ≤ ip.ipHostOrder ∧ ip.ipHostOrder ≤ range.till.ipHostOrder := by
  have ordered := ordered_of_multicast some multicast
  have steps := List.length_pos_iff.mpr some
  rw [range.length_elements] at steps
  obtain ⟨start, member, number⟩ := mem_elements_of_lt steps
  have positive := pos_of_isMulticast (multicast start member)
  rw [number, show UInt32.ofNat 0 = 0 from rfl, UInt32.add_zero] at positive
  have proper : ¬(range.from_.ipHostOrder = 0 ∧ range.till.ipHostOrder = 4294967295) := by
    rintro ⟨zero, -⟩
    rw [zero] at positive
    exact Nat.lt_irrefl 0 positive
  have numbers := range.elements_toNat ordered proper
  have injective : Function.Injective fun ip : Ipv4Addr => ip.ipHostOrder.toNat :=
    fun _ _ same => Ipv4Addr.ipHostOrder_injective (UInt32.toNat_inj.mp same)
  rw [← List.mem_map_of_injective injective, numbers, List.mem_range'_1,
    UInt32.le_iff_toNat_le, UInt32.le_iff_toNat_le]
  have order := UInt32.le_iff_toNat_le.mp ordered
  omega

end

def groupAddress (port : UInt16) (group : UInt32) : List UInt8 :=
  [2, 0, UInt8.ofNat (port.toNat / 256), UInt8.ofNat port.toNat] ++
    ([3, 2, 1, 0].map fun index => UInt8.ofNat (byteOf group index)) ++ List.replicate 20 0

theorem exists_packet_iff {args : ProducerArgs} {sent : List Send} {wire : List WirePacket}
    (carried : List.Forall₂ (Carried args) sent wire) (address : List UInt8) :
    (∃ packet ∈ wire, packet.address = address) ↔
      ∃ send ∈ sent, ∃ mcastAddr, args.mcastAddrStr[send.address]? = some mcastAddr ∧
        address = groupAddress args.mcastPort mcastAddr.ipHostOrder := by
  induction carried with
  | nil => simp
  | @cons send packet sent wire own others ih =>
      obtain ⟨mcastAddr, found, bytes⟩ := own.address
      rw [bytes_destination] at bytes
      simp only [List.mem_cons, exists_eq_or_imp, ih]
      refine or_congr_left ⟨fun same => ⟨mcastAddr, found, same.symm.trans bytes⟩, ?_⟩
      rintro ⟨other, here, same⟩
      rw [found, Option.some.injEq] at here
      rw [bytes, here, same]
      rfl

/-- Every group of the arguments is sent to from the start, and nothing else ever is. -/
theorem exists_packet_to_iff {winsock : Winsock} (standard : winsock.Standard)
    {args : ProducerArgs} {clock : Nat → UInt64} {now : Int} {first b : ByteProducer}
    (started : ByteProducer.start args winsock clock now = .ok first)
    {events : List ProducerEvent}
    (reached : PartialRun.run (ByteProducer.step args) first events = some b)
    (address : List UInt8) :
    (∃ packet ∈ b.wire, packet.address = address) ↔ ∃ mcastAddr ∈ args.mcastAddrStr,
      address = groupAddress args.mcastPort mcastAddr.ipHostOrder := by
  obtain ⟨p, followed, represents⟩ := (start_represents started).run reached
  rw [exists_packet_iff (Wired.run standard started reached).wire]
  constructor
  · rintro ⟨send, -, mcastAddr, found, bytes⟩
    exact ⟨mcastAddr, List.mem_of_getElem? found, bytes⟩
  · rintro ⟨mcastAddr, member, bytes⟩
    obtain ⟨slot, bound, found⟩ := List.getElem_of_mem member
    have counted := Producer.sentTo_of_dealt (Producer.dealt followed) bound
    rw [represents.session] at counted
    have some : 0 < (b.session.sent.map Send.address).count slot := by
      have positive := args.rate_positive
      have total : (b.session.sent.map Send.address).count slot = _ := counted
      omega
    obtain ⟨send, sent, rfl⟩ := List.mem_map.mp (List.count_pos_iff.mp some)
    exact ⟨send, sent, mcastAddr, List.getElem?_eq_some_iff.mpr ⟨bound, found⟩, bytes⟩

theorem accepted_range {winsock : Winsock} (standard : winsock.Standard) {options : Options}
    {args : Args} {line : Option Text} {first last : UInt32}
    (text : options.mcastIp = addressRange first last) (apart : first ≠ last + 1)
    (returned : parseArguments winsock options = .ok args)
    (accepted : check winsock (some args) = .ok (true, line)) :
    (∃ producer : ProducerArgs, producer.toArgs = args) ∧
      (∀ ip ∈ args.mcastAddrStr, ip.IsMulticast) ∧ first ≤ last ∧
      ∀ ip, ip ∈ args.mcastAddrStr ↔ first ≤ ip.ipHostOrder ∧ ip.ipHostOrder ≤ last := by
  obtain ⟨defaultIpv4, parsed, -⟩ := parseArguments_eq_ok returned
  obtain ⟨_, _, multicast, _, _, rateAccepted⟩ := (check_accepts_iff standard).mp accepted
  rw [text, parseDestinations_addressRange standard] at parsed
  cases made : Range.make (ipv4Element winsock) ⟨htonl first⟩ ⟨htonl last⟩ with
  | error thrown =>
      rw [made] at parsed
      cases parsed
  | ok range =>
      obtain ⟨left, right⟩ := Range.make_eq_ok made
      have start : range.from_.ipHostOrder = first := by
        rw [left]
        exact ntohl_htonl first
      have stop : range.till.ipHostOrder = last := by
        rw [right]
        exact ntohl_htonl last
      have listed : range.elements = args.mcastAddrStr := by
        rw [made] at parsed
        exact Except.ok.inj parsed
      have some : range.elements ≠ [] := by
        rw [Ne, range.elements_eq_nil_iff, ← Ipv4Addr.ipHostOrder_injective.eq_iff,
          Ipv4Addr.ipHostOrder_add, start, stop]
        exact apart
      have few : args.mcastAddrStr.length < 2 ^ 32 := by
        rw [← listed, range.length_elements]
        exact UInt32.toNat_lt _
      obtain ⟨rate, limit⟩ := (rate_accepted_iff few).mp rateAccepted
      rw [← listed] at multicast
      have ordered := ordered_of_multicast some multicast
      have members := mem_elements_iff some multicast
      rw [start, stop] at ordered
      rw [start, stop, listed] at members
      rw [listed] at some multicast
      exact ⟨⟨⟨args, rate, List.length_pos_iff.mpr some, limit⟩, rfl⟩, multicast, ordered, members⟩

/-- A range that is accepted is in order and multicast throughout, the producer can be
started with it, and in every state of every run the addresses sent to are its addresses. -/
theorem accepted_range_on_wire {winsock : Winsock} (standard : winsock.Standard)
    {options : Options} {args : Args} {line : Option Text} {first last : UInt32}
    (text : options.mcastIp = addressRange first last) (apart : first ≠ last + 1)
    (returned : parseArguments winsock options = .ok args)
    (accepted : check winsock (some args) = .ok (true, line)) :
    (ofOctets 224 0 0 1 ≤ first ∧ first ≤ last ∧ last ≤ ofOctets 239 255 255 255) ∧
      ∃ producer : ProducerArgs, producer.toArgs = args ∧ ∀ clock now, ∃ started,
        ByteProducer.start producer winsock clock now = .ok started ∧
        ∀ events b, PartialRun.run (ByteProducer.step producer) started events = some b →
          ∀ address, (∃ packet ∈ b.wire, packet.address = address) ↔
            ∃ group, first ≤ group ∧ group ≤ last ∧
              address = groupAddress args.mcastPort group := by
  obtain ⟨⟨producer, rfl⟩, multicast, ordered, members⟩ :=
    accepted_range standard text apart returned accepted
  have number (group : UInt32) : Ipv4Addr.ipHostOrder ⟨htonl group⟩ = group := ntohl_htonl group
  have listed (group : UInt32) : (⟨htonl group⟩ : Ipv4Addr) ∈ producer.mcastAddrStr ↔
      first ≤ group ∧ group ≤ last := by
    rw [members, number]
  have lowest := multicast _ ((listed first).mpr ⟨UInt32.le_refl first, ordered⟩)
  have highest := multicast _ ((listed last).mpr ⟨ordered, UInt32.le_refl last⟩)
  rw [Ipv4Addr.IsMulticast, number] at lowest highest
  refine ⟨⟨lowest.1, ordered, highest.2⟩, producer, rfl, fun clock now => ?_⟩
  obtain ⟨started, begun⟩ := start_ok standard producer clock now
  refine ⟨started, begun, fun events b reached address => ?_⟩
  rw [exists_packet_to_iff standard begun reached]
  constructor
  · rintro ⟨mcastAddr, member, bytes⟩
    obtain ⟨lower, upper⟩ := (members mcastAddr).mp member
    exact ⟨mcastAddr.ipHostOrder, lower, upper, bytes⟩
  · rintro ⟨group, lower, upper, bytes⟩
    refine ⟨⟨htonl group⟩, (listed group).mpr ⟨lower, upper⟩, ?_⟩
    rw [number]
    exact bytes

theorem accepted_range_on_wire_two_groups : ∃ args, parseArguments referenceWinsock
      { command := "producer".toList, mcastIp := "239.5.69.2-239.5.69.3".toList } = .ok args ∧
    ∃ producer : ProducerArgs, producer.toArgs = args ∧ ∃ started,
      ByteProducer.start producer referenceWinsock (fun _ => 0) 0 = .ok started ∧
      ∃ packet ∈ started.wire,
        packet.address = groupAddress args.mcastPort (ofOctets 239 5 69 3) := by
  have returned := @parseArguments_twoGroups
    { command := "producer".toList, mcastIp := "239.5.69.2-239.5.69.3".toList } rfl
  have text : "239.5.69.2-239.5.69.3".toList =
      addressRange (ofOctets 239 5 69 2) (ofOctets 239 5 69 3) := by decide
  obtain ⟨-, producer, same, starts⟩ := @accepted_range_on_wire _ referenceWinsock_standard
    { command := "producer".toList, mcastIp := "239.5.69.2-239.5.69.3".toList } _ none _ _
    text (by decide) returned rfl
  obtain ⟨started, begun, everyRun⟩ := starts (fun _ => 0) 0
  have sent := (everyRun [] started rfl _).mpr
    ⟨ofOctets 239 5 69 3, by decide, UInt32.le_refl _, rfl⟩
  exact ⟨_, returned, producer, same, started, begun, sent⟩

end RioClient
