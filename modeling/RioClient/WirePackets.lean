import RioClient.ProducerNotify
import RioClient.ProducerRefinement
import RioClient.ProducerSequence
import RioClient.WinsockReference

/-!
What the producer puts on the wire, byte for byte: where the destinations lie in
the address buffer, and what the packets hold outside the two stamped members.
-/

namespace RioClient

open FlatMemory ByteFields ProducerArgs

def Args.destination (args : Args) (mcastAddr : Ipv4Addr) : SockaddrInet :=
  ⟨afInet, htons args.mcastPort, mcastAddr.ipBe⟩

variable {winsock : Winsock}

theorem inetPton_str (standard : winsock.Standard) (mcastAddr : Ipv4Addr) :
    winsock.inetPton (cStr (mcastAddr.str winsock)) = some mcastAddr.ipBe := by
  rw [Ipv4Addr.str, standard.ntop, cStr_dottedQuad]
  exact (standard.pton _ _).mpr rfl

/-- Each destination lies in its own window and the rest of the window is left alone. -/
theorem initMcAddrDescriptors_ok (standard : winsock.Standard) (args : Args)
    {groups : List Ipv4Addr} {offset : UInt32} {buffer : Memory UInt8}
    (fits : offset.toNat + 28 * groups.length < 2 ^ 32) :
    ∃ after, initMcAddrDescriptors winsock args.mcastPort groups offset buffer = .ok after ∧
      (∀ start length, start + length ≤ offset.toNat →
        window after start length = window buffer start length) ∧
      ∀ group mcastAddr, groups[group]? = some mcastAddr →
        window after (offset.toNat + 28 * group) 28 = (args.destination mcastAddr).bytes ++
          window buffer (offset.toNat + 28 * group + 8) 20 := by
  induction groups generalizing offset buffer with
  | nil => exact ⟨buffer, rfl, fun _ _ _ => rfl, fun _ _ found => nomatch found⟩
  | cons mcastAddr groups ih =>
      rw [List.length_cons] at fits
      have size : addrSize.toNat = 28 := rfl
      have record : SockaddrInet.size = 8 := rfl
      have advanced : (offset + addrSize).toNat = offset.toNat + 28 := by
        rw [UInt32.toNat_add, size]
        omega
      have written := SockaddrInet.window_stores buffer offset.toNat (args.destination mcastAddr)
      have apart (start length : Nat) := @SockaddrInet.window_stores_outside buffer offset.toNat
        start length afInet.toNat (htons args.mcastPort).toNat mcastAddr.ipBe.toNat
      simp only [initMcAddrDescriptors, inetPton_str standard]
      simp only [Args.destination] at written
      obtain ⟨after, filled, before, windows⟩ := @ih (offset + addrSize)
        (SockaddrInet.sinAddrField.store (SockaddrInet.sinPortField.store
          (SockaddrInet.sinFamilyField.store buffer offset.toNat afInet.toNat) offset.toNat
          (htons args.mcastPort).toNat) offset.toNat mcastAddr.ipBe.toNat) (by omega)
      refine ⟨after, filled, ?_, ?_⟩
      · intro start length below
        rw [before start length (by omega), apart start length (by omega)]
      · intro group other found
        cases group with
        | zero =>
            rw [List.getElem?_cons_zero, Option.some.injEq] at found
            subst found
            rw [Nat.mul_zero, Nat.add_zero, before _ _ (by omega), show 28 = 8 + 20 from rfl,
              window_add, apart (offset.toNat + 8) 20 (by omega)]
            exact congrArg (· ++ window buffer (offset.toNat + 8) 20) written
        | succ group =>
            rw [List.getElem?_cons_succ] at found
            have here := windows group other found
            rw [advanced] at here
            rw [show offset.toNat + 28 * (group + 1) = offset.toNat + 28 + 28 * group by omega,
              here, apart _ _ (by omega)]

def Framed (count : Nat) (Good : Nat → ProtocolHeader → Prop) (buffer : Memory UInt8) : Prop :=
  ∀ packet < count, Good packet (ProtocolHeader.read buffer (packetOffset packet).toNat) ∧
    window buffer ((packetOffset packet).toNat + ProtocolHeader.size) 80 = List.replicate 80 0

theorem Framed.update {count packet : Nat} {Good Better : Nat → ProtocolHeader → Prop}
    {buffer after : Memory UInt8} (framed : Framed count Good buffer) (few : count ≤ 1000000)
    (here : Better packet (ProtocolHeader.read after (packetOffset packet).toNat))
    (elsewhere : ∀ start length, start + length ≤ (packetOffset packet).toNat ∨
        (packetOffset packet).toNat + ProtocolHeader.size ≤ start →
      window after start length = window buffer start length)
    (inside : packet < count)
    (kept : ∀ other header, other ≠ packet → Good other header → Better other header) :
    Framed count Better after := by
  intro other otherInside
  have position : (packetOffset packet).toNat = 100 * packet := toNat_packetOffset (by omega)
  have otherPosition : (packetOffset other).toNat = 100 * other := toNat_packetOffset (by omega)
  have size : ProtocolHeader.size = 20 := rfl
  obtain ⟨good, blank⟩ := framed other otherInside
  constructor
  · by_cases same : other = packet
    · subst same
      exact here
    · have unread := elsewhere (packetOffset other).toNat ProtocolHeader.size (by omega)
      rw [ProtocolHeader.read_congr unread]
      exact kept other _ same good
  · rw [elsewhere _ _ (by omega)]
    exact blank

/-- The members that `PostFirstSend` sets once and the loop never changes. -/
def Template (header : ProtocolHeader) : Prop :=
  header.token = 490 ∧ header.cmdType = 0 ∧ header.tag = 0

theorem Template.eq {header : ProtocolHeader} (template : Template header) :
    header = { token := 490, seq := header.seq, timestamp := header.timestamp } := by
  cases header
  obtain ⟨rfl, rfl, rfl⟩ := template
  rfl

theorem Framed.fill {total : Nat} (few : total ≤ 1000000) (clock : Nat → UInt64)
    {count i : Nat} {buffer : Memory UInt8} (bound : i + count ≤ total)
    (framed : Framed total (fun packet header => header.tag = 0 ∧
      (packet < i → Template header ∧ header.timestamp = clock packet)) buffer) :
    Framed total (fun packet header => header.tag = 0 ∧
      (packet < i + count → Template header ∧ header.timestamp = clock packet))
      (fillPacketBytes clock count i (packetOffset i) buffer) := by
  induction count generalizing i buffer with
  | zero => exact framed
  | succ count ih =>
      have inside : i < total := by omega
      obtain ⟨good, -⟩ := framed i inside
      simp only [fillPacketBytes]
      rw [← packetOffset_succ, show i + (count + 1) = i + 1 + count by omega]
      apply ih (by omega)
      refine framed.update few ?_ ?_ inside ?_
      · rw [ProtocolHeader.read_stamp, ProtocolHeader.read_prepared]
        exact ⟨good.1, fun _ => ⟨⟨rfl, rfl, good.1⟩, rfl⟩⟩
      · intro start length outside
        rw [ProtocolHeader.window_stamp_outside _ _ outside,
          ProtocolHeader.window_prepared_outside outside]
      · intro other header apart held
        exact ⟨held.1, fun before => held.2 (by omega)⟩

/-- The packets as `PostFirstSend` leaves them, each stamped once for all groups. -/
theorem framed_filled {total : Nat} (few : total ≤ 1000000) (clock : Nat → UInt64) :
    Framed total (fun packet header => Template header ∧ header.timestamp = clock packet)
      (fillPacketBytes clock total 0 0 fun _ => 0) := by
  have blank : Framed total (fun packet header => header.tag = 0 ∧
      (packet < 0 → Template header ∧ header.timestamp = clock packet)) (fun _ => 0) := by
    intro packet _
    rw [ProtocolHeader.read_zeroes, window_const]
    exact ⟨⟨rfl, fun before => absurd before (Nat.not_lt_zero _)⟩, rfl⟩
  have prepared := blank.fill few clock (Nat.le_of_eq (Nat.zero_add total))
  intro packet inside
  obtain ⟨header, zeroes⟩ := prepared packet inside
  exact ⟨header.2 (by omega), zeroes⟩

structure Carried (args : ProducerArgs) (send : Send) (packet : WirePacket) : Prop where
  payload : ∃ timestamp, packet.payload =
    ProtocolHeader.bytes { token := 490, seq := send.seq, timestamp } ++ List.replicate 80 0
  address : ∃ mcastAddr, args.mcastAddrStr[send.address]? = some mcastAddr ∧
    packet.address = (args.destination mcastAddr).bytes ++ List.replicate 20 0

structure Wired (args : ProducerArgs) (b : ByteProducer) : Prop where
  wire : List.Forall₂ (Carried args) b.session.sent b.wire
  packets : Framed args.rate (fun _ => Template) b.payload
  groups : ∀ group mcastAddr, args.mcastAddrStr[group]? = some mcastAddr →
    window b.addresses (28 * group) 28 =
      (args.destination mcastAddr).bytes ++ List.replicate 20 0

variable {args : ProducerArgs} {b : ByteProducer}

theorem namedBytes_rioBuffDescr (buffer : Memory UInt8) {descriptor : Nat}
    (bound : descriptor < args.maxOutstandingSend) :
    namedBytes buffer args.rioBuffDescr descriptor =
      window buffer (packetOffset (descriptor / args.numberOfMcGroups)).toNat 100 := by
  have packetBound : descriptor / args.numberOfMcGroups < args.rate :=
    (Nat.div_lt_iff_lt_mul args.numberOfMcGroups_pos).mpr bound
  rw [namedBytes, ProducerArgs.rioBuffDescr, getElem?_flatMap_replicate args.numberOfMcGroups_pos,
    getElem?_fillDescriptors packetBound, UInt32.zero_add]
  rfl

theorem header_namedBytes (buffer : Memory UInt8) (address : List UInt8) {descriptor : Nat}
    (bound : descriptor < args.maxOutstandingSend) :
    WirePacket.header ⟨namedBytes buffer args.rioBuffDescr descriptor, address⟩ =
      ProtocolHeader.read buffer (packetOffset (descriptor / args.numberOfMcGroups)).toNat := by
  apply ProtocolHeader.read_congr
  dsimp only
  rw [namedBytes_rioBuffDescr buffer bound, window_overwrite (by simp; decide)]
  rw [show 100 = ProtocolHeader.size + 80 from rfl, window_add]
  exact List.take_left' window_length

theorem groups_le (args : ProducerArgs) : args.numberOfMcGroups ≤ 1000000 :=
  Nat.le_trans (Nat.le_of_dvd args.maxOutstandingSend_pos args.numberOfMcGroups_dvd)
    args.maxOutstandingSend_le

theorem toNat_mcAddrDescr {group : Nat} (inside : group < args.numberOfMcGroups) :
    (UInt32.ofNat group * addrSize).toNat = 28 * group := by
  have few := groups_le args
  have size : addrSize.toNat = 28 := rfl
  rw [toNat_ofNat_mul (by rw [size]; omega), size, Nat.mul_comm]

theorem namedBytes_mcAddrDescr (buffer : Memory UInt8) {group : Nat}
    (inside : group < args.numberOfMcGroups) :
    namedBytes buffer args.mcAddrDescr group = window buffer (28 * group) 28 := by
  rw [namedBytes, ProducerArgs.mcAddrDescr, getElem?_fillDescriptors inside, UInt32.zero_add]
  simp only [toNat_mcAddrDescr inside]
  rfl

theorem Wired.send (wired : Wired args b) {descriptor address : Nat}
    (bound : descriptor < args.maxOutstandingSend) (inside : address < args.numberOfMcGroups) :
    Wired args (b.send args descriptor address) := by
  have packetBound : descriptor / args.numberOfMcGroups < args.rate :=
    (Nat.div_lt_iff_lt_mul args.numberOfMcGroups_pos).mpr bound
  refine ⟨?_, wired.packets, wired.groups⟩
  obtain ⟨template, blank⟩ := wired.packets _ packetBound
  refine List.rel_append wired.wire (.cons ⟨?_, ?_⟩ .nil)
  · rw [namedBytes_rioBuffDescr b.payload bound]
    refine ⟨(ProtocolHeader.read b.payload
      (packetOffset (descriptor / args.numberOfMcGroups)).toNat).timestamp, ?_⟩
    rw [show 100 = ProtocolHeader.size + 80 from rfl, window_add, blank,
      ProtocolHeader.window_eq_bytes]
    simp only [ByteProducer.cast, offsetOf_rioBuffDescr args bound]
    rw [← template.eq]
  · have found : args.mcastAddrStr[address]? = some args.mcastAddrStr[address] :=
      List.getElem?_eq_getElem inside
    refine ⟨args.mcastAddrStr[address], found, ?_⟩
    rw [namedBytes_mcAddrDescr b.addresses inside, wired.groups address _ found]

theorem Wired.sends (wired : Wired args b) {indices : List Nat}
    (bounds : ∀ i ∈ indices, i < args.maxOutstandingSend) :
    Wired args (indices.foldl (fun b i => b.send args i (i % args.numberOfMcGroups)) b) := by
  induction indices generalizing b with
  | nil => exact wired
  | cons i indices ih =>
      have sent := wired.send (bounds i List.mem_cons_self)
        (Nat.mod_lt i args.numberOfMcGroups_pos)
      exact ih sent fun later member => bounds later (List.mem_cons_of_mem _ member)

variable {clock : Nat → UInt64} {now : Int} {events : List ProducerEvent} {first : ByteProducer}

theorem start_wired (standard : winsock.Standard)
    (started : ByteProducer.start args winsock clock now = .ok first) : Wired args first := by
  have few := groups_le args
  have length : args.mcastAddrStr.length = args.numberOfMcGroups := rfl
  obtain ⟨addresses, filled, -, windows⟩ := @initMcAddrDescriptors_ok winsock standard args.toArgs
    args.mcastAddrStr 0 (fun _ => 0) (by rw [length, show (0 : UInt32).toNat = 0 from rfl]; omega)
  simp only [ByteProducer.start, filled, Except.ok.injEq] at started
  subst started
  have beginning : Wired args
      { session :=
          { timing := Timing.setStart {} now
            groupStats := initGroupStats args.mcastAddrStr }
        payload := fillPacketBytes clock args.rate 0 0 fun _ => 0
        addresses } := by
    refine ⟨.nil, ?_, ?_⟩
    · intro packet inside
      obtain ⟨header, zeroes⟩ := framed_filled args.rate_le clock packet inside
      exact ⟨header.1, zeroes⟩
    · intro group mcastAddr found
      have here := windows group mcastAddr found
      rw [window_const, show (0 : UInt32).toNat = 0 from rfl, Nat.zero_add] at here
      exact here
  have sent := beginning.sends fun i member => List.mem_range.mp member
  exact ⟨sent.wire, sent.packets, sent.groups⟩

theorem ByteProducer.sends_addresses (indices : List Nat) (b : ByteProducer) :
    (indices.foldl (fun b i => b.send args i (i % args.numberOfMcGroups)) b).addresses =
      b.addresses := by
  induction indices generalizing b with
  | nil => rfl
  | cons i indices ih => exact ih _

theorem start_represents (started : ByteProducer.start args winsock clock now = .ok first) :
    Represents args first (Producer.start args
      (fun offset => SockaddrInet.read first.addresses offset.toNat) clock now) := by
  simp only [ByteProducer.start] at started
  split at started
  · cases started
  · rename_i addresses filled
    cases started
    have blank : HoldsPackets args.rate (fun _ => {}) (fun _ => 0) :=
      fun packet _ => (ProtocolHeader.read_zeroes _).symm
    have prepared := blank.fill args.rate_le clock (Nat.le_of_eq (Nat.zero_add args.rate))
    rw [show packetOffset 0 = 0 from rfl] at prepared
    let before : ByteProducer :=
      { session :=
          { timing := Timing.setStart {} now
            groupStats := initGroupStats args.mcastAddrStr }
        payload := fillPacketBytes clock args.rate 0 0 fun _ => 0
        addresses }
    have beginning := @Represents.intro args before _
      (fun offset => SockaddrInet.read addresses offset.toNat) prepared (fun _ _ => rfl)
    have sent := @Represents.sends args before _ beginning (List.range args.maxOutstandingSend)
    have kept :
        (ByteProducer.postFirstSend args clock { before with payload := fun _ => 0 }).addresses =
          addresses :=
      ByteProducer.sends_addresses (List.range args.maxOutstandingSend) before
    have numbered := sent.changed
      (fun p => { p with sequenceNumber := UInt64.ofNat args.rate }) fun _ _ _ => rfl
    rw [kept]
    exact numbered

theorem Wired.stamp (wired : Wired args b) {packet : Nat} (inside : packet < args.rate)
    (seq timestamp : UInt64) :
    Wired args { b with
      payload := ProtocolHeader.timestampField.store
        (ProtocolHeader.seqField.store b.payload (packetOffset packet).toNat seq.toNat)
        (packetOffset packet).toNat timestamp.toNat } := by
  obtain ⟨⟨token, cmdType, tag⟩, -⟩ := wired.packets packet inside
  refine ⟨wired.wire, wired.packets.update args.rate_le ?_ ?_ inside ?_, wired.groups⟩
  · rw [ProtocolHeader.read_stamp]
    exact ⟨token, cmdType, tag⟩
  · intro start length outside
    exact ProtocolHeader.window_stamp_outside _ _ outside
  · exact fun _ _ _ good => good

theorem Wired.handleNext (wired : Wired args b) {i : Nat} {result : Send} {rest : List Send}
    (handling : b.session.control = .handling i (result :: rest))
    (bound : result.descriptor < args.maxOutstandingSend) (now : UInt64) {next : ByteProducer}
    (taken : b.handleNext args now = some next) : Wired args next := by
  have offset := offsetOf_rioBuffDescr args bound
  have inside : result.descriptor / args.numberOfMcGroups < args.rate :=
    (Nat.div_lt_iff_lt_mul args.numberOfMcGroups_pos).mpr bound
  have stamped := wired.stamp inside b.session.sequenceNumber now
  rw [← offset] at stamped
  have sent := stamped.send bound (Nat.mod_lt i args.numberOfMcGroups_pos)
  simp only [ByteProducer.handleNext, handling, Option.some.injEq] at taken
  subst taken
  exact ⟨sent.wire, sent.packets, sent.groups⟩

theorem handling_of_handleNext {p : Producer} (represents : Represents args b p)
    (held : p.sends.held.Perm (List.range args.maxOutstandingSend)) {now : UInt64}
    {next : ByteProducer} (taken : b.handleNext args now = some next) :
    ∃ i result rest, b.session.control = .handling i (result :: rest) ∧
      result.descriptor < args.maxOutstandingSend := by
  have session := represents.session
  cases handling : b.session.control with
  | handling i results =>
      cases results with
      | nil => simp [ByteProducer.handleNext, handling] at taken
      | cons result rest =>
          have atHand : p.control = .handling i (result :: rest) := by
            rw [session]
            exact handling
          have member : result.descriptor ∈ p.sends.held := by
            simp [SendState.held, Producer.sends, Producer.results, atHand]
          exact ⟨i, result, rest, rfl, List.mem_range.mp (held.mem_iff.mp member)⟩
  | _ => simp [ByteProducer.handleNext, handling] at taken

theorem Wired.step (wired : Wired args b) {p : Producer} (represents : Represents args b p)
    (held : p.sends.held.Perm (List.range args.maxOutstandingSend)) {event : ProducerEvent}
    {next : ByteProducer} (taken : b.step args event = some next) : Wired args next := by
  have others (unsent : ∀ session, b.session.step args event = some session →
      session.sent = b.session.sent)
      (taken : (b.session.step args event).map (fun session => { b with session }) = some next) :
      Wired args next := by
    obtain ⟨session, stepped, rfl⟩ := Option.map_eq_some_iff.mp taken
    refine ⟨?_, wired.packets, wired.groups⟩
    rw [unsent session stepped]
    exact wired.wire
  cases event with
  | handle now =>
      obtain ⟨i, result, rest, handling, bound⟩ := handling_of_handleNext represents held taken
      exact wired.handleNext handling bound now taken
  | complete | shouldStop | notify | completionStatus | dequeue | corruptQueue =>
      refine others ?_ taken
      intro session stepped
      cases Producer.step_cases stepped <;> rfl

theorem Wired.run (standard : winsock.Standard)
    (started : ByteProducer.start args winsock clock now = .ok first)
    (reached : PartialRun.run (ByteProducer.step args) first events = some b) : Wired args b := by
  refine @PartialRun.run_induction _ _ _ first (fun _ b => Wired args b)
    (start_wired standard started) ?_ events b reached
  intro before state event next reachedBefore wired taken
  obtain ⟨p, followed, represents⟩ := (start_represents started).run reachedBefore
  exact wired.step represents (Producer.held_perm followed) taken

def ProducerEvent.stamp : ProducerEvent → Option UInt64
  | .handle now => some now
  | _ => none

/-- The times read for the sends in posting order: `PostFirstSend` reads one for each
packet, which is then sent to every group, and the loop one for each send. -/
def stampings (args : ProducerArgs) (clock : Nat → UInt64) (events : List ProducerEvent) :
    List UInt64 :=
  (List.range args.maxOutstandingSend).map (fun i => clock (i / args.numberOfMcGroups)) ++
    events.filterMap ProducerEvent.stamp

namespace ByteProducer

def timestamps (b : ByteProducer) : List UInt64 :=
  b.wire.map fun packet => packet.header.timestamp

theorem timestamps_send {descriptor : Nat} (bound : descriptor < args.maxOutstandingSend)
    (address : Nat) :
    (b.send args descriptor address).timestamps = b.timestamps ++ [(ProtocolHeader.read b.payload
      (packetOffset (descriptor / args.numberOfMcGroups)).toNat).timestamp] := by
  simp only [timestamps, send, List.map_append, List.map_singleton]
  rw [header_namedBytes b.payload _ bound]

theorem timestamps_sends {indices : List Nat}
    (bounds : ∀ i ∈ indices, i < args.maxOutstandingSend) :
    (indices.foldl (fun b i => b.send args i (i % args.numberOfMcGroups)) b).timestamps =
      b.timestamps ++ indices.map fun i => (ProtocolHeader.read b.payload
        (packetOffset (i / args.numberOfMcGroups)).toNat).timestamp := by
  induction indices generalizing b with
  | nil => exact (List.append_nil _).symm
  | cons i indices ih =>
      rw [List.foldl_cons, ih fun later member => bounds later (List.mem_cons_of_mem _ member),
        timestamps_send (bounds i List.mem_cons_self), List.append_assoc]
      rfl

theorem timestamps_start (started : ByteProducer.start args winsock clock now = .ok first) :
    first.timestamps = stampings args clock [] := by
  simp only [ByteProducer.start] at started
  split at started
  · cases started
  · cases started
    rw [stampings, List.filterMap_nil, List.append_nil]
    refine (timestamps_sends fun i member => List.mem_range.mp member).trans ?_
    refine List.map_congr_left fun i member => ?_
    have inside : i / args.numberOfMcGroups < args.rate :=
      (Nat.div_lt_iff_lt_mul args.numberOfMcGroups_pos).mpr (List.mem_range.mp member)
    exact (framed_filled args.rate_le clock _ inside).1.2

theorem timestamps_handleNext {i : Nat} {result : Send} {rest : List Send}
    (handling : b.session.control = .handling i (result :: rest))
    (bound : result.descriptor < args.maxOutstandingSend) (now : UInt64) {next : ByteProducer}
    (taken : b.handleNext args now = some next) : next.timestamps = b.timestamps ++ [now] := by
  simp only [handleNext, handling, Option.some.injEq] at taken
  subst taken
  refine (timestamps_send bound _).trans ?_
  rw [offsetOf_rioBuffDescr args bound, ProtocolHeader.read_stamp]
  rfl

theorem timestamps_step {p : Producer} (represents : Represents args b p)
    (held : p.sends.held.Perm (List.range args.maxOutstandingSend)) {event : ProducerEvent}
    {next : ByteProducer} (taken : b.step args event = some next) :
    next.timestamps = b.timestamps ++ event.stamp.toList := by
  have others
      (taken : (b.session.step args event).map (fun session => { b with session }) = some next) :
      next.timestamps = b.timestamps := by
    obtain ⟨session, -, rfl⟩ := Option.map_eq_some_iff.mp taken
    rfl
  cases event with
  | handle now =>
      obtain ⟨i, result, rest, handling, bound⟩ := handling_of_handleNext represents held taken
      exact timestamps_handleNext handling bound now taken
  | complete | shouldStop | notify | completionStatus | dequeue | corruptQueue =>
      exact (others taken).trans (List.append_nil _).symm

theorem timestamps_run (started : ByteProducer.start args winsock clock now = .ok first)
    (reached : PartialRun.run (ByteProducer.step args) first events = some b) :
    b.timestamps = stampings args clock events := by
  refine @PartialRun.run_induction _ _ _ first
    (fun events b => b.timestamps = stampings args clock events)
    (timestamps_start started) ?_ events b reached
  intro before state event next reachedBefore stamped taken
  obtain ⟨p, followed, represents⟩ := (start_represents started).run reachedBefore
  rw [timestamps_step represents (Producer.held_perm followed) taken, stamped, stampings,
    stampings, List.filterMap_append, List.append_assoc]
  cases event <;> rfl

end ByteProducer

theorem start_ok (standard : winsock.Standard) (args : ProducerArgs) (clock : Nat → UInt64)
    (now : Int) : ∃ first, ByteProducer.start args winsock clock now = .ok first := by
  have few := groups_le args
  have length : args.mcastAddrStr.length = args.numberOfMcGroups := rfl
  obtain ⟨addresses, filled, -⟩ := @initMcAddrDescriptors_ok winsock standard args.toArgs
    args.mcastAddrStr 0 (fun _ => 0) (by rw [length, show (0 : UInt32).toNat = 0 from rfl]; omega)
  unfold ByteProducer.start
  rw [filled]
  exact ⟨_, rfl⟩

theorem start_destination (standard : winsock.Standard)
    (started : ByteProducer.start args winsock clock now = .ok first) {group : Nat}
    {mcastAddr : Ipv4Addr} (found : args.mcastAddrStr[group]? = some mcastAddr) :
    SockaddrInet.read first.addresses (offsetOf args.mcAddrDescr group).toNat =
      args.destination mcastAddr := by
  have inside : group < args.numberOfMcGroups := (List.getElem?_eq_some_iff.mp found).1
  have bytes := (start_wired standard started).groups group mcastAddr found
  rw [show 28 = SockaddrInet.size + 20 from rfl, window_add] at bytes
  have here := (List.append_inj bytes (by rw [window_length]; rfl)).1
  rw [ProducerArgs.mcAddrDescr, offsetOf_fillDescriptors inside, UInt32.zero_add]
  rw [toNat_mcAddrDescr inside]
  exact SockaddrInet.read_of_window here

/-- The producer on bytes starts, with the configured groups in its address buffer,
and from there takes the same steps as the producer on records. -/
theorem byteProducer_bisimulates (standard : winsock.Standard) (args : ProducerArgs)
    (clock : Nat → UInt64) (now : Int) :
    ∃ first mcAddrBuff, ByteProducer.start args winsock clock now = .ok first ∧
      (∀ group mcastAddr, args.mcastAddrStr[group]? = some mcastAddr →
        mcAddrBuff (offsetOf args.mcAddrDescr group) = args.destination mcastAddr) ∧
      (∀ events b, PartialRun.run (ByteProducer.step args) first events = some b →
        ∃ p, PartialRun.run (Producer.step args) (Producer.start args mcAddrBuff clock now)
          events = some p ∧ Represents args b p) ∧
      ∀ events p, PartialRun.run (Producer.step args) (Producer.start args mcAddrBuff clock now)
          events = some p →
        ∃ b, PartialRun.run (ByteProducer.step args) first events = some b ∧
          Represents args b p := by
  obtain ⟨first, started⟩ := start_ok standard args clock now
  have represents := start_represents started
  refine ⟨first, _, started, ?_, fun _ _ reached => represents.run reached,
    fun _ _ reached => represents.run_back reached⟩
  exact fun group mcastAddr found => start_destination standard started found

theorem byteProducer_bisimulates_two_groups :
    ∃ first mcAddrBuff, ByteProducer.start twoGroupArgs referenceWinsock (fun _ => 5) 0 =
        .ok first ∧
      ∃ b p, PartialRun.run (ByteProducer.step twoGroupArgs) first
          ([.complete 1, .complete 0] ++ nextBatch 2 ++ [.handle 7, .handle 9]) = some b ∧
        PartialRun.run (Producer.step twoGroupArgs)
          (Producer.start twoGroupArgs mcAddrBuff (fun _ => 5) 0)
          ([.complete 1, .complete 0] ++ nextBatch 2 ++ [.handle 7, .handle 9]) = some p ∧
        Represents twoGroupArgs b p := by
  obtain ⟨first, mcAddrBuff, started, -, -, back⟩ :=
    byteProducer_bisimulates referenceWinsock_standard twoGroupArgs (fun _ => 5) 0
  obtain ⟨p, reached⟩ : ∃ p, PartialRun.run (Producer.step twoGroupArgs)
      (Producer.start twoGroupArgs mcAddrBuff (fun _ => 5) 0)
      ([.complete 1, .complete 0] ++ nextBatch 2 ++ [.handle 7, .handle 9]) = some p := ⟨_, rfl⟩
  obtain ⟨b, followed, represents⟩ := back _ p reached
  exact ⟨first, mcAddrBuff, started, b, p, followed, reached, represents⟩

theorem header_of_payload {packet : WirePacket} {header : ProtocolHeader} {rest : List UInt8}
    (payload : packet.payload = header.bytes ++ rest) : packet.header = header := by
  have size : header.bytes.length = ProtocolHeader.size := rfl
  apply ProtocolHeader.read_of_window
  rw [payload, window_overwrite (by rw [List.length_append]; omega)]
  exact List.take_left' size

theorem bytes_destination (args : Args) (mcastAddr : Ipv4Addr) :
    (args.destination mcastAddr).bytes =
      [2, 0, UInt8.ofNat (args.mcastPort.toNat / 256), UInt8.ofNat args.mcastPort.toNat] ++
        [3, 2, 1, 0].map fun index => UInt8.ofNat (byteOf mcastAddr.ipHostOrder index) := by
  have family : littleEndian 2 afInet.toNat = [2, 0] := rfl
  simp only [SockaddrInet.bytes, SockaddrInet.numbers, packed_cons, packed_nil, Args.destination,
    family, SockaddrInet.littleEndian_htons, SockaddrInet.littleEndian_ipBe, List.append_nil,
    List.cons_append, List.nil_append, List.map_cons, List.map_nil]
  rfl

theorem bytes_template (seq timestamp : UInt64) :
    ProtocolHeader.bytes { token := 490, seq, timestamp } =
      [234, 1, 0, 0] ++ littleEndian 8 seq.toNat ++ littleEndian 8 timestamp.toNat := by
  have token : littleEndian 2 (490 : UInt16).toNat = [234, 1] := rfl
  have zero : littleEndian 1 (0 : UInt8).toNat = [0] := rfl
  simp only [ProtocolHeader.bytes, ProtocolHeader.numbers, packed_cons, packed_nil, token, zero,
    List.append_nil, List.cons_append, List.nil_append]

/-- Send number `t` as it is handed to `RIOSendEx`: its round as the sequence number,
the time read for it, everything else fixed, and a configured group as its destination. -/
theorem wire_format (standard : winsock.Standard)
    (started : ByteProducer.start args winsock clock now = .ok first)
    (reached : PartialRun.run (ByteProducer.step args) first events = some b) :
    b.wire.length = b.session.sent.length ∧
    ∀ t packet, b.wire[t]? = some packet →
      (∃ timestamp : UInt64, (stampings args clock events)[t]? = some timestamp ∧
        packet.payload =
          [234, 1, 0, 0] ++ littleEndian 8 (t / args.numberOfMcGroups % 2 ^ 64) ++
            littleEndian 8 timestamp.toNat ++ List.replicate 80 0) ∧
      ∃ send mcastAddr, b.session.sent[t]? = some send ∧
        args.mcastAddrStr[send.address]? = some mcastAddr ∧
        packet.address =
          [2, 0, UInt8.ofNat (args.mcastPort.toNat / 256), UInt8.ofNat args.mcastPort.toNat] ++
            ([3, 2, 1, 0].map fun index => UInt8.ofNat (byteOf mcastAddr.ipHostOrder index)) ++
              List.replicate 20 0 := by
  have wired := Wired.run standard started reached
  obtain ⟨p, followed, represents⟩ := (start_represents started).run reached
  have sent : p.sends.sent = b.session.sent := by
    rw [represents.session]
    rfl
  refine ⟨wired.wire.length_eq.symm, ?_⟩
  intro t packet found
  obtain ⟨inside, rfl⟩ := List.getElem?_eq_some_iff.mp found
  have sentInside : t < b.session.sent.length := by
    rw [wired.wire.length_eq]
    exact inside
  have sentFound := List.getElem?_eq_getElem sentInside
  have carried : Carried args b.session.sent[t] b.wire[t] := wired.wire.get sentInside inside
  obtain ⟨⟨timestamp, payload⟩, mcastAddr, group, address⟩ := carried
  have recorded : p.sends.sent[t]? = some b.session.sent[t] := by
    rw [sent]
    exact sentFound
  have seq := (Producer.stamped followed).seq_eq recorded
  have read : (stampings args clock events)[t]? = some timestamp := by
    rw [← ByteProducer.timestamps_run started reached, ByteProducer.timestamps, List.getElem?_map,
      found, Option.map_some, header_of_payload payload]
  refine ⟨⟨timestamp, read, ?_⟩, b.session.sent[t], mcastAddr, sentFound, group, ?_⟩
  · rw [payload, bytes_template, seq, UInt64.toNat_ofNat']
  · rw [address, bytes_destination]

/-- The second send of the second round, stamped when its completion is handled. -/
theorem wire_format_two_groups :
    ∃ first b, ByteProducer.start twoGroupArgs referenceWinsock (fun _ => 5) 0 = .ok first ∧
      PartialRun.run (ByteProducer.step twoGroupArgs) first
        ([.complete 0, .complete 0] ++ nextBatch 2 ++ [.handle 7, .handle 9]) = some b ∧
      b.wire.length = 4 ∧
      ∃ packet, b.wire[3]? = some packet ∧ packet.payload =
        [234, 1, 0, 0] ++ littleEndian 8 1 ++ littleEndian 8 9 ++ List.replicate 80 0 := by
  obtain ⟨first, started⟩ := start_ok referenceWinsock_standard twoGroupArgs (fun _ => 5) 0
  obtain ⟨p, reached, count⟩ : ∃ p, PartialRun.run (Producer.step twoGroupArgs)
      (Producer.start twoGroupArgs
        (fun offset => SockaddrInet.read first.addresses offset.toNat) (fun _ => 5) 0)
      ([.complete 0, .complete 0] ++ nextBatch 2 ++ [.handle 7, .handle 9]) = some p ∧
      p.sent.length = 4 := ⟨_, rfl, rfl⟩
  obtain ⟨b, followed, represents⟩ := (start_represents started).run_back reached
  obtain ⟨length, format⟩ := wire_format referenceWinsock_standard started followed
  rw [represents.session] at count
  have four : b.wire.length = 4 := length.trans count
  have found : b.wire[3]? = some b.wire[3] := List.getElem?_eq_getElem (by omega)
  obtain ⟨⟨timestamp, read, payload⟩, -⟩ := format 3 _ found
  have nine : some 9 = some timestamp := read
  cases nine
  exact ⟨first, b, started, followed, four, b.wire[3], found, payload⟩

end RioClient
