import RioClient.ConsumerBytes
import RioClient.GroupTotals

/-!
From the bytes that arrive to the group statistics: completions are handled in
the order in which the datagrams came, so the statistics are a function of the
bytes of the datagrams handled so far.
-/

namespace RioClient

def FifoEvent.arrival : FifoEvent → Option Datagram
  | .arrive datagram => some datagram
  | .handle => none

def ConsumerEvent.arrival : ConsumerEvent → Option Datagram
  | .datagram arrived => some arrived
  | _ => none

def WirePacket.groupUpdate (packet : WirePacket) : GroupUpdate :=
  (packet.destination, ⟨expectedDataSize.toUInt64, packet.header⟩)

namespace ReceiveFifo

variable {maxOutstandingReceive : UInt32} {fifo next : ReceiveFifo}

def datagrams (fifo : ReceiveFifo) : List Datagram :=
  (fifo.handled ++ fifo.completed).map Completion.datagram

theorem datagrams_step {event : FifoEvent}
    (taken : fifo.step maxOutstandingReceive event = some next) :
    next.datagrams = fifo.datagrams ++ event.arrival.toList := by
  cases event with
  | arrive datagram =>
      simp only [step] at taken
      split at taken
      · simp at taken
      · cases taken
        simp [datagrams, arrived, FifoEvent.arrival]
  | handle =>
      simp only [step] at taken
      split at taken
      · simp at taken
      · rename_i result rest completedEq
        cases taken
        split
        · simp [datagrams, credited, completedEq, FifoEvent.arrival]
        · simp [datagrams, ignored, completedEq, FifoEvent.arrival]

theorem datagrams_run {trace : List FifoEvent}
    (reached : PartialRun.run (step maxOutstandingReceive) fifo trace = some next) :
    next.datagrams = fifo.datagrams ++ trace.filterMap FifoEvent.arrival := by
  induction trace generalizing fifo with
  | nil =>
      simp only [PartialRun.run_nil, Option.some.injEq] at reached
      rw [reached, List.filterMap_nil, List.append_nil]
  | cons event rest ih =>
      obtain ⟨middle, taken, onwards⟩ := Option.bind_eq_some_iff.mp reached
      rw [ih onwards, datagrams_step taken, List.append_assoc]
      congr 1
      cases arrived : event.arrival <;> simp [arrived]

end ReceiveFifo

namespace Consumer

variable {args : Args} {maxOutstandingReceive : UInt32} {c : Consumer} {now : Int}

theorem arrival_fifoEvents (events : List ConsumerEvent) :
    (events.flatMap fifoEvents).filterMap FifoEvent.arrival =
      events.filterMap ConsumerEvent.arrival := by
  induction events with
  | nil => rfl
  | cons event rest ih =>
      rw [List.flatMap_cons, List.filterMap_append, ih]
      cases event <;> rfl

/-- Nothing that arrives is left out, doubled or put in another order. -/
theorem arrivals {events : List ConsumerEvent}
    (reached : PartialRun.run (step args maxOutstandingReceive)
      (start args maxOutstandingReceive now) events = some c) :
    (c.handled ++ c.completed).map Completion.datagram =
      events.filterMap ConsumerEvent.arrival := by
  have arrived := ReceiveFifo.datagrams_run (fifo_run reached)
  rw [arrival_fifoEvents] at arrived
  have none : (start args maxOutstandingReceive now).fifo.datagrams = [] := by
    simp [ReceiveFifo.datagrams, fifo, completed, results, start]
  rwa [none, List.nil_append] at arrived

theorem handled_arrivals {events : List ConsumerEvent}
    (reached : PartialRun.run (step args maxOutstandingReceive)
      (start args maxOutstandingReceive now) events = some c) :
    c.handled.map Completion.datagram =
      (events.filterMap ConsumerEvent.arrival).take c.handled.length := by
  rw [← arrivals reached, List.map_append, List.take_left' (by rw [List.length_map])]

end Consumer

namespace ByteConsumer

variable {args : Args} {maxOutstandingReceive : UInt32} {b : ByteConsumer} {now : Int}
  {events : List ByteConsumerEvent}

theorem translated_arrivals {labels : List ConsumerEvent}
    (translated : List.Forall₂ Translates events labels) :
    List.Forall₂ Describes (events.filterMap ByteConsumerEvent.arrival)
      (labels.filterMap ConsumerEvent.arrival) := by
  induction translated with
  | nil => exact .nil
  | @cons event label events labels same _ ih =>
      cases same with
      | datagram describes => exact .cons describes ih
      | loop loop =>
          have none : label.arrival = none := by
            cases label with
            | datagram datagram => exact absurd rfl (loop datagram)
            | _ => rfl
          rw [List.filterMap_cons_none rfl, List.filterMap_cons_none none]
          exact ih

theorem Describes.expected {packet : WirePacket} {datagram : Datagram}
    (describes : Describes packet datagram) : datagram.expected = packet.full := by
  rw [Datagram.expected, WirePacket.full, decide_eq_decide, ← UInt32.toNat_inj,
    describes.bytesTransferred]

theorem described_statistics {packets : List WirePacket} {datagrams : List Datagram}
    (described : List.Forall₂ Describes packets datagrams) (stats : McGroupStatsMap) :
    (datagrams.filter Datagram.expected).foldl (fun stats datagram =>
        groupStatsUpdate stats datagram.destination expectedDataSize.toUInt64 datagram.header)
        stats =
      receiveAll stats ((packets.filter WirePacket.full).map WirePacket.groupUpdate) := by
  induction described generalizing stats with
  | nil => rfl
  | @cons packet datagram packets datagrams describes _ ih =>
      have same := describes.expected
      by_cases full : packet.full = true
      · rw [List.filter_cons_of_pos full, List.filter_cons_of_pos (same.trans full),
          List.map_cons, receiveAll, List.foldl_cons, List.foldl_cons]
        have length : packet.payload.length = expectedDataSize.toNat := by
          simpa [WirePacket.full] using full
        have whole : ProtocolHeader.size ≤ packet.payload.length := by
          rw [length]
          decide
        rw [describes.destination, describes.header whole]
        exact ih _
      · rw [List.filter_cons_of_neg full, List.filter_cons_of_neg (by rwa [same])]
        exact ih stats

theorem described_undisturbed {packets : List WirePacket} {handled : List Completion}
    (described : List.Forall₂ Describes packets (handled.map Completion.datagram)) :
    Undisturbed handled ↔ packets.Pairwise fun earlier later =>
      later.full = true → earlier.full = true := by
  have same : handled.map Completion.expected = packets.map WirePacket.full := by
    generalize datagramsEq : handled.map Completion.datagram = datagrams at described
    have expected : handled.map Completion.expected = datagrams.map Datagram.expected := by
      rw [← datagramsEq, List.map_map]
      rfl
    rw [expected]
    clear datagramsEq expected
    induction described with
    | nil => rfl
    | cons describes _ ih => rw [List.map_cons, List.map_cons, describes.expected, ih]
  have flags := congrArg (List.Pairwise fun earlier later => later = true → earlier = true) same
  rw [List.pairwise_map, List.pairwise_map] at flags
  exact iff_of_eq flags

def counted (events : List ByteConsumerEvent) (b : ByteConsumer) : List WirePacket :=
  ((events.filterMap ByteConsumerEvent.arrival).take b.session.handled.length).filter
    WirePacket.full

theorem groupStats (fits : FitsBuffers maxOutstandingReceive)
    (reached : PartialRun.run (step args maxOutstandingReceive)
      (start args maxOutstandingReceive now) events = some b)
    (short : b.session.handled.length ≤ 2 ^ 32)
    (undisturbed : ((events.filterMap ByteConsumerEvent.arrival).take
      b.session.handled.length).Pairwise fun earlier later =>
        later.full = true → earlier.full = true) :
    b.session.groupStats = receiveAll (initGroupStats args.mcastAddrStr)
      ((b.counted events).map WirePacket.groupUpdate) := by
  obtain ⟨labels, c, translated, followed, represents⟩ :=
    @PartialRun.run_translated _ _ (step args maxOutstandingReceive) _ _
      (Consumer.step args maxOutstandingReceive) (Represents maxOutstandingReceive) Translates
      (fun _ _ _ _ still taken => still.step fits taken) _ _ _ _
      (Represents.start args maxOutstandingReceive now) reached
  cases represents with
  | @intro rioBuff mcAddrBuff data addresses =>
      have handled := Consumer.handled_arrivals followed
      have described := List.forall₂_take b.session.handled.length
        (translated_arrivals translated)
      rw [← show b.session.handled.map Completion.datagram =
        (labels.filterMap ConsumerEvent.arrival).take b.session.handled.length from handled]
        at described
      have statistics := groupStats_of_undisturbed fits followed short
        ((described_undisturbed described).mpr undisturbed)
      rw [counted, ← described_statistics described]
      refine statistics.trans ?_
      rw [List.filter_map, List.foldl_map]
      rfl

end ByteConsumer

/-- As long as no full datagram comes after one of another size, and the ring
index has not wrapped, the statistics are those of the bytes that arrived: every
full datagram counts for the group its address bytes name, with the header in
its first bytes. -/
theorem byteConsumer_statistics {args : Args} {maxOutstandingReceive : UInt32} {now : Int}
    {events : List ByteConsumerEvent} {b : ByteConsumer} (fits : FitsBuffers maxOutstandingReceive)
    (reached : PartialRun.run (ByteConsumer.step args maxOutstandingReceive)
      (ByteConsumer.start args maxOutstandingReceive now) events = some b)
    (short : b.session.handled.length ≤ 2 ^ 32)
    (undisturbed : ((events.filterMap ByteConsumerEvent.arrival).take
      b.session.handled.length).Pairwise fun earlier later =>
        later.full = true → earlier.full = true) :
    (∀ group, groupEntry b.session.groupStats group = McGroupStats.afterStream
      (((b.counted events).filter fun packet => packet.destination.sinAddr = group).map
        fun packet => ⟨expectedDataSize.toUInt64, packet.header⟩)) ∧
    (∀ group, group ∈ b.session.groupStats ↔
      (∃ mcAddr ∈ args.mcastAddrStr, mcAddr.ipNetOrder = group) ∨
        ∃ packet ∈ b.counted events, packet.destination.sinAddr = group) ∧
    (getMcTotals b.session.groupStats).totalPackets.toNat =
      (b.counted events).length % 2 ^ 64 ∧
    (getMcTotals b.session.groupStats).totalBytes.toNat =
      100 * (b.counted events).length % 2 ^ 64 := by
  rw [ByteConsumer.groupStats fits reached short undisturbed]
  refine ⟨?_, ?_, ?_, ?_⟩
  · intro group
    rw [groupEntry_receiveAll (groupEntry_initGroupStats args.mcastAddrStr), ownPackets,
      ownUpdates, List.filter_map, List.map_map]
    rfl
  · intro group
    rw [mem_receiveAll, mem_initGroupStats]
    simp [WirePacket.groupUpdate]
  · rw [getMcTotals_totalPackets, List.length_map]
  · rw [getMcTotals_totalBytes, List.map_map]
    congr 1
    induction b.counted events with
    | nil => rfl
    | cons packet packets ih =>
        rw [List.map_cons, List.sum_cons, ih, List.length_cons]
        have size : (packet.groupUpdate).2.pktSize.toNat = 100 := rfl
        rw [Function.comp_apply, size]
        omega

def packetBytes (seq : UInt64) (group : UInt32) : WirePacket where
  payload := ProtocolHeader.bytes { token := 490, seq } ++ List.replicate 80 0
  address := SockaddrInet.bytes ⟨2, 4135, group⟩ ++ List.replicate 20 0

def twoArrivals (first second : WirePacket) : List ByteConsumerEvent :=
  [.loop (.shouldStop false 0), .loop .notify, .datagram first, .datagram second,
    .loop (.completionStatus true), .loop (.dequeue 2 0), .loop .handle, .loop .handle]

/-- Packets 7 and 9 for 239.5.69.2 with one for 239.5.69.3 between them, and then an
empty datagram. -/
def lastEmpty : List ByteConsumerEvent :=
  twoArrivals (packetBytes 7 38077935) (packetBytes 3 54855151) ++
    twoArrivals (packetBytes 9 38077935) { packetBytes 0 54855151 with payload := [] }

theorem byteConsumer_statistics_last_empty :
    ∃ b, PartialRun.run (ByteConsumer.step unlimitedArgs 2) (ByteConsumer.start unlimitedArgs 2 0)
        lastEmpty = some b ∧ b.session.handled.length = 4 ∧
      (getMcTotals b.session.groupStats).totalPackets.toNat = 3 ∧
      (groupEntry b.session.groupStats 38077935).packets = 2 ∧
      (groupEntry b.session.groupStats 38077935).rxDropped = 1 := by
  obtain ⟨b, reached, handled⟩ : ∃ b, PartialRun.run (ByteConsumer.step unlimitedArgs 2)
        (ByteConsumer.start unlimitedArgs 2 0) lastEmpty = some b ∧
      b.session.handled.length = 4 := ⟨_, rfl, rfl⟩
  have counted : b.counted lastEmpty =
      [packetBytes 7 38077935, packetBytes 3 54855151, packetBytes 9 38077935] := by
    rw [ByteConsumer.counted, handled]
    rfl
  obtain ⟨entries, -, packets, -⟩ := byteConsumer_statistics (by decide) reached
    (by rw [handled]; decide) (by rw [handled]; decide)
  rw [counted] at packets
  have entry := entries 38077935
  rw [counted] at entry
  refine ⟨b, reached, handled, packets, ?_, ?_⟩
  · rw [entry]
    rfl
  · rw [entry]
    rfl

end RioClient
