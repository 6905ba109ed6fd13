import RioClient.ArrivedBytes
import RioClient.LinkCore
import RioClient.ProducerPackets
import RioClient.WirePackets

/-!
What a run of the whole link is for each of its parts, and what the packets
under way hold.
-/

namespace RioClient

open FlatMemory OrderedNetwork ProducerArgs RoundRobin

variable {args : ProducerArgs} {winsock : Winsock} {clock : Nat → UInt64} {now : Int}
  {first b : ByteProducer} {sends : List ProducerEvent}

structure Carriage.Genuine (args : ProducerArgs) (carriage : Carriage) : Prop where
  payload : carriage.packet.payload.length = expectedDataSize.toNat
  seq : carriage.packet.header.seq = UInt64.ofNat (carriage.number / args.numberOfMcGroups)
  destination : ∃ mcastAddr,
    args.mcastAddrStr[carriage.number % args.numberOfMcGroups]? = some mcastAddr ∧
      carriage.packet.destination = args.destination mcastAddr

theorem turn_of_whole {s : SendState} (sequenced : Sequenced args s)
    (whole : WholeRounds args s.batches) {number : Nat} {send : Send}
    (found : s.sent[number]? = some send) : send.address = number % args.numberOfMcGroups := by
  have turns := sequenced.taken whole.before
  have bound := (List.getElem?_eq_some_iff.mp found).1
  have listed := congrArg (fun posts => posts[number]?) turns
  simp only [SendState.posts, RoundRobin.turns, List.getElem?_map, found,
    List.getElem?_range bound, Option.map_some, Option.some.injEq, Prod.mk.injEq] at listed
  exact listed.1

theorem posted_of_last {s : SendState} (inLine : InLine args s) {number : Nat} {send : Send}
    (found : s.sent[number]? = some send) (last : s.sent.length - s.posted.length ≤ number) :
    send ∈ s.completed ++ s.posted := by
  have bound := (List.getElem?_eq_some_iff.mp found).1
  have lengths := congrArg List.length inLine.inFlight_eq
  rw [List.length_append, List.length_drop] at lengths
  rw [inLine.inFlight_eq]
  exact mem_drop_iff.mpr ⟨number, by omega, found⟩

/-- Under whole rounds a packet read at any time before RIO completes its send
is the one that was posted. -/
theorem ByteProducer.genuine (standard : winsock.Standard)
    (started : ByteProducer.start args winsock clock now = .ok first)
    (reached : PartialRun.run (ByteProducer.step args) first sends = some b)
    (ordered : ∀ event ∈ sends, event.Ordered) (whole : WholeRounds args b.session.batches)
    {number : Nat} {send : Send} (found : b.session.sent[number]? = some send)
    (last : b.session.sent.length - b.session.posted.length ≤ number) :
    Carriage.Genuine args ⟨number, b.packetOf args send⟩ := by
  obtain ⟨p, followed, represents⟩ := (start_represents started).run reached
  have wired := Wired.run standard started reached
  have inLine := Producer.inLine followed ordered
  have stamped := Producer.stamped followed
  have batched := Producer.batched followed
  have sequenced := Producer.sequenced followed
  cases represents with
  | @intro rioBuff mcAddrBuff packets groups =>
      have bound : send.descriptor < args.maxOutstandingSend := by
        rw [inLine.descriptor_eq found]
        exact Nat.mod_lt _ args.maxOutstandingSend_pos
      have packetBound : send.descriptor / args.numberOfMcGroups < args.rate :=
        (Nat.div_lt_iff_lt_mul args.numberOfMcGroups_pos).mpr bound
      have intact := inLine.intact_of_whole stamped batched whole send
        (posted_of_last inLine found last)
      have turn := turn_of_whole sequenced whole found
      have inside : number % args.numberOfMcGroups < args.numberOfMcGroups :=
        Nat.mod_lt _ args.numberOfMcGroups_pos
      have group : args.mcastAddrStr[number % args.numberOfMcGroups]? =
          some args.mcastAddrStr[number % args.numberOfMcGroups] :=
        List.getElem?_eq_getElem inside
      constructor
      case payload =>
        rw [packetOf, namedBytes_rioBuffDescr b.payload bound, window_length]
        rfl
      case seq =>
        have header : (b.packetOf args send).header = ProtocolHeader.read b.payload
            (packetOffset (send.descriptor / args.numberOfMcGroups)).toNat :=
          header_namedBytes b.payload _ bound
        have held := packets _ packetBound
        rw [← offsetOf_rioBuffDescr args bound] at held header
        rw [header, ← held]
        exact intact.trans (stamped.seq_eq found)
      case destination =>
        refine ⟨_, group, ?_⟩
        have size (addr : SockaddrInet) : addr.bytes.length = SockaddrInet.size := rfl
        apply SockaddrInet.read_of_window
        simp only [packetOf]
        rw [turn, namedBytes_mcAddrDescr b.addresses inside, wired.groups _ _ group,
          window_overwrite (by simp [size]), ← size]
        exact List.take_left' rfl

theorem Producer.pace {p next : Producer} {event : ProducerEvent}
    (taken : p.step args event = some next) :
    next.sent.length - next.posted.length ≤ p.sent.length - p.posted.length ∨
      (∃ k, event = .complete k) ∧
        next.sent.length - next.posted.length ≤ p.sent.length - p.posted.length + 1 := by
  cases Producer.step_cases taken with
  | @complete k send found =>
      right
      have inside := (List.getElem?_eq_some_iff.mp found).1
      refine ⟨⟨k, rfl⟩, ?_⟩
      simp only [List.length_eraseIdx_of_lt inside]
      omega
  | handled handling =>
      left
      simp only [handleCompletion, send, List.length_append, List.length_singleton]
      omega
  | goOn | stop | notified | notifyFailed | packet | empty | dequeued | corrupt =>
      left
      exact Nat.le_refl _

variable {receiverArgs : Args} {maxOutstandingReceive : UInt32} {link : Link} {later : Int}
  {events : List LinkEvent}

namespace Link

def start (first : ByteProducer) (receiverArgs : Args) (maxOutstandingReceive : UInt32)
    (now : Int) : Link where
  producer := first
  consumer := ByteConsumer.start receiverArgs maxOutstandingReceive now

structure Traced (args : ProducerArgs) (receiverArgs : Args) (maxOutstandingReceive : UInt32)
    (first : ByteProducer) (now : Int) (link : Link) (sends : List ProducerEvent)
    (receives : List ByteConsumerEvent) : Prop where
  producer : PartialRun.run (ByteProducer.step args) first sends = some link.producer
  ordered : ∀ event ∈ sends, event.Ordered
  consumer : PartialRun.run (ByteConsumer.step receiverArgs maxOutstandingReceive)
    (ByteConsumer.start receiverArgs maxOutstandingReceive now) receives = some link.consumer
  arrivals : receives.filterMap ByteConsumerEvent.arrival =
    link.network.arrived.map Carriage.packet
  sound : Sound Carriage.group link.network
  numbers : link.network.transmitted.map Carriage.number =
    List.range link.network.transmitted.length
  pace : link.producer.session.sent.length - link.producer.session.posted.length ≤
    link.network.transmitted.length

theorem Traced.start (args : ProducerArgs) (receiverArgs : Args) (maxOutstandingReceive : UInt32)
    (now : Int) (idle : first.session.sent.length ≤ first.session.posted.length) :
    Traced args receiverArgs maxOutstandingReceive first now
      (Link.start first receiverArgs maxOutstandingReceive now) [] [] where
  producer := rfl
  ordered := by simp
  consumer := rfl
  arrivals := rfl
  sound := .start Carriage.group
  numbers := rfl
  pace := by
    rw [Link.start, Nat.sub_eq_zero_of_le idle]
    exact Nat.zero_le _

theorem Traced.step {sends : List ProducerEvent} {receives : List ByteConsumerEvent}
    (started : ByteProducer.start args winsock clock now = .ok first)
    (traced : Traced args receiverArgs maxOutstandingReceive first later link sends receives)
    {event : LinkEvent} {next : Link}
    (taken : LinkStep args receiverArgs maxOutstandingReceive link event next) :
    ∃ sends receives,
      Traced args receiverArgs maxOutstandingReceive first later next sends receives := by
  obtain ⟨producer, ordered, consumer, arrivals, sound, numbers, pace⟩ := traced
  cases taken with
  | @producer event after allowed stepped =>
      refine ⟨sends ++ [event], receives, ?_, ?_, consumer, arrivals, sound, numbers, ?_⟩
      · rw [PartialRun.run_snoc, producer]
        exact stepped
      · intro other member
        rcases List.mem_append.mp member with earlier | new
        · exact ordered other earlier
        · rw [List.mem_singleton.mp new]
          cases event with
          | complete k => exact allowed.1
          | shouldStop | notify | completionStatus | dequeue | corruptQueue | handle =>
              exact trivial
      · obtain ⟨p, followed, represents⟩ := (start_represents started).run producer
        obtain ⟨next, steppedToo, still⟩ := represents.step stepped
        have paced := Producer.pace steppedToo
        rw [represents.session, still.session] at paced
        rcases paced with kept | ⟨⟨k, rfl⟩, grown⟩
        · exact Nat.le_trans kept pace
        · exact Nat.le_trans grown (Nat.succ_le_of_lt allowed.2)
  | @transmit send found =>
      refine ⟨sends, receives, producer, ordered, consumer, arrivals, sound.step (.transmit _),
        ?_, ?_⟩
      · simp only [Network.transmit, List.map_append, List.length_append, List.length_singleton,
          List.range_succ, numbers, List.map_cons, List.map_nil]
      · simp only [Network.transmit, List.length_append, List.length_singleton]
        exact Nat.le_succ_of_le pace
  | @lose position network lost =>
      obtain ⟨item, found, rfl⟩ := Option.map_eq_some_iff.mp lost
      exact ⟨sends, receives, producer, ordered, consumer, arrivals,
        sound.step (lose_step lost), numbers, pace⟩
  | @deliver position carriage network after delivered received =>
      obtain ⟨moved, arrivedEq, transmittedEq, -, -⟩ := deliver_step delivered
      refine ⟨sends, receives ++ [.datagram carriage.packet], producer, ordered, ?_, ?_,
        sound.step moved, ?_, ?_⟩
      · rw [PartialRun.run_snoc, consumer]
        exact received
      · rw [List.filterMap_append, arrivals, arrivedEq, List.map_append]
        rfl
      · rw [transmittedEq]
        exact numbers
      · rw [transmittedEq]
        exact pace
  | @consumer event after stepped =>
      refine ⟨sends, receives ++ [.loop event], producer, ordered, ?_, ?_, sound, numbers, pace⟩
      · rw [PartialRun.run_snoc, consumer]
        exact stepped
      · rw [List.filterMap_append, arrivals]
        exact List.append_nil _

theorem traced (started : ByteProducer.start args winsock clock now = .ok first)
    (reached : PartialRun.run (step args receiverArgs maxOutstandingReceive)
      (Link.start first receiverArgs maxOutstandingReceive later) events = some link) :
    ∃ sends receives,
      Traced args receiverArgs maxOutstandingReceive first later link sends receives := by
  have idle : first.session.sent.length ≤ first.session.posted.length := by
    have represents := start_represents started
    have beginning := @Producer.start_sends args
      (fun offset => SockaddrInet.read first.addresses offset.toNat) clock now
    rw [represents.session] at beginning
    have sent := congrArg SendState.sent beginning
    have posted := congrArg SendState.posted beginning
    exact Nat.le_of_eq (congrArg List.length (sent.trans posted.symm))
  have everyStep (link : Link) (event : LinkEvent) (next : Link)
      (holds : ∃ sends receives,
        Traced args receiverArgs maxOutstandingReceive first later link sends receives)
      (taken : link.step args receiverArgs maxOutstandingReceive event = some next) :
      ∃ sends receives,
        Traced args receiverArgs maxOutstandingReceive first later next sends receives := by
    obtain ⟨sends, receives, traced⟩ := holds
    exact traced.step started (step_cases taken)
  exact PartialRun.run_invariant everyStep
    ⟨[], [], .start args receiverArgs maxOutstandingReceive later idle⟩ reached

theorem batches_prefix (started : ByteProducer.start args winsock clock now = .ok first)
    {receives : List ByteConsumerEvent}
    (traced : Traced args receiverArgs maxOutstandingReceive first later link sends receives)
    {event : LinkEvent} {next : Link}
    (taken : LinkStep args receiverArgs maxOutstandingReceive link event next) :
    link.producer.session.batches <+: next.producer.session.batches := by
  cases taken with
  | @producer event after allowed stepped =>
      obtain ⟨p, followed, represents⟩ := (start_represents started).run traced.producer
      obtain ⟨next, steppedToo, still⟩ := represents.step stepped
      have grown := @Producer.batches_prefix args [event] next p (by
        rw [PartialRun.run_cons, steppedToo]
        rfl)
      rw [represents.session, still.session] at grown
      exact grown
  | transmit | lose | deliver | consumer => exact List.prefix_rfl

/-- Under whole rounds every packet that has gone out is the one that was posted. -/
theorem genuine (standard : winsock.Standard)
    (started : ByteProducer.start args winsock clock now = .ok first)
    (reached : PartialRun.run (step args receiverArgs maxOutstandingReceive)
      (Link.start first receiverArgs maxOutstandingReceive later) events = some link) :
    WholeRounds args link.producer.session.batches →
      ∀ carriage ∈ link.network.transmitted, carriage.Genuine args := by
  refine PartialRun.run_induction ?initially ?extended reached
  case initially =>
      intro _ carriage member
      simp [Link.start] at member
  case extended =>
      intro events link event next before ih taken whole carriage member
      obtain ⟨sends, receives, traced⟩ := Link.traced started before
      have grown := batches_prefix started traced (step_cases taken)
      have wholeBefore : WholeRounds args link.producer.session.batches :=
        fun n listed => whole n (grown.subset listed)
      have earlier := ih wholeBefore
      cases step_cases taken with
      | producer | consumer => exact earlier carriage member
      | lose lost =>
          obtain ⟨item, found, rfl⟩ := Option.map_eq_some_iff.mp lost
          exact earlier carriage member
      | deliver delivered received =>
          obtain ⟨-, -, transmitted, -, -⟩ := deliver_step delivered
          rw [transmitted] at member
          exact earlier carriage member
      | transmit found =>
          rcases List.mem_append.mp member with old | new
          · exact earlier carriage old
          · rw [List.mem_singleton.mp new]
            exact ByteProducer.genuine standard started traced.producer traced.ordered wholeBefore
              found traced.pace

end Link

end RioClient
