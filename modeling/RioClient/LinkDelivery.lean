import RioClient.LinkRuns

/-!
What the consumer's statistics say about the network, for any number of groups.
-/

namespace RioClient

open OrderedNetwork ProducerArgs SequenceGaps

variable {args : ProducerArgs} {winsock : Winsock} {clock : Nat → UInt64} {now later : Int}
  {first : ByteProducer} {receiverArgs : Args} {maxOutstandingReceive : UInt32} {link : Link}
  {events : List LinkEvent} {group : Nat} {mcastAddr : Ipv4Addr}

namespace Link

def seen (link : Link) : List Carriage :=
  link.network.arrived.take link.consumer.session.handled.length

def roundsOf (args : ProducerArgs) (group : Nat) (link : Link) : List Nat :=
  (link.seen.filter fun carriage => carriage.number % args.numberOfMcGroups = group).map
    fun carriage => carriage.number / args.numberOfMcGroups

def lostBetween (args : ProducerArgs) (group low high : Nat) (link : Link) : List Carriage :=
  link.network.lost.filter fun carriage =>
    carriage.number % args.numberOfMcGroups = group ∧
      low < carriage.number / args.numberOfMcGroups ∧
      carriage.number / args.numberOfMcGroups < high

end Link

theorem Carriage.Genuine.full {carriage : Carriage} (genuine : carriage.Genuine args) :
    carriage.packet.full = true := by
  simp [WirePacket.full, genuine.payload]

/-- With different addresses for the groups, a packet's address tells whose turn it was. -/
theorem Carriage.Genuine.group_iff {carriage : Carriage}
    (distinct : (args.mcastAddrStr.map Ipv4Addr.ipBe).Nodup) (genuine : carriage.Genuine args)
    (configured : args.mcastAddrStr[group]? = some mcastAddr) :
    carriage.group = mcastAddr.ipBe ↔ carriage.number % args.numberOfMcGroups = group := by
  obtain ⟨own, turn, destination⟩ := genuine.destination
  have address : carriage.group = own.ipBe := by
    rw [Carriage.group, destination]
    rfl
  rw [address]
  constructor
  · intro same
    have first : (args.mcastAddrStr.map Ipv4Addr.ipBe)[carriage.number % args.numberOfMcGroups]? =
        some mcastAddr.ipBe := by
      rw [List.getElem?_map, turn, Option.map_some, same]
    have second : (args.mcastAddrStr.map Ipv4Addr.ipBe)[group]? = some mcastAddr.ipBe := by
      rw [List.getElem?_map, configured, Option.map_some]
    have bound := (List.getElem?_eq_some_iff.mp first).1
    exact (List.getElem?_inj bound distinct).mp (first.trans second.symm)
  · rintro rfl
    rw [turn, Option.some.injEq] at configured
    rw [configured]

theorem round_lt {groups first second : Nat} (before : first < second)
    (sameTurn : first % groups = second % groups) : first / groups < second / groups := by
  have firstSplit := Nat.div_add_mod first groups
  have secondSplit := Nat.div_add_mod second groups
  have order : first / groups ≤ second / groups := Nat.div_le_div_right (Nat.le_of_lt before)
  rcases Nat.lt_or_eq_of_le order with later | same
  · exact later
  · rw [same, sameTurn] at firstSplit
    omega

theorem number_eq {groups first second : Nat} (sameTurn : first % groups = second % groups)
    (sameRound : first / groups = second / groups) : first = second := by
  rw [← Nat.div_add_mod first groups, sameTurn, sameRound, Nat.div_add_mod]

structure Link.Orderly (args : ProducerArgs) (link : Link) : Prop where
  genuine : ∀ carriage ∈ link.network.transmitted, carriage.Genuine args
  sound : Sound Carriage.group link.network
  numbers : link.network.transmitted.map Carriage.number =
    List.range link.network.transmitted.length

namespace Link.Orderly

variable {carriage : Carriage}

theorem numbered (orderly : link.Orderly args) :
    (link.network.transmitted.map Carriage.number).Pairwise (· < ·) := by
  rw [orderly.numbers]
  exact List.pairwise_lt_range

theorem seen_arrived (member : carriage ∈ link.seen) : carriage ∈ link.network.arrived :=
  List.mem_of_mem_take member

theorem arrived_transmitted (orderly : link.Orderly args)
    (member : carriage ∈ link.network.arrived) : carriage ∈ link.network.transmitted :=
  orderly.sound.conserved.subset (List.mem_append_left _ (List.mem_append_right _ member))

theorem arrived_genuine (orderly : link.Orderly args)
    (member : carriage ∈ link.network.arrived) : carriage.Genuine args :=
  orderly.genuine carriage (orderly.arrived_transmitted member)

theorem exists_number (orderly : link.Orderly args) {number : Nat}
    (bound : number < link.network.transmitted.length) :
    ∃ carriage ∈ link.network.transmitted, carriage.number = number := by
  have listed := List.mem_range.mpr bound
  rw [← orderly.numbers] at listed
  exact List.mem_map.mp listed

theorem number_lt (orderly : link.Orderly args) (member : carriage ∈ link.network.transmitted) :
    carriage.number < link.network.transmitted.length := by
  have listed : carriage.number ∈ link.network.transmitted.map Carriage.number :=
    List.mem_map_of_mem member
  rw [orderly.numbers] at listed
  exact List.mem_range.mp listed

theorem filter_seen (orderly : link.Orderly args)
    (distinct : (args.mcastAddrStr.map Ipv4Addr.ipBe).Nodup)
    (configured : args.mcastAddrStr[group]? = some mcastAddr) :
    link.seen.filter (fun carriage => carriage.group = mcastAddr.ipBe) =
      link.seen.filter fun carriage => carriage.number % args.numberOfMcGroups = group := by
  apply List.filter_congr
  intro carriage member
  exact decide_eq_decide.mpr ((orderly.arrived_genuine (seen_arrived member)).group_iff distinct
    configured)

theorem rounds_increasing (orderly : link.Orderly args)
    (distinct : (args.mcastAddrStr.map Ipv4Addr.ipBe).Nodup)
    (configured : args.mcastAddrStr[group]? = some mcastAddr) :
    (link.roundsOf args group).Pairwise (· < ·) := by
  have inOrder := orderly.sound.increasing orderly.numbered mcastAddr.ipBe
  rw [List.filter_append, List.map_append] at inOrder
  have arrived := (List.pairwise_append.mp inOrder).1
  have seen : ((link.seen.filter fun carriage => carriage.group = mcastAddr.ipBe).map
      Carriage.number).Pairwise (· < ·) :=
    arrived.sublist (((List.take_sublist _ _).filter _).map Carriage.number)
  rw [filter_seen orderly distinct configured, List.pairwise_map] at seen
  rw [Link.roundsOf, List.pairwise_map]
  refine seen.imp_of_mem ?_
  intro earlier later earlierIn laterIn before
  have earlierTurn : earlier.number % args.numberOfMcGroups = group := by
    simpa using (List.mem_filter.mp earlierIn).2
  have laterTurn : later.number % args.numberOfMcGroups = group := by
    simpa using (List.mem_filter.mp laterIn).2
  exact round_lt before (earlierTurn.trans laterTurn.symm)

theorem mem_roundsOf {round : Nat} : round ∈ link.roundsOf args group ↔
    ∃ carriage ∈ link.seen, carriage.number % args.numberOfMcGroups = group ∧
      carriage.number / args.numberOfMcGroups = round := by
  simp [roundsOf, and_assoc]

theorem mem_lostBetween {low high : Nat} :
    carriage ∈ link.lostBetween args group low high ↔ carriage ∈ link.network.lost ∧
      carriage.number % args.numberOfMcGroups = group ∧
      low < carriage.number / args.numberOfMcGroups ∧
      carriage.number / args.numberOfMcGroups < high := by
  simp [lostBetween]

theorem lost_rounds_nodup (orderly : link.Orderly args) (low high : Nat) :
    ((link.lostBetween args group low high).map
      fun carriage => carriage.number / args.numberOfMcGroups).Nodup := by
  have numbers := orderly.sound.lost_nodup orderly.numbered
  rw [List.map_append] at numbers
  have distinct := List.pairwise_map.mp (List.nodup_append.mp numbers).1
  rw [List.Nodup, List.pairwise_map]
  refine (distinct.sublist List.filter_sublist).imp_of_mem ?_
  intro earlier later earlierIn laterIn apart sameRound
  apply apart
  exact number_eq ((mem_lostBetween.mp earlierIn).2.1.trans (mem_lostBetween.mp laterIn).2.1.symm)
    sameRound

/-- The rounds missing between two that were seen are those whose packets were lost. -/
theorem lost_rounds (orderly : link.Orderly args)
    (distinct : (args.mcastAddrStr.map Ipv4Addr.ipBe).Nodup)
    (configured : args.mcastAddrStr[group]? = some mcastAddr) {low high : Nat}
    (highest : high ∈ link.roundsOf args group) :
    ((link.lostBetween args group low high).map
        fun carriage => carriage.number / args.numberOfMcGroups).toFinset =
      Finset.Ioo low high \ (link.roundsOf args group).toFinset := by
  obtain ⟨last, lastSeen, lastTurn, lastRound⟩ := mem_roundsOf.mp highest
  have lastTransmitted := orderly.arrived_transmitted (seen_arrived lastSeen)
  ext round
  rw [List.mem_toFinset, List.mem_map, Finset.mem_sdiff, Finset.mem_Ioo, List.mem_toFinset,
    mem_roundsOf]
  constructor
  · rintro ⟨carriage, member, rfl⟩
    obtain ⟨lost, turn, above, below⟩ := mem_lostBetween.mp member
    refine ⟨⟨above, below⟩, ?_⟩
    rintro ⟨other, otherSeen, otherTurn, sameRound⟩
    have numbers := orderly.sound.lost_nodup orderly.numbered
    rw [List.map_append, List.nodup_append] at numbers
    exact numbers.2.2 _ (List.mem_map_of_mem lost) _ (List.mem_map_of_mem
      (seen_arrived otherSeen)) (number_eq (turn.trans otherTurn.symm) sameRound.symm)
  · rintro ⟨⟨above, below⟩, unseen⟩
    have turnBound : group < args.numberOfMcGroups := (List.getElem?_eq_some_iff.mp configured).1
    have lastSplit := Nat.div_add_mod last.number args.numberOfMcGroups
    rw [lastRound, lastTurn] at lastSplit
    have earlierRound := Nat.mul_le_mul_left args.numberOfMcGroups (Nat.succ_le_of_lt below)
    rw [Nat.mul_succ] at earlierRound
    have before : args.numberOfMcGroups * round + group < last.number := by omega
    obtain ⟨carriage, transmitted, number⟩ := orderly.exists_number
      (Nat.lt_trans before (orderly.number_lt lastTransmitted))
    have turn : carriage.number % args.numberOfMcGroups = group := by
      rw [number, Nat.mul_add_mod, Nat.mod_eq_of_lt turnBound]
    have roundIs : carriage.number / args.numberOfMcGroups = round := by
      rw [number, Nat.mul_add_div args.numberOfMcGroups_pos, Nat.div_eq_of_lt turnBound,
        Nat.add_zero]
    have ownGroup := ((orderly.genuine carriage transmitted).group_iff distinct configured).mpr turn
    have lastGroup :=
      ((orderly.genuine last lastTransmitted).group_iff distinct configured).mpr lastTurn
    have split := (List.take_append_drop link.consumer.session.handled.length
      link.network.arrived).symm
    rcases orderly.sound.seen_or_lost orderly.numbered split transmitted lastSeen
      (ownGroup.trans lastGroup.symm) (number ▸ before) with seen | lost
    · exact absurd ⟨carriage, seen, turn, roundIs⟩ unseen
    · exact ⟨carriage, mem_lostBetween.mpr ⟨lost, turn, by rwa [roundIs], by rwa [roundIs]⟩,
        roundIs⟩

def streamOf (args : ProducerArgs) (group : Nat) (link : Link) : List Packet :=
  (link.seen.filter fun carriage => carriage.number % args.numberOfMcGroups = group).map
    fun carriage => ⟨expectedDataSize.toUInt64, carriage.packet.header⟩

theorem seqsOf_streamOf (orderly : link.Orderly args)
    (short : link.network.transmitted.length < 2 ^ 64 - 1) :
    seqsOf (streamOf args group link) = link.roundsOf args group ∧
      McGroupStats.Bounded (streamOf args group link) := by
  have exact (carriage : Carriage) (member : carriage ∈ link.seen) :
      carriage.packet.header.seq.toNat = carriage.number / args.numberOfMcGroups ∧
        carriage.number / args.numberOfMcGroups < 2 ^ 64 - 1 := by
    have transmitted := orderly.arrived_transmitted (seen_arrived member)
    have bound := orderly.number_lt transmitted
    have smaller := Nat.div_le_self carriage.number args.numberOfMcGroups
    rw [(orderly.genuine carriage transmitted).seq, UInt64.toNat_ofNat',
      Nat.mod_eq_of_lt (by omega)]
    exact ⟨rfl, by omega⟩
  constructor
  · rw [seqsOf, streamOf, roundsOf, List.map_map]
    apply List.map_congr_left
    intro carriage member
    exact (exact carriage (List.mem_of_mem_filter member)).1
  · intro packet member
    obtain ⟨carriage, listed, rfl⟩ := List.mem_map.mp member
    obtain ⟨seq, bound⟩ := exact carriage (List.mem_of_mem_filter listed)
    exact seq ▸ bound

theorem groupEntry_streamOf (orderly : link.Orderly args)
    (distinct : (args.mcastAddrStr.map Ipv4Addr.ipBe).Nodup)
    (configured : args.mcastAddrStr[group]? = some mcastAddr)
    {sends : List ProducerEvent} {receives : List ByteConsumerEvent}
    (traced : Traced args receiverArgs maxOutstandingReceive first later link sends receives)
    (fits : FitsBuffers maxOutstandingReceive)
    (few : link.consumer.session.handled.length ≤ 2 ^ 32) :
    groupEntry link.consumer.session.groupStats mcastAddr.ipNetOrder =
      McGroupStats.afterStream (streamOf args group link) := by
  have arrived : (receives.filterMap ByteConsumerEvent.arrival).take
      link.consumer.session.handled.length = link.seen.map Carriage.packet := by
    rw [traced.arrivals, ← List.map_take]
    rfl
  have full (packet : WirePacket) (member : packet ∈ link.seen.map Carriage.packet) :
      packet.full = true := by
    obtain ⟨carriage, seen, rfl⟩ := List.mem_map.mp member
    exact (orderly.arrived_genuine (seen_arrived seen)).full
  have undisturbed : (link.seen.map Carriage.packet).Pairwise fun earlier later =>
      later.full = true → earlier.full = true :=
    List.pairwise_of_forall_mem_list fun earlier earlierIn _ _ _ => full earlier earlierIn
  have statistics := ByteConsumer.groupStats fits traced.consumer few (by rwa [arrived])
  rw [ByteConsumer.counted, arrived, List.filter_eq_self.mpr full, List.map_map] at statistics
  rw [statistics, groupEntry_receiveAll (groupEntry_initGroupStats receiverArgs.mcastAddrStr),
    ownPackets, ownUpdates, List.filter_map, List.map_map, streamOf,
    ← filter_seen orderly distinct configured]
  rfl

end Link.Orderly

/-- Nothing is doubled or made up on the way, and for every group the consumer's
counters say what became of the producer's packets: those handled are in order, and
the drops are the packets lost between the first and the last one handled. The slot
index bounds what may be handled by 2^32, and `Seq` what may go out by 2^64 - 1. -/
theorem link_accounting (standard : winsock.Standard)
    (started : ByteProducer.start args winsock clock now = .ok first)
    (fits : FitsBuffers maxOutstandingReceive)
    (reached : PartialRun.run (Link.step args receiverArgs maxOutstandingReceive)
      (Link.start first receiverArgs maxOutstandingReceive later) events = some link)
    (whole : WholeRounds args link.producer.session.batches)
    (distinct : (args.mcastAddrStr.map Ipv4Addr.ipBe).Nodup)
    (short : link.network.transmitted.length < 2 ^ 64 - 1)
    (few : link.consumer.session.handled.length ≤ 2 ^ 32) :
    ((link.network.lost ++ link.network.arrived ++ link.network.transit).map
      Carriage.number).Perm (List.range link.network.transmitted.length) ∧
    ∀ group mcastAddr, args.mcastAddrStr[group]? = some mcastAddr →
      let gmc := groupEntry link.consumer.session.groupStats mcastAddr.ipNetOrder
      let rounds := link.roundsOf args group
      gmc.packets.toNat = rounds.length ∧ gmc.outOfOrder = 0 ∧
      ∀ nonempty : rounds ≠ [],
        gmc.sequence.toNat = rounds.getLast nonempty ∧
        gmc.rxDropped.toNat = (link.lostBetween args group (rounds.head nonempty)
          (rounds.getLast nonempty)).length := by
  obtain ⟨sends, receives, traced⟩ := Link.traced started reached
  have orderly : link.Orderly args :=
    ⟨Link.genuine standard started reached whole, traced.sound, traced.numbers⟩
  refine ⟨?_, ?_⟩
  · rw [← traced.numbers]
    exact traced.sound.conserved.map Carriage.number
  · intro group mcastAddr configured gmc rounds
    have entry : gmc = McGroupStats.afterStream (Link.Orderly.streamOf args group link) :=
      orderly.groupEntry_streamOf distinct configured traced fits few
    obtain ⟨seqs, bounded⟩ := @Link.Orderly.seqsOf_streamOf args link group orderly short
    have increasing := orderly.rounds_increasing distinct configured
    have tracks := McGroupStats.afterStream_tracks _ bounded
    have none : strays (seqsOf (Link.Orderly.streamOf args group link)) = 0 := by
      rw [seqs]
      exact strays_of_increasing increasing
    have brief := length_lt_of_no_strays bounded none
    have lengths := congrArg List.length seqs
    rw [seqsOf_length] at lengths
    refine ⟨?_, ?_, ?_⟩
    · rw [entry, tracks.packets, Nat.mod_eq_of_lt brief, lengths]
    · rw [entry, ← UInt64.toNat_inj, tracks.outOfOrder, seqs, lates_of_increasing increasing]
      rfl
    · intro nonempty
      constructor
      · rw [entry, tracks.sequence, seqs, highest_of_increasing increasing nonempty]
      · have dropped := McGroupStats.afterStream_rxDropped_of_no_strays _ bounded brief none
        rw [seqs, missing_of_increasing increasing nonempty, ← orderly.lost_rounds distinct
          configured (List.getLast_mem nonempty), List.toFinset_card_of_nodup
          (orderly.lost_rounds_nodup _ _), List.length_map] at dropped
        rw [entry, dropped]

/-! Three packets under way at once, of which the second is lost. -/

def threePacketArgs : ProducerArgs where
  toArgs := { oneGroupArgs.toArgs with packetRate := 3 }
  rate_pos := by decide
  groups_pos := by decide
  limit := by decide

def secondLost : List LinkEvent :=
  [.transmit, .transmit, .transmit, .lose 1, .consumer (.shouldStop false 0), .consumer .notify,
    .deliver 0, .deliver 0, .consumer (.completionStatus true), .consumer (.dequeue 2 0),
    .consumer .handle, .consumer .handle]

theorem secondLost_run (first : ByteProducer)
    (sent : first.session.sent = [⟨0, 0, 0⟩, ⟨1, 0, 1⟩, ⟨2, 0, 2⟩]) :
    ∃ link, PartialRun.run (Link.step threePacketArgs unlimitedArgs 2)
        (Link.start first unlimitedArgs 2 0) secondLost = some link ∧
      link.producer = first ∧ link.network.lost.map Carriage.number = [1] ∧
      link.network.arrived.map Carriage.number = [0, 2] ∧
      link.network.transmitted.length = 3 ∧ link.consumer.session.handled.length = 2 := by
  cases first with
  | mk session payload addresses wire =>
      cases session
      simp only at sent
      subst sent
      exact ⟨_, rfl, rfl, rfl, rfl, rfl, rfl⟩

theorem link_accounting_second_lost :
    ∃ first link, ByteProducer.start threePacketArgs referenceWinsock (fun _ => 0) 0 = .ok first ∧
      PartialRun.run (Link.step threePacketArgs unlimitedArgs 2)
        (Link.start first unlimitedArgs 2 0) secondLost = some link ∧
      (groupEntry link.consumer.session.groupStats 38077935).packets.toNat = 2 ∧
      (groupEntry link.consumer.session.groupStats 38077935).rxDropped.toNat = 1 := by
  obtain ⟨first, started⟩ := start_ok referenceWinsock_standard threePacketArgs (fun _ => 0) 0
  have beginning := @Producer.start_sends threePacketArgs
    (fun offset => SockaddrInet.read first.addresses offset.toNat) (fun _ => 0) 0
  rw [(start_represents started).session] at beginning
  have sent : first.session.sent = firstSends threePacketArgs :=
    congrArg SendState.sent beginning
  have batches : first.session.batches = [] := congrArg SendState.batches beginning
  obtain ⟨link, reached, producer, lost, arrived, transmitted, handled⟩ :=
    secondLost_run first (sent.trans (by decide))
  have rounds : link.roundsOf threePacketArgs 0 = [0, 2] := by
    have seen : link.seen = link.network.arrived := by
      apply List.take_of_length_le
      rw [handled, ← List.length_map Carriage.number, arrived]
      exact Nat.le_refl 2
    have numbers : ((link.network.arrived.map Carriage.number).filter
        fun number => number % 1 = 0).map (· / 1) = [0, 2] := by
      rw [arrived]
      decide
    rw [List.filter_map, List.map_map, ← seen] at numbers
    exact numbers
  have accounting := (link_accounting referenceWinsock_standard started (by decide) reached
    (by rw [producer, batches]; decide) (by decide) (by rw [transmitted]; decide)
    (by rw [handled]; decide)).2 0 ⟨38077935⟩ rfl
  simp only [rounds] at accounting
  obtain ⟨packets, -, counted⟩ := accounting
  obtain ⟨-, dropped⟩ := counted (by decide)
  have between : (link.lostBetween threePacketArgs 0 0 2).length =
      ((link.network.lost.map Carriage.number).filter fun number =>
        number % 1 = 0 ∧ 0 < number / 1 ∧ number / 1 < 2).length := by
    rw [List.filter_map, List.length_map]
    rfl
  rw [lost] at between
  exact ⟨first, link, started, reached, packets, dropped.trans (between.trans (by decide))⟩

end RioClient
