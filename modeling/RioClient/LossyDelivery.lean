import RioClient.GroupStats
import RioClient.ProducerNotify

/-!
The producer and the consumer of one group over a network that loses packets.
With one group every send has a packet of its own, so whatever order the sends
complete in, a packet carries its send's number while it is in flight.
-/

namespace RioClient

open SequenceGaps ProducerArgs

variable {args : ProducerArgs} {mcAddrBuff : UInt32 → SockaddrInet} {clock : Nat → UInt64}
  {now : Int} {events : List ProducerEvent} {p : Producer}

/-- What the network can deliver for send `t`: the packet as it is found in some
state of the run in which RIO has the send and has not completed it. -/
def Carries (args : ProducerArgs) (mcAddrBuff : UInt32 → SockaddrInet) (clock : Nat → UInt64)
    (now : Int) (events : List ProducerEvent) (t : Nat) (packet : Packet) : Prop :=
  ∃ before p send, before <+: events ∧
    PartialRun.run (Producer.step args) (Producer.start args mcAddrBuff clock now) before = some p ∧
    p.sent[t]? = some send ∧ send ∈ p.posted ∧
    packet.header = p.rioBuff (offsetOf args.rioBuffDescr send.descriptor)

def SendState.Intact (args : ProducerArgs) (s : SendState) : Prop :=
  ∀ send ∈ s.results ++ s.completed ++ s.posted,
    (s.rioBuff (offsetOf args.rioBuffDescr send.descriptor)).seq = send.seq

theorem rioBuffDescr_apart (oneGroup : args.numberOfMcGroups = 1) {first second : Nat}
    (firstBound : first < args.maxOutstandingSend) (secondBound : second < args.maxOutstandingSend)
    (same : offsetOf args.rioBuffDescr first = offsetOf args.rioBuffDescr second) :
    first = second := by
  have limit := args.maxOutstandingSend_le
  rw [offsetOf_rioBuffDescr args firstBound, offsetOf_rioBuffDescr args secondBound, oneGroup,
    Nat.div_one, Nat.div_one] at same
  exact packetOffset_injective (by omega) (by omega) same

theorem SendState.Intact.handled {s : SendState} (oneGroup : args.numberOfMcGroups = 1)
    (held : s.held.Perm (List.range args.maxOutstandingSend)) (intact : s.Intact args)
    (now : UInt64) {result : Send} {rest : List Send} (resultsEq : s.results = result :: rest) :
    (s.handled args now result rest).Intact args := by
  have distinct := held.nodup_iff.mpr List.nodup_range
  have bound (descriptor : Nat) (member : descriptor ∈ s.held) :
      descriptor < args.maxOutstandingSend := List.mem_range.mp (held.mem_iff.mp member)
  have parts : s.held =
      result.descriptor :: (rest ++ s.completed ++ s.posted).map Send.descriptor := by
    simp [SendState.held, resultsEq]
  rw [parts] at distinct bound
  intro send member
  have split : send ∈ rest ++ s.completed ++ s.posted ∨ send = s.repost args result := by
    simpa [SendState.handled, or_assoc] using member
  rcases split with other | reposted
  · have listed : send.descriptor ∈ (rest ++ s.completed ++ s.posted).map Send.descriptor :=
      List.mem_map_of_mem other
    have apart : offsetOf args.rioBuffDescr send.descriptor ≠
        offsetOf args.rioBuffDescr result.descriptor := by
      intro same
      have equal := rioBuffDescr_apart oneGroup (bound _ (List.mem_cons_of_mem _ listed))
        (bound _ List.mem_cons_self) same
      rw [List.nodup_cons] at distinct
      exact distinct.1 (equal ▸ listed)
    rw [SendState.handled_rioBuff_of_ne args now result rest s apart]
    apply intact
    rw [resultsEq]
    exact List.mem_cons_of_mem _ other
  · rw [reposted]
    exact SendState.handled_seq_self args now result rest s

theorem SendStep.intact {s after : SendState} {event : ProducerEvent}
    (oneGroup : args.numberOfMcGroups = 1)
    (held : s.held.Perm (List.range args.maxOutstandingSend)) (intact : s.Intact args)
    (taken : SendStep args s event after) : after.Intact args := by
  cases taken with
  | @complete k send found =>
      intro other member
      apply intact
      have kept : other ∈ s.posted.eraseIdx k → other ∈ s.posted := List.mem_of_mem_eraseIdx
      have posted : send ∈ s.posted := List.mem_of_getElem? found
      simp only [List.mem_append, List.mem_singleton] at member ⊢
      rcases member with (waiting | completed | rfl) | remaining
      · exact .inl (.inl waiting)
      · exact .inl (.inr completed)
      · exact .inr posted
      · exact .inr (kept remaining)
  | take none _ _ =>
      intro other member
      apply intact
      rwa [none, List.nil_append, ← List.take_append_drop _ s.completed]
  | handle resultsEq => exact intact.handled oneGroup held _ resultsEq

theorem SendState.Intact.start :
    (Producer.start args mcAddrBuff clock now).sends.Intact args := by
  have rateBound := args.rate_le
  rw [Producer.start_sends]
  intro send member
  simp only [List.nil_append, firstSends, List.mem_map, List.mem_range] at member
  obtain ⟨i, bound, rfl⟩ := member
  have packet : i / args.numberOfMcGroups < args.rate :=
    (Nat.div_lt_iff_lt_mul args.numberOfMcGroups_pos).mpr bound
  have stamped := fillPackets_seq clock (fun _ => {}) (by omega : 0 + args.rate ≤ 1000000)
    (by omega : i / args.numberOfMcGroups ≤ 1000000)
  rw [if_pos ⟨Nat.zero_le _, by omega⟩] at stamped
  rw [offsetOf_rioBuffDescr args bound, ← stamped]
  rfl

theorem Producer.intact (oneGroup : args.numberOfMcGroups = 1)
    (reached : PartialRun.run (Producer.step args) (Producer.start args mcAddrBuff clock now)
      events = some p) : p.sends.Intact args := by
  have invariant := @Producer.sends_invariant args p
    (fun s => s.held.Perm (List.range args.maxOutstandingSend) ∧ s.Intact args)
    (fun _ _ _ holds taken => ⟨taken.held_perm.trans holds.1,
      taken.intact oneGroup holds.1 holds.2⟩) _ _
    ⟨Producer.held_perm (PartialRun.run_nil _ _), SendState.Intact.start⟩ reached
  exact invariant.2

theorem Carries.seq_eq (oneGroup : args.numberOfMcGroups = 1)
    (reached : PartialRun.run (Producer.step args) (Producer.start args mcAddrBuff clock now)
      events = some p) (short : p.sent.length < 2 ^ 64 - 1) {t : Nat} {packet : Packet}
    (carried : Carries args mcAddrBuff clock now events t packet) :
    packet.header.seq.toNat = t ∧ t < 2 ^ 64 - 1 := by
  obtain ⟨before, state, send, ⟨after, rfl⟩, reachedState, found, posted, header⟩ := carried
  obtain ⟨middle, first, second⟩ := PartialRun.run_prefix reached
  rw [reachedState, Option.some.injEq] at first
  subst first
  have grown := Producer.sent_along second
  have bound := (List.getElem?_eq_some_iff.mp found).1
  have own := Producer.intact oneGroup reachedState send (List.mem_append_right _ posted)
  have stamp := (Producer.stamped reachedState).seq_eq found
  rw [oneGroup, Nat.div_one] at stamp
  have seq : packet.header.seq = UInt64.ofNat t := by
    rw [header, ← stamp]
    exact own
  refine ⟨?_, by omega⟩
  rw [seq, UInt64.toNat_ofNat', Nat.mod_eq_of_lt (by omega)]

theorem seqsOf_delivered (oneGroup : args.numberOfMcGroups = 1)
    (reached : PartialRun.run (Producer.step args) (Producer.start args mcAddrBuff clock now)
      events = some p) (short : p.sent.length < 2 ^ 64 - 1) {delivered : List Nat}
    {stream : List Packet}
    (carried : List.Forall₂ (Carries args mcAddrBuff clock now events) delivered stream) :
    seqsOf stream = delivered ∧ McGroupStats.Bounded stream := by
  induction carried with
  | nil => exact ⟨rfl, by simp [McGroupStats.Bounded]⟩
  | @cons t packet delivered stream first _ ih =>
      obtain ⟨seq, bound⟩ := first.seq_eq oneGroup reached short
      constructor
      · rw [seqsOf, List.map_cons, seq]
        exact congrArg (t :: ·) ih.1
      · intro other member
        rcases List.mem_cons.mp member with rfl | later
        · omega
        · exact ih.2 other later

/-- One group, any order of completions, any loss: the consumer sees nothing out
of order, counts what was delivered, and reports as dropped what was lost
between the first and the last packet delivered. -/
theorem consumer_counts_lossy_delivery (oneGroup : args.numberOfMcGroups = 1)
    (reached : PartialRun.run (Producer.step args) (Producer.start args mcAddrBuff clock now)
      events = some p) (short : p.sent.length < 2 ^ 64 - 1)
    {stats : McGroupStatsMap} {addr : SockaddrInet} (zeroed : groupEntry stats addr.sinAddr = {})
    {delivered : List Nat} {stream : List Packet} (nonempty : delivered ≠ [])
    (increasing : delivered.Pairwise (· < ·))
    (carried : List.Forall₂ (Carries args mcAddrBuff clock now events) delivered stream) :
    let gmc := groupEntry (receiveStream stats addr stream) addr.sinAddr
    gmc.outOfOrder = 0 ∧ gmc.packets.toNat = delivered.length ∧
      stream.getLast?.map (fun packet => packet.header.seq) = some gmc.sequence ∧
      gmc.sequence.toNat = delivered.getLast nonempty ∧
      gmc.rxDropped.toNat = (Finset.Ioo (delivered.head nonempty) (delivered.getLast nonempty) \
        delivered.toFinset).card ∧
      ((∀ t, delivered.head nonempty ≤ t → t ≤ delivered.getLast nonempty → t ∈ delivered) →
        gmc.rxDropped = 0) := by
  simp only [groupEntry_afterStream zeroed]
  obtain ⟨seqs, bounded⟩ := seqsOf_delivered oneGroup reached short carried
  have tracks := McGroupStats.afterStream_tracks stream bounded
  have sizes : stream.length = delivered.length := carried.length_eq.symm
  have none : strays (seqsOf stream) = 0 := by
    rw [seqs]
    exact strays_of_increasing increasing
  have few := length_lt_of_no_strays bounded none
  have last : (McGroupStats.afterStream stream).sequence.toNat = delivered.getLast nonempty := by
    rw [tracks.sequence, seqs, highest_of_increasing increasing nonempty]
  have dropped := McGroupStats.afterStream_rxDropped_of_no_strays stream bounded few none
  rw [seqs, missing_of_increasing increasing nonempty] at dropped
  refine ⟨?_, ?_, ?_, last, dropped, ?_⟩
  · rw [← UInt64.toNat_inj, tracks.outOfOrder, seqs, lates_of_increasing increasing]
    rfl
  · rw [tracks.packets, Nat.mod_eq_of_lt few, sizes]
  · have received : stream ≠ [] := by
      rw [← List.length_pos_iff, sizes]
      exact List.length_pos_of_ne_nil nonempty
    have packetEq := List.getLast?_eq_some_getLast received
    have listed := congrArg List.getLast? seqs
    rw [seqsOf, List.getLast?_map, packetEq, List.getLast?_eq_some_getLast nonempty,
      Option.map_some, Option.some.injEq, ← last] at listed
    rw [packetEq, Option.map_some, UInt64.toNat_inj.mp listed]
  · intro lossless
    rw [← UInt64.toNat_inj, dropped, UInt64.toNat_zero, Finset.card_eq_zero,
      Finset.sdiff_eq_empty_iff_subset]
    intro t between
    rw [Finset.mem_Ioo] at between
    exact List.mem_toFinset.mpr
      (lossless t (Nat.le_of_lt between.1) (Nat.le_of_lt between.2))

/-- Packet 1 of three is lost. -/
theorem consumer_counts_lossy_delivery_one_lost :
    let stream : List Packet := [0, 2].map fun seq => ⟨100, { token := 490, seq := seq }⟩
    (groupEntry (receiveStream ∅ {} stream) 0).rxDropped.toNat = 1 := by
  intro stream
  obtain ⟨p, reached, short⟩ : ∃ p, PartialRun.run (Producer.step oneGroupArgs)
      (Producer.start oneGroupArgs (fun _ => {}) (fun _ => 0) 0) (oneSend ++ oneSend) = some p ∧
      p.sent.length < 2 ^ 64 - 1 := ⟨_, rfl, by decide⟩
  have carried : List.Forall₂
      (Carries oneGroupArgs (fun _ => {}) (fun _ => 0) 0 (oneSend ++ oneSend)) [0, 2] stream := by
    refine .cons ?_ (.cons ?_ .nil)
    · exact ⟨[], _, ⟨0, 0, 0⟩, List.nil_prefix, rfl, rfl, by decide, rfl⟩
    · exact ⟨oneSend ++ oneSend, _, ⟨0, 0, 2⟩, List.prefix_rfl, rfl, rfl, by decide, rfl⟩
  exact (@consumer_counts_lossy_delivery _ _ _ _ _ p rfl reached short ∅ {} (by decide) [0, 2] _
    (by decide) (by decide) carried).2.2.2.2.1

end RioClient
