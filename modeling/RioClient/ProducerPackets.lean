import RioClient.ProducerSequence
import RioClient.RecycledRing

/-!
The packets in flight when sends complete in posting order. The `N` sends of a
round share one packet; handling the first completion of a round stamps it anew,
so the others must be done by then.
-/

namespace RioClient

open RoundRobin ProducerArgs

/-- The `Seq` RIO would read for a send in flight is the one it was posted with. -/
def Producer.PacketsIntact (args : ProducerArgs) (p : Producer) : Prop :=
  ∀ send ∈ p.inFlight, (p.rioBuff (offsetOf args.rioBuffDescr send.descriptor)).seq = send.seq

theorem mem_drop_iff {α : Type} {items : List α} {item : α} {count : Nat} :
    item ∈ items.drop count ↔ ∃ t, count ≤ t ∧ items[t]? = some item := by
  simp only [List.mem_iff_getElem?, List.getElem?_drop]
  constructor
  · rintro ⟨i, found⟩
    exact ⟨count + i, Nat.le_add_right _ _, found⟩
  · rintro ⟨t, later, found⟩
    exact ⟨t - count, by rwa [Nat.add_sub_cancel' later]⟩

def ProducerEvent.Ordered : ProducerEvent → Prop
  | .complete k => k = 0
  | _ => True

/-- The sends not handled yet are the latest ones posted, and the packets hold
the numbers of the latest rounds. -/
structure InLine (args : ProducerArgs) (s : SendState) : Prop where
  enough : args.maxOutstandingSend ≤ s.sent.length
  line : s.results ++ s.completed ++ s.posted =
    s.sent.drop (s.sent.length - args.maxOutstandingSend)
  descriptors : s.sent.map Send.descriptor =
    (List.range s.sent.length).map fun t => t % args.maxOutstandingSend
  packets : ∀ round, round < rounds args.numberOfMcGroups s.sent.length →
    rounds args.numberOfMcGroups s.sent.length ≤ round + args.rate →
    (s.rioBuff (packetOffset (round % args.rate))).seq = UInt64.ofNat round

variable {args : ProducerArgs} {s next : SendState} {event : ProducerEvent}

theorem offsetOf_send (args : ProducerArgs) (t : Nat) :
    offsetOf args.rioBuffDescr (t % args.maxOutstandingSend) =
      packetOffset (t / args.numberOfMcGroups % args.rate) := by
  rw [offsetOf_rioBuffDescr args (Nat.mod_lt _ args.maxOutstandingSend_pos),
    maxOutstandingSend, Nat.mod_mul_left_div_self]

theorem add_maxOutstandingSend_div (args : ProducerArgs) (t : Nat) :
    (t + args.maxOutstandingSend) / args.numberOfMcGroups =
      t / args.numberOfMcGroups + args.rate :=
  Nat.add_mul_div_right _ _ args.numberOfMcGroups_pos

namespace InLine

theorem descriptor_eq (inLine : InLine args s) {t : Nat} {send : Send}
    (found : s.sent[t]? = some send) : send.descriptor = t % args.maxOutstandingSend := by
  have bound := (List.getElem?_eq_some_iff.mp found).1
  have listed := congrArg (fun list => list[t]?) inLine.descriptors
  simp only [List.getElem?_map, found, List.getElem?_range bound, Option.map_some,
    Option.some.injEq] at listed
  exact listed

theorem oldest (inLine : InLine args s) {result : Send} {rest : List Send}
    (resultsEq : s.results = result :: rest) :
    s.sent[s.sent.length - args.maxOutstandingSend]? = some result ∧
      rest ++ s.completed ++ s.posted =
        s.sent.drop (s.sent.length - args.maxOutstandingSend + 1) := by
  have line := inLine.line
  rw [resultsEq, List.cons_append, List.cons_append] at line
  constructor
  · have head := congrArg (fun list => list[0]?) line
    simpa [List.getElem?_drop] using head.symm
  · rw [← List.tail_drop, ← line, List.tail_cons]

theorem oldest_descriptor (inLine : InLine args s) {result : Send} {rest : List Send}
    (resultsEq : s.results = result :: rest) :
    result.descriptor = s.sent.length % args.maxOutstandingSend := by
  rw [inLine.descriptor_eq (inLine.oldest resultsEq).1, ← Nat.mod_eq_sub_mod inLine.enough]

section Handled

variable (now : UInt64) {result : Send} {rest : List Send}

theorem handled_line (inLine : InLine args s) (resultsEq : s.results = result :: rest) :
    rest ++ s.completed ++ (s.posted ++ [s.repost args result]) =
      (s.sent ++ [s.repost args result]).drop (s.sent.length + 1 - args.maxOutstandingSend) := by
  have enough := inLine.enough
  have window := args.maxOutstandingSend_pos
  have shifted : s.sent.length + 1 - args.maxOutstandingSend =
      s.sent.length - args.maxOutstandingSend + 1 := by omega
  rw [shifted, ← List.append_assoc, (inLine.oldest resultsEq).2,
    List.drop_append_of_le_length (by omega)]

/-- The handled packet gets the number of the newest round; the packets of the
other recent rounds are different ones. -/
theorem handled_packets (stamped : Stamped args s) (inLine : InLine args s)
    (resultsEq : s.results = result :: rest) {round : Nat}
    (begun : round < s.sent.length / args.numberOfMcGroups + 1)
    (recent : s.sent.length / args.numberOfMcGroups + 1 ≤ round + args.rate) :
    ((s.handled args now result rest).rioBuff (packetOffset (round % args.rate))).seq =
      UInt64.ofNat round := by
  have written : offsetOf args.rioBuffDescr result.descriptor =
      packetOffset (s.sent.length / args.numberOfMcGroups % args.rate) := by
    rw [inLine.oldest_descriptor resultsEq, offsetOf_send]
  by_cases newest : round = s.sent.length / args.numberOfMcGroups
  · rw [newest, ← written, SendState.handled_seq_self, stamped.sequenceNumber]
  · have apart : packetOffset (round % args.rate) ≠
        offsetOf args.rioBuffDescr result.descriptor := by
      rw [written]
      intro same
      have rateBound := args.rate_le
      have slots := packetOffset_injective
        (Nat.le_trans (Nat.le_of_lt (Nat.mod_lt _ args.rate_positive)) rateBound)
        (Nat.le_trans (Nat.le_of_lt (Nat.mod_lt _ args.rate_positive)) rateBound) same
      exact newest (RecycledRing.eq_of_mod_eq slots (by omega) (by omega))
    have older : s.sent.length / args.numberOfMcGroups ≤
        rounds args.numberOfMcGroups s.sent.length :=
      Nat.div_le_div_right (Nat.le_add_right _ _)
    have known := rounds_le_succ args.numberOfMcGroups_pos s.sent.length
    rw [SendState.handled_rioBuff_of_ne args now result rest s apart]
    exact inLine.packets round (by omega) (by omega)

end Handled

theorem step (stamped : Stamped args s) (inLine : InLine args s) (ordered : event.Ordered)
    (taken : SendStep args s event next) : InLine args next := by
  cases taken with
  | @complete k send found =>
      have first : k = 0 := ordered
      subst first
      obtain ⟨posted, postedEq⟩ : ∃ posted, s.posted = send :: posted := by
        cases postedEq : s.posted with
        | nil => simp [postedEq] at found
        | cons head posted =>
            rw [postedEq, List.getElem?_cons_zero, Option.some.injEq] at found
            exact ⟨posted, by rw [found]⟩
      refine ⟨inLine.enough, ?_, inLine.descriptors, inLine.packets⟩
      have line := inLine.line
      rw [postedEq] at line
      simpa [postedEq] using line
  | take none _ _ =>
      refine ⟨inLine.enough, ?_, inLine.descriptors, inLine.packets⟩
      have line := inLine.line
      rw [none, List.nil_append] at line
      rw [List.take_append_drop]
      exact line
  | @handle now result rest resultsEq =>
      have grown := s.handled_sent_length args now result rest
      refine ⟨?_, ?_, ?_, ?_⟩
      · rw [grown]
        exact Nat.le_succ_of_le inLine.enough
      · rw [grown]
        exact inLine.handled_line resultsEq
      · rw [grown, SendState.handled_sent, List.map_append, List.range_succ, List.map_append,
          inLine.descriptors]
        simp [SendState.repost, inLine.oldest_descriptor resultsEq]
      · rw [grown, rounds_succ args.numberOfMcGroups_pos]
        intro round begun recent
        exact inLine.handled_packets now stamped resultsEq begun recent

theorem inFlight_eq (inLine : InLine args s) :
    s.completed ++ s.posted =
      s.sent.drop (s.sent.length - args.maxOutstandingSend + s.results.length) := by
  rw [← List.drop_drop, ← inLine.line, List.append_assoc, List.drop_left]

/-- What the packet of a send holds: its own number, or that of the next send
that used the packet. -/
theorem packet_seq (inLine : InLine args s) {t : Nat} {send : Send}
    (found : s.sent[t]? = some send) (pending : s.sent.length - args.maxOutstandingSend ≤ t) :
    (s.rioBuff (offsetOf args.rioBuffDescr send.descriptor)).seq =
      if rounds args.numberOfMcGroups s.sent.length ≤ t / args.numberOfMcGroups + args.rate
      then UInt64.ofNat (t / args.numberOfMcGroups)
      else UInt64.ofNat (t / args.numberOfMcGroups + args.rate) := by
  have positive := args.numberOfMcGroups_pos
  have bound := (List.getElem?_eq_some_iff.mp found).1
  rw [inLine.descriptor_eq found, offsetOf_send]
  split
  · rename_i recent
    exact inLine.packets _ (lt_rounds_of_lt positive bound) recent
  · rename_i reused
    have later : s.sent.length / args.numberOfMcGroups ≤
        (t + args.maxOutstandingSend) / args.numberOfMcGroups :=
      Nat.div_le_div_right (by omega)
    rw [add_maxOutstandingSend_div] at later
    have last := rounds_le_succ positive s.sent.length
    have ratePositive := args.rate_positive
    rw [← inLine.packets (t / args.numberOfMcGroups + args.rate) (by omega) (by omega),
      Nat.add_mod_right]

theorem intact_iff (stamped : Stamped args s) (inLine : InLine args s) :
    (∀ send ∈ s.completed ++ s.posted,
        (s.rioBuff (offsetOf args.rioBuffDescr send.descriptor)).seq = send.seq) ↔
      ∀ t, s.sent.length - args.maxOutstandingSend + s.results.length ≤ t → t < s.sent.length →
        rounds args.numberOfMcGroups s.sent.length ≤ t / args.numberOfMcGroups + args.rate := by
  rw [inLine.inFlight_eq]
  constructor
  · intro intact t pending bound
    have found : s.sent[t]? = some s.sent[t] := List.getElem?_eq_getElem bound
    have same := intact _ (mem_drop_iff.mpr ⟨t, pending, found⟩)
    rw [inLine.packet_seq found (by omega), stamped.seq_eq found] at same
    by_contra reused
    rw [if_neg reused] at same
    -- the number of the next send differs by the rate
    have numbers := congrArg UInt64.toNat same
    rw [UInt64.toNat_ofNat', UInt64.toNat_ofNat'] at numbers
    have rateBound := args.rate_le
    have ratePositive := args.rate_positive
    have equal := RecycledRing.eq_of_mod_eq numbers.symm (Nat.le_add_right _ _) (by omega)
    omega
  · intro recent send member
    obtain ⟨t, pending, found⟩ := mem_drop_iff.mp member
    have bound := (List.getElem?_eq_some_iff.mp found).1
    rw [inLine.packet_seq found (by omega), if_pos (recent t pending bound), stamped.seq_eq found]

theorem intact_of_whole (stamped : Stamped args s) (batched : Batched args s)
    (inLine : InLine args s) (whole : WholeRounds args s.batches) :
    ∀ send ∈ s.completed ++ s.posted,
      (s.rioBuff (offsetOf args.rioBuffDescr send.descriptor)).seq = send.seq := by
  rw [inLine.intact_iff stamped]
  intro t pending bound
  obtain ⟨most, least⟩ := batched.covers
  calc rounds args.numberOfMcGroups s.sent.length
      ≤ rounds args.numberOfMcGroups (s.batches.sum + args.maxOutstandingSend) :=
        rounds_mono most
    _ = s.batches.sum / args.numberOfMcGroups + args.rate := by
        rw [rounds_of_dvd args.numberOfMcGroups_pos
          (Nat.dvd_add whole.dvd_sum args.numberOfMcGroups_dvd), add_maxOutstandingSend_div]
    _ ≤ t / args.numberOfMcGroups + args.rate :=
        Nat.add_le_add_right (Nat.div_le_div_right (by omega)) _

theorem dvd_of_intact (stamped : Stamped args s) (inLine : InLine args s)
    (done : s.results = []) (intact : ∀ send ∈ s.completed ++ s.posted,
      (s.rioBuff (offsetOf args.rioBuffDescr send.descriptor)).seq = send.seq) :
    args.numberOfMcGroups ∣ s.sent.length := by
  have enough := inLine.enough
  have window := args.maxOutstandingSend_pos
  have oldest := (inLine.intact_iff stamped).mp intact
    (s.sent.length - args.maxOutstandingSend) (by simp [done]) (by omega)
  rw [← add_maxOutstandingSend_div, Nat.sub_add_cancel enough] at oldest
  exact (rounds_le_div_iff args.numberOfMcGroups_pos).mp oldest

end InLine

variable {mcAddrBuff : UInt32 → SockaddrInet} {clock : Nat → UInt64} {now : Int}
  {events : List ProducerEvent} {p : Producer}

theorem InLine.start : InLine args (Producer.start args mcAddrBuff clock now).sends := by
  rw [Producer.start_sends]
  have rateBound := args.rate_le
  refine ⟨?_, ?_, ?_, ?_⟩
  · rw [firstSends_length]
  · simp [firstSends_length]
  · rw [firstSends_length]
    simp only [firstSends, List.map_map]
    apply List.map_congr_left
    intro i member
    exact (Nat.mod_eq_of_lt (List.mem_range.mp member)).symm
  · rw [firstSends_length, rounds_of_dvd args.numberOfMcGroups_pos args.numberOfMcGroups_dvd,
      args.maxOutstandingSend_div]
    intro round begun _
    have stamped := fillPackets_seq clock (fun _ => {}) (by omega : 0 + args.rate ≤ 1000000)
      (by omega : round ≤ 1000000)
    rw [if_pos ⟨Nat.zero_le _, by omega⟩] at stamped
    rw [Nat.mod_eq_of_lt begun, ← stamped]
    rfl

theorem Producer.inLine (reached : PartialRun.run (Producer.step args)
      (Producer.start args mcAddrBuff clock now) events = some p)
    (ordered : ∀ event ∈ events, event.Ordered) : InLine args p.sends := by
  have invariant := @Producer.sends_invariant_along args p
    (fun s => Stamped args s ∧ InLine args s) ProducerEvent.Ordered
    (fun _ _ _ holds meets taken => ⟨holds.1.step taken, holds.2.step holds.1 meets taken⟩) _ _
    ⟨Producer.stamped (PartialRun.run_nil _ _), InLine.start⟩ ordered reached
  exact invariant.2

theorem Producer.batches_prefix {first : Producer}
    (reached : PartialRun.run (Producer.step args) first events = some p) :
    first.batches <+: p.batches := by
  refine @Producer.sends_invariant args p (fun s => first.batches <+: s.batches) ?_ _ _
    List.prefix_rfl reached
  intro s event next grown taken
  cases taken with
  | complete | take => exact grown
  | handle resultsEq =>
      rw [SendState.handled_batches]
      split
      · exact grown.trans (List.prefix_append _ _)
      · exact grown

theorem SendStep.whole (taken : SendStep args s event next)
    (before : WholeRounds args s.batches.dropLast)
    (between : s.index = 0 → WholeRounds args s.batches) :
    WholeRounds args next.batches.dropLast ∧
      (next.index = 0 → next.results ≠ [] → WholeRounds args next.batches) := by
  cases taken with
  | complete | take => exact ⟨before, fun atStart _ => between atStart⟩
  | @handle now result rest resultsEq =>
      rw [SendState.handled_batches, SendState.handled_index, SendState.handled_results]
      constructor
      · split
        · rename_i atStart
          rw [List.dropLast_concat]
          exact between atStart
        · exact before
      · intro atStart more
        simp [more] at atStart

theorem Producer.whole_of_intact (reached : PartialRun.run (Producer.step args)
      (Producer.start args mcAddrBuff clock now) events = some p) :
    (∀ event ∈ events, event.Ordered) →
    PartialRun.Always (Producer.step args) (fun p => p.PacketsIntact args)
      (Producer.start args mcAddrBuff clock now) events →
    WholeRounds args p.sends.batches.dropLast ∧
      (p.sends.index = 0 → WholeRounds args p.sends.batches) := by
  refine PartialRun.run_induction ?initially ?extended reached
  case initially =>
      intro _ _
      rw [Producer.start_sends]
      simp [WholeRounds]
  case extended =>
      intro events p event next before ih taken ordered always
      have orderedBefore : ∀ event ∈ events, event.Ordered :=
        fun event member => ordered event (List.mem_append_left _ member)
      obtain ⟨wholeBefore, wholeBetween⟩ :=
        ih orderedBefore (always.mono (List.prefix_append _ _))
      rcases Producer.sendStep taken with same | changed
      · rw [same]
        exact ⟨wholeBefore, wholeBetween⟩
      · obtain ⟨wholeNext, waiting⟩ := changed.whole wholeBefore wholeBetween
        refine ⟨wholeNext, fun atStart => ?_⟩
        by_cases done : next.sends.results = []
        · -- the batch is done: intact packets mean that it ended with a round
          have reachedNext : PartialRun.run (Producer.step args)
              (Producer.start args mcAddrBuff clock now) (events ++ [event]) = some next := by
            rw [PartialRun.run_snoc, before]
            exact taken
          have complete := (Producer.inLine reachedNext ordered).dvd_of_intact
            (Producer.stamped reachedNext) done (always.last reachedNext)
          rw [(Producer.batched reachedNext).between atStart,
            Nat.dvd_add_right args.numberOfMcGroups_dvd] at complete
          exact wholeNext.of_dropLast complete
        · exact waiting atStart done

/-- In posting order, every send's `Seq` stays as posted until its completion is
dequeued, in every state of a run whose batches are whole numbers of rounds; and
a run that comes to the loop head with all packets intact on the way had no other batches. -/
theorem packetsIntact_wholeRounds (reached : PartialRun.run (Producer.step args)
      (Producer.start args mcAddrBuff clock now) events = some p)
    (ordered : ∀ event ∈ events, event.Ordered) :
    (WholeRounds args p.batches →
      PartialRun.Always (Producer.step args) (fun p => p.PacketsIntact args)
        (Producer.start args mcAddrBuff clock now) events) ∧
    (p.control = .loopHead →
      PartialRun.Always (Producer.step args) (fun p => p.PacketsIntact args)
        (Producer.start args mcAddrBuff clock now) events →
      WholeRounds args p.batches) := by
  constructor
  · rintro whole before state ⟨after, rfl⟩ reachedState
    obtain ⟨middle, first, second⟩ := PartialRun.run_prefix reached
    rw [reachedState, Option.some.injEq] at first
    subst first
    have orderedBefore : ∀ event ∈ before, event.Ordered :=
      fun event member => ordered event (List.mem_append_left _ member)
    have wholeBefore : WholeRounds args state.sends.batches :=
      fun n member => whole n ((Producer.batches_prefix second).subset member)
    exact (Producer.inLine reachedState orderedBefore).intact_of_whole
      (Producer.stamped reachedState) (Producer.batched reachedState) wholeBefore
  · intro atHead always
    exact (Producer.whole_of_intact reached ordered always).2 (by
      simp [Producer.sends, Producer.index, atHead])

theorem packetsIntact_wholeRounds_two_groups :
    PartialRun.Always (Producer.step twoGroupArgs) (fun p => p.PacketsIntact twoGroupArgs)
      (Producer.start twoGroupArgs (fun _ => {}) (fun _ => 0) 0)
      ([.complete 0, .complete 0] ++ nextBatch 2 ++ [.handle 0, .handle 0]) := by
  obtain ⟨p, reached, whole⟩ : ∃ p, PartialRun.run (Producer.step twoGroupArgs)
        (Producer.start twoGroupArgs (fun _ => {}) (fun _ => 0) 0)
        ([.complete 0, .complete 0] ++ nextBatch 2 ++ [.handle 0, .handle 0]) = some p ∧
      WholeRounds twoGroupArgs p.batches := ⟨_, rfl, by decide⟩
  exact (packetsIntact_wholeRounds reached (by simp [ProducerEvent.Ordered, nextBatch])).1 whole

/-- A batch of one of the two sends of a round: the other one is still in flight
with number 0 when their packet is stamped 1. -/
theorem packetsIntact_broken_by_split_round :
    ∃ p, PartialRun.run (Producer.step twoGroupArgs)
        (Producer.start twoGroupArgs (fun _ => {}) (fun _ => 0) 0)
        ([.complete 0] ++ nextBatch 1 ++ [.handle 0]) = some p ∧
      ⟨1, 1, 0⟩ ∈ p.inFlight ∧
      (p.rioBuff (offsetOf twoGroupArgs.rioBuffDescr 1)).seq = 1 ∧
      ¬p.PacketsIntact twoGroupArgs := by
  refine ⟨_, rfl, by decide, by decide, ?_⟩
  intro intact
  exact absurd (intact ⟨1, 1, 0⟩ (by decide)) (by decide)

end RioClient
