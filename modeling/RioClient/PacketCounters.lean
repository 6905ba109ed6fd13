import RioClient.ConsumerRuns
import RioClient.GroupTotals
import RioClient.ProducerSequence

/-!
`m_TotalPkts` against the packets handled. It has 32 bits where all counters
next to it have 64, so it is the number of packets only until it wraps.
-/

namespace RioClient

open KeyedTotals

theorem ofNat_eq_iff (count : Nat) : (UInt32.ofNat count).toNat = count ↔ count < 2 ^ 32 := by
  rw [UInt32.toNat_ofNat']
  constructor
  · intro same
    rw [← same]
    exact Nat.mod_lt _ (by decide)
  · exact Nat.mod_eq_of_lt

structure Consumer.Counted (c : Consumer) : Prop where
  totalPkts : c.totalPkts = UInt32.ofNat c.handled.length
  packets : c.packetCounter = UInt64.ofNat (c.handled.countP Completion.expected)
  others : c.otherPacketCounter =
    UInt64.ofNat (c.handled.countP fun completion => !completion.expected)

/-- The counters as `Start` reads them: the total is exact, and zero only before
the first packet. -/
structure Consumer.CountsPackets (c : Consumer) : Prop where
  totalPkts : c.totalPkts.toNat = c.handled.length
  split : c.packetCounter.toNat + c.otherPacketCounter.toNat = c.handled.length
  first : c.totalPkts = 0 ↔ c.handled = []

def Consumer.overwritesStart (c : Consumer) : ConsumerEvent → Bool
  | .dequeue count _ => 0 < count && c.totalPkts = 0
  | _ => false

def packetsSum (stats : McGroupStatsMap) : Nat := total (fun _ gmc => gmc.packets.toNat) stats

theorem groupStatsSent_eq_modify (stats : McGroupStatsMap) (addr : SockaddrInet)
    (pktSize : UInt64) :
    groupStatsSent stats addr pktSize =
      modify stats addr.sinAddr {} fun gmc => gmc.updateSent pktSize := rfl

theorem packetsSum_groupStatsSent (stats : McGroupStatsMap) (addr : SockaddrInet)
    (pktSize : UInt64) :
    packetsSum (groupStatsSent stats addr pktSize) ≡ packetsSum stats + 1 [MOD 2 ^ 64] ∧
      packetsSum (groupStatsSent stats addr pktSize) ≤ packetsSum stats + 1 := by
  rw [groupStatsSent_eq_modify]
  constructor
  · apply total_modify_modEq rfl
    rw [McGroupStats.updateSent, UInt64.toNat_add]
    exact Nat.mod_modEq _ _
  · apply total_modify_le rfl
    rw [McGroupStats.updateSent, UInt64.toNat_add]
    exact Nat.mod_le _ _

structure Producer.Counted (p : Producer) : Prop where
  totalPkts : p.totalPkts = UInt32.ofNat p.sent.length
  groups : packetsSum p.groupStats ≡ p.sent.length [MOD 2 ^ 64]
  bound : packetsSum p.groupStats ≤ p.sent.length

structure Producer.CountsPackets (p : Producer) : Prop where
  totalPkts : p.totalPkts.toNat = p.sent.length
  groups : packetsSum p.groupStats = p.sent.length

namespace Consumer

variable {args : Args} {maxOutstandingReceive : UInt32} {c next : Consumer}

theorem Counted.handled (counted : c.Counted) (result : Completion) :
    (c.handleCompletion maxOutstandingReceive result).Counted := by
  by_cases expected : result.datagram.bytesTransferred = expectedDataSize
  · have mine : result.expected = true := by simpa [Completion.expected, Datagram.expected]
    constructor
    · simp [handleCompletion, expected, counted.totalPkts, UInt32.ofNat_add]
    · simp [handleCompletion, expected, counted.packets, List.countP_append, mine,
        UInt64.ofNat_add]
    · simp [handleCompletion, expected, counted.others, List.countP_append, mine]
  · have other : result.expected = false := by simpa [Completion.expected, Datagram.expected]
    constructor
    · simp [handleCompletion, expected, counted.totalPkts, UInt32.ofNat_add]
    · simp [handleCompletion, expected, counted.packets, List.countP_append, other]
    · simp [handleCompletion, expected, counted.others, List.countP_append, other,
        UInt64.ofNat_add]

theorem Counted.step {event : ConsumerEvent} (counted : c.Counted)
    (taken : ConsumerStep maxOutstandingReceive c event next) : next.Counted := by
  cases taken with
  | handled | handledLast =>
      have after := @Counted.handled maxOutstandingReceive _ counted
      exact ⟨(after _).totalPkts, (after _).packets, (after _).others⟩
  | _ => exact ⟨counted.totalPkts, counted.packets, counted.others⟩

theorem counted {now : Int} {events : List ConsumerEvent}
    (reached : PartialRun.run (step args maxOutstandingReceive)
      (start args maxOutstandingReceive now) events = some c) : c.Counted :=
  PartialRun.run_invariant (fun _ _ _ counted taken => counted.step (step_cases taken))
    ⟨rfl, rfl, rfl⟩ reached

theorem Counted.exact (counted : c.Counted) (short : c.handled.length < 2 ^ 32) :
    c.CountsPackets := by
  have total : c.totalPkts.toNat = c.handled.length := by
    rw [counted.totalPkts, ofNat_eq_iff]
    exact short
  have parts : c.handled.length = c.handled.countP Completion.expected +
      c.handled.countP (fun completion => !completion.expected) := by
    simpa using List.length_eq_countP_add_countP (l := c.handled) Completion.expected
  refine ⟨total, ?_, ?_⟩
  · rw [counted.packets, counted.others, UInt64.toNat_ofNat', UInt64.toNat_ofNat',
      Nat.mod_eq_of_lt (by omega), Nat.mod_eq_of_lt (by omega), ← parts]
  · rw [← UInt32.toNat_inj, total, UInt32.toNat_zero, List.length_eq_zero_iff]

theorem handled_grows {event : ConsumerEvent}
    (taken : ConsumerStep maxOutstandingReceive c event next) :
    c.handled.length ≤ next.handled.length := by
  have handling (result : Completion) :
      c.handled.length ≤ (c.handleCompletion maxOutstandingReceive result).handled.length := by
    simp only [handleCompletion]
    split <;> simp
  cases taken with
  | handled | handledLast => exact handling _
  | _ => exact Nat.le_refl _

theorem handled_along {events : List ConsumerEvent}
    (reached : PartialRun.run (step args maxOutstandingReceive) c events = some next) :
    c.handled.length ≤ next.handled.length :=
  @PartialRun.run_invariant _ _ _ (fun later => c.handled.length ≤ later.handled.length)
    (fun _ _ _ grown taken => Nat.le_trans grown (handled_grows (step_cases taken)))
    _ _ _ (Nat.le_refl _) reached

theorem handled_ne_nil (result : Completion) :
    (c.handleCompletion maxOutstandingReceive result).handled ≠ [] := by
  simp only [handleCompletion]
  split <;> simp

theorem before_untouched {event : ConsumerEvent}
    (taken : ConsumerStep maxOutstandingReceive c event next)
    (noneHandled : next.handled = []) (noneDequeued : next.results = []) :
    c.handled = [] ∧ c.results = [] ∧ c.overwritesStart event = false := by
  cases taken with
  | datagram => exact ⟨noneHandled, noneDequeued, rfl⟩
  | goOn control | stop control | notified control | notifyFailed control | notNotified control
  | packet control | timeout control | empty control | corrupt control =>
      exact ⟨noneHandled, by simp [results, control], rfl⟩
  | @dequeued count _ _ _ positive dequeues =>
      have sizes := congrArg List.length noneDequeued
      simp only [results, List.length_take, List.length_nil] at sizes
      have available := dequeues.2.1
      omega
  | handled | handledLast => exact absurd noneHandled (handled_ne_nil _)

theorem overwritesStart_dequeue {event : ConsumerEvent}
    (taken : ConsumerStep maxOutstandingReceive c event next)
    (overwrites : c.overwritesStart event = true) : c.totalPkts = 0 ∧ c.results = [] := by
  cases taken with
  | dequeued control =>
      simp only [overwritesStart, Bool.and_eq_true, decide_eq_true_eq] at overwrites
      exact ⟨overwrites.2, by simp [results, control]⟩
  | _ => simp [overwritesStart] at overwrites

theorem overwritten_once {now : Int} {events : List ConsumerEvent}
    (reached : PartialRun.run (step args maxOutstandingReceive)
      (start args maxOutstandingReceive now) events = some c) :
    c.handled.length < 2 ^ 32 →
      PartialRun.countSteps (step args maxOutstandingReceive) overwritesStart
        (start args maxOutstandingReceive now) events ≤ 1 ∧
      (c.handled = [] → c.results = [] →
        PartialRun.countSteps (step args maxOutstandingReceive) overwritesStart
          (start args maxOutstandingReceive now) events = 0) := by
  refine PartialRun.run_induction ?initially ?extended reached
  case initially => exact fun _ => ⟨Nat.zero_le _, fun _ _ => rfl⟩
  case extended =>
      intro events c event next before ih taken short
      have stepped := step_cases taken
      obtain ⟨once, untouched⟩ := ih (Nat.lt_of_le_of_lt (handled_grows stepped) short)
      rw [PartialRun.countSteps_snoc overwritesStart event before]
      constructor
      · split
        · rename_i overwrites
          obtain ⟨zero, noneDequeued⟩ := overwritesStart_dequeue stepped overwrites
          have exact := (counted before).exact (Nat.lt_of_le_of_lt (handled_grows stepped) short)
          rw [untouched (exact.first.mp zero) noneDequeued]
        · exact once
      · intro noneHandled noneDequeued
        obtain ⟨handledBefore, dequeuedBefore, quiet⟩ :=
          before_untouched stepped noneHandled noneDequeued
        rw [untouched handledBefore dequeuedBefore, quiet]
        rfl

end Consumer

namespace Producer

variable {args : ProducerArgs} {p next : Producer}

theorem Counted.send (counted : p.Counted) (descriptor address : Nat) :
    (p.send args descriptor address).Counted := by
  constructor
  · simp [Producer.send, counted.totalPkts, UInt32.ofNat_add]
  · simp only [Producer.send, List.length_append, List.length_singleton]
    exact (packetsSum_groupStatsSent _ _ _).1.trans (counted.groups.add_right 1)
  · simp only [Producer.send, List.length_append, List.length_singleton]
    exact Nat.le_trans (packetsSum_groupStatsSent _ _ _).2 (Nat.add_le_add_right counted.bound 1)

theorem Counted.step {event : ProducerEvent} (counted : p.Counted)
    (taken : ProducerStep args p event next) : next.Counted := by
  cases taken with
  | @handled now i result rest =>
      have after (rioBuff : UInt32 → ProtocolHeader) : (Producer.send args result.descriptor
          (i % args.numberOfMcGroups) { p with rioBuff }).Counted :=
        @Counted.send args { p with rioBuff }
          ⟨counted.totalPkts, counted.groups, counted.bound⟩ _ _
      exact ⟨(after _).totalPkts, (after _).groups, (after _).bound⟩
  | _ => exact ⟨counted.totalPkts, counted.groups, counted.bound⟩

theorem Counted.start (mcAddrBuff : UInt32 → SockaddrInet) (clock : Nat → UInt64) (now : Int) :
    (Producer.start args mcAddrBuff clock now).Counted := by
  have none : packetsSum (initGroupStats args.mcastAddrStr) = 0 :=
    total_initGroupStats (fun _ => rfl) args.mcastAddrStr
  refine start_of_sends ⟨rfl, ?_, ?_⟩ ?_ ?_
  · rw [none]
    rfl
  · rw [none]
    exact Nat.zero_le _
  · exact fun _ descriptor address counted => counted.send descriptor address
  · exact fun _ _ counted => ⟨counted.totalPkts, counted.groups, counted.bound⟩

theorem counted {mcAddrBuff : UInt32 → SockaddrInet} {clock : Nat → UInt64} {now : Int}
    {events : List ProducerEvent}
    (reached : PartialRun.run (step args) (start args mcAddrBuff clock now) events = some p) :
    p.Counted :=
  PartialRun.run_invariant (fun _ _ _ counted taken => counted.step (step_cases taken))
    (Counted.start mcAddrBuff clock now) reached

theorem Counted.exact (counted : p.Counted) (short : p.sent.length < 2 ^ 32) :
    p.CountsPackets := by
  have groups := counted.groups
  have bound := counted.bound
  refine ⟨?_, ?_⟩
  · rw [counted.totalPkts, ofNat_eq_iff]
    exact short
  · rwa [Nat.ModEq, Nat.mod_eq_of_lt (by omega), Nat.mod_eq_of_lt (by omega)] at groups

end Producer

section Exact

variable {args : Args} {maxOutstandingReceive : UInt32} {now : Int}
  {consumerEvents : List ConsumerEvent} {c : Consumer} {producerArgs : ProducerArgs}
  {mcAddrBuff : UInt32 → SockaddrInet} {clock : Nat → UInt64}
  {producerEvents : List ProducerEvent} {p : Producer}

theorem Consumer.always_counts (reached : PartialRun.run (Consumer.step args maxOutstandingReceive)
      (Consumer.start args maxOutstandingReceive now) consumerEvents = some c)
    (short : c.handled.length < 2 ^ 32) :
    PartialRun.Always (Consumer.step args maxOutstandingReceive) Consumer.CountsPackets
      (Consumer.start args maxOutstandingReceive now) consumerEvents := by
  rintro before state ⟨after, rfl⟩ reachedState
  obtain ⟨middle, first, second⟩ := PartialRun.run_prefix reached
  rw [reachedState, Option.some.injEq] at first
  subst first
  exact (Consumer.counted reachedState).exact
    (Nat.lt_of_le_of_lt (Consumer.handled_along second) short)

theorem Producer.always_counts (reached : PartialRun.run (Producer.step producerArgs)
      (Producer.start producerArgs mcAddrBuff clock now) producerEvents = some p)
    (short : p.sent.length < 2 ^ 32) :
    PartialRun.Always (Producer.step producerArgs) Producer.CountsPackets
      (Producer.start producerArgs mcAddrBuff clock now) producerEvents := by
  rintro before state ⟨after, rfl⟩ reachedState
  obtain ⟨middle, first, second⟩ := PartialRun.run_prefix reached
  rw [reachedState, Option.some.injEq] at first
  subst first
  exact (Producer.counted reachedState).exact
    (Nat.lt_of_le_of_lt (Producer.sent_along second) short)

/-- On both sides the total is the number of packets in every state of a run, and
the consumer's start time is overwritten once, exactly as long as fewer than
2^32 packets were handled. -/
theorem totalPkts_counts_iff
    (received : PartialRun.run (Consumer.step args maxOutstandingReceive)
      (Consumer.start args maxOutstandingReceive now) consumerEvents = some c)
    (sent : PartialRun.run (Producer.step producerArgs)
      (Producer.start producerArgs mcAddrBuff clock now) producerEvents = some p) :
    (PartialRun.Always (Consumer.step args maxOutstandingReceive) Consumer.CountsPackets
        (Consumer.start args maxOutstandingReceive now) consumerEvents ∧
      PartialRun.countSteps (Consumer.step args maxOutstandingReceive) Consumer.overwritesStart
        (Consumer.start args maxOutstandingReceive now) consumerEvents ≤ 1 ↔
      c.handled.length < 2 ^ 32) ∧
    (PartialRun.Always (Producer.step producerArgs) Producer.CountsPackets
        (Producer.start producerArgs mcAddrBuff clock now) producerEvents ↔
      p.sent.length < 2 ^ 32) := by
  refine ⟨⟨?_, ?_⟩, ⟨?_, Producer.always_counts sent⟩⟩
  · rintro ⟨always, -⟩
    have total := (always.last received).totalPkts
    rwa [(Consumer.counted received).totalPkts, ofNat_eq_iff] at total
  · intro short
    exact ⟨Consumer.always_counts received short, (Consumer.overwritten_once received short).1⟩
  · intro always
    have total := (always.last sent).totalPkts
    rwa [(Producer.counted sent).totalPkts, ofNat_eq_iff] at total

end Exact

theorem totalPkts_counts_iff_first_packets :
    ∃ c p, PartialRun.run (Consumer.step unlimitedArgs maxPendingRecvs)
        (Consumer.start unlimitedArgs maxPendingRecvs 0)
        ([datagramTo 38077935 50].flatMap oneDatagram) = some c ∧
      PartialRun.run (Producer.step twoGroupArgs)
        (Producer.start twoGroupArgs (fun _ => {}) (fun _ => 0) 0)
        ([.complete 0] ++ nextBatch 1) = some p ∧
      PartialRun.Always (Consumer.step unlimitedArgs maxPendingRecvs) Consumer.CountsPackets
        (Consumer.start unlimitedArgs maxPendingRecvs 0)
        ([datagramTo 38077935 50].flatMap oneDatagram) ∧
      PartialRun.Always (Producer.step twoGroupArgs) Producer.CountsPackets
        (Producer.start twoGroupArgs (fun _ => {}) (fun _ => 0) 0)
        ([.complete 0] ++ nextBatch 1) := by
  obtain ⟨c, received, -, handled⟩ := Consumer.quiet_run maxPendingRecvs
    [datagramTo 38077935 50] (by decide)
  have one : c.handled.length = 1 := by
    rw [← List.length_map, handled]
    rfl
  obtain ⟨p, sent, short⟩ : ∃ p, PartialRun.run (Producer.step twoGroupArgs)
      (Producer.start twoGroupArgs (fun _ => {}) (fun _ => 0) 0)
      ([.complete 0] ++ nextBatch 1) = some p ∧ p.sent.length < 2 ^ 32 := ⟨_, rfl, by decide⟩
  have exact := totalPkts_counts_iff received sent
  exact ⟨c, p, received, sent, (exact.1.mpr (by omega)).1, exact.2.mpr short⟩

/-- After 2^32 packets the total is zero again. -/
theorem totalPkts_wraps :
    ∃ events c, PartialRun.run (Consumer.step unlimitedArgs maxPendingRecvs)
        (Consumer.start unlimitedArgs maxPendingRecvs 0) events = some c ∧
      unlimitedArgs.pktsToCount = 0 ∧ c.control = .loopHead ∧
      c.handled.length = 2 ^ 32 ∧ c.totalPkts = 0 ∧ c.totalPkts.toNat ≠ c.handled.length := by
  have every : ∀ datagram ∈ List.replicate (2 ^ 32) (datagramTo 38077935 100),
      datagram.expected = true := by
    intro datagram member
    rw [List.eq_of_mem_replicate member]
    decide
  obtain ⟨c, reached, idle, handled⟩ := Consumer.quiet_run maxPendingRecvs
    (List.replicate (2 ^ 32) (datagramTo 38077935 100)) (by
      rw [List.countP_eq_length.mpr every]
      exact Nat.lt_add_of_pos_left (by decide))
  have size : c.handled.length = 2 ^ 32 := by
    rw [← List.length_map, handled, List.length_replicate]
  have zero : c.totalPkts = 0 := by
    rw [(Consumer.counted reached).totalPkts, size]
    rfl
  refine ⟨_, c, reached, rfl, idle.atHead, size, zero, ?_⟩
  rw [zero, size]
  decide

end RioClient
