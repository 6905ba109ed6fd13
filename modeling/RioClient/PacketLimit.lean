import RioClient.BatchedLoop
import RioClient.PacketCounters
import RioClient.ProducerRuns
import RioClient.StopDecision

/-!
The packet limit of both sessions. Their loops are batched loops on the number of
packets handled, as long as the 32-bit total that they test is that number.
-/

namespace RioClient

open BatchedLoop

def StopsOnPackets (args : Args) (exitSignal : Bool) (now : Int) (totalPkts : UInt32)
    (timing : Timing) : Prop :=
  (shouldStop args exitSignal now totalPkts timing).1 = false ∧
    (shouldStop { args with pktsToCount := 0 } exitSignal now totalPkts timing).1 = true

section
variable {args : Args} {exitSignal : Bool} {now : Int} {totalPkts : UInt32} {timing : Timing}

theorem pktsToCount_le_of_stops
    (stops : StopsOnPackets args exitSignal now totalPkts timing) :
    args.pktsToCount.toNat ≤ totalPkts.toNat := by
  obtain ⟨stopped, unlimited⟩ := stops
  by_contra below
  have packets : totalPkts.toUInt64 < args.pktsToCount := by
    rw [UInt64.lt_iff_toNat_lt, UInt32.toNat_toUInt64]
    exact Nat.not_le.mp below
  simp only [shouldStop, Bool.and_eq_true, reduceIte] at unlimited
  simp [shouldStop, packets, unlimited] at stopped

theorem totalPkts_lt_of_goesOn (limited : 0 < args.pktsToCount.toNat)
    (goesOn : (shouldStop args exitSignal now totalPkts timing).1 = true) :
    totalPkts.toNat < args.pktsToCount.toNat := by
  have limited : args.pktsToCount ≠ 0 := by
    intro zero
    simp [zero] at limited
  simp only [shouldStop, Bool.and_eq_true, if_neg limited, decide_eq_true_eq,
    UInt64.lt_iff_toNat_lt, UInt32.toNat_toUInt64] at goesOn
  exact goesOn.1.2

end

namespace Consumer

variable {args : Args} {maxOutstandingReceive : UInt32} {c next : Consumer}

def loop (c : Consumer) : LoopState where
  phase := match c.control with
    | .loopHead => .head
    | .notify | .wait | .dequeue => .inside
    | .handling results => .handling results.length
    | .stopped | .notifyFailed => .left
  count := c.handled.length

theorem handleCompletion_handled (result : Completion) :
    (c.handleCompletion maxOutstandingReceive result).handled = c.handled ++ [result] := by
  simp only [handleCompletion]
  split <;> rfl

theorem goesOn_of_notify {exitSignal : Bool} {now : Int}
    (taken : c.step args maxOutstandingReceive (.shouldStop exitSignal now) = some next)
    (onwards : next.control = .notify) :
    (shouldStop args exitSignal now c.totalPkts c.timing).1 = true := by
  rw [checkStop_eq taken] at onwards
  by_contra stopped
  simp [stopped] at onwards

theorem loopStep {event : ConsumerEvent} (limited : 0 < args.pktsToCount.toNat)
    (counts : c.totalPkts.toNat = c.handled.length)
    (taken : c.step args maxOutstandingReceive event = some next) :
    next.loop = c.loop ∨ Step args.pktsToCount.toNat maxRioResults c.loop next.loop := by
  cases step_cases taken with
  | datagram => exact .inl rfl
  | goOn atHead =>
      have below := totalPkts_lt_of_goesOn limited (goesOn_of_notify taken rfl)
      rw [counts] at below
      right
      simpa [loop, atHead] using Step.enter below
  | stop atHead =>
      right
      simpa [loop, atHead] using Step.leave
  | notified control | notNotified control | packet control | timeout control =>
      left
      simp [loop, control]
  | notifyFailed control =>
      right
      simpa [loop, control] using Step.quit
  | empty control | corrupt control =>
      right
      simpa [loop, control] using Step.again
  | dequeued control positive dequeues =>
      right
      have size := List.length_take_of_le dequeues.2.1
      simpa [loop, control, size] using Step.take dequeues.1
  | @handled result following rest control =>
      right
      simpa [loop, control, handleCompletion_handled] using
        @Step.handle _ _ c.handled.length (rest.length + 1)
  | handledLast control =>
      right
      simpa [loop, control, handleCompletion_handled] using Step.finish

theorem bounded {now : Int} {events : List ConsumerEvent} (limited : 0 < args.pktsToCount.toNat)
    (fits : args.pktsToCount.toNat + maxRioResults ≤ 2 ^ 32)
    (reached : PartialRun.run (step args maxOutstandingReceive)
      (start args maxOutstandingReceive now) events = some c) :
    Bounded args.pktsToCount.toNat maxRioResults c.loop := by
  refine PartialRun.run_induction ?initially ?extended reached
  case initially => exact Nat.add_pos_right _ (by decide)
  case extended =>
      intro events c event next before bounded taken
      have short : c.handled.length < 2 ^ 32 := Nat.lt_of_lt_of_le bounded.count_lt fits
      have counts := ((counted before).exact short).totalPkts
      rcases loopStep limited counts taken with same | stepped
      · exact same ▸ bounded
      · exact bounded.step stepped

theorem always_bounded {now : Int} {events : List ConsumerEvent}
    (limited : 0 < args.pktsToCount.toNat)
    (fits : args.pktsToCount.toNat + maxRioResults ≤ 2 ^ 32) :
    PartialRun.Always (step args maxOutstandingReceive)
      (fun c => c.totalPkts.toNat = c.handled.length ∧
        c.handled.length < args.pktsToCount.toNat + maxRioResults)
      (start args maxOutstandingReceive now) events := by
  intro before c _ reached
  have room := (bounded limited fits reached).count_lt
  exact ⟨((counted reached).exact (Nat.lt_of_lt_of_le room fits)).totalPkts, room⟩

def LeavesOnPackets (args : Args) (maxOutstandingReceive : UInt32) (c next : Consumer) : Prop :=
  ∃ exitSignal now, c.step args maxOutstandingReceive (.shouldStop exitSignal now) = some next ∧
    StopsOnPackets args exitSignal now c.totalPkts c.timing

theorem LeavesOnPackets.limit_reached (left : LeavesOnPackets args maxOutstandingReceive c next) :
    next.control = .stopped ∧ next.handled = c.handled ∧
      args.pktsToCount.toNat ≤ c.totalPkts.toNat := by
  obtain ⟨exitSignal, now, taken, stops⟩ := left
  have limit := pktsToCount_le_of_stops stops
  rw [checkStop_eq taken]
  exact ⟨by simp [stops.1], rfl, limit⟩

end Consumer

namespace Producer

variable {args : ProducerArgs} {p next : Producer}

def loop (p : Producer) : LoopState where
  phase := match p.control with
    | .loopHead => .head
    | .notify | .wait | .dequeue => .inside
    | .handling _ results => .handling results.length
    | .stopped | .notifyFailed | .dequeueFailed => .left
  count := p.sent.length

theorem checkStop_eq {exitSignal : Bool} {now : Int}
    (taken : p.step args (.shouldStop exitSignal now) = some next) :
    next = { p with
      control := if (shouldStop args.toArgs exitSignal now p.totalPkts p.timing).1 then .notify
        else .stopped
      timing := p.timing.setStop now } := by
  simp only [step, checkStop] at taken
  split at taken
  · cases taken
    rfl
  · simp at taken

theorem goesOn_of_notify {exitSignal : Bool} {now : Int}
    (taken : p.step args (.shouldStop exitSignal now) = some next)
    (onwards : next.control = .notify) :
    (shouldStop args.toArgs exitSignal now p.totalPkts p.timing).1 = true := by
  rw [checkStop_eq taken] at onwards
  by_contra stopped
  simp [stopped] at onwards

theorem handleCompletion_sent (now : UInt64) (i : Nat) (result : Send) :
    (p.handleCompletion args now i result).sent.length = p.sent.length + 1 := by
  simp [handleCompletion, send]

theorem loopStep {event : ProducerEvent} (limited : 0 < args.pktsToCount.toNat)
    (counts : p.totalPkts.toNat = p.sent.length) (taken : p.step args event = some next) :
    next.loop = p.loop ∨
      Step args.pktsToCount.toNat args.maxOutstandingSend p.loop next.loop := by
  cases step_cases taken with
  | complete => exact .inl rfl
  | goOn atHead =>
      have below := totalPkts_lt_of_goesOn limited (goesOn_of_notify taken rfl)
      rw [counts] at below
      right
      simpa [loop, atHead] using Step.enter below
  | stop atHead =>
      right
      simpa [loop, atHead] using Step.leave
  | notified control | packet control =>
      left
      simp [loop, control]
  | notifyFailed control | empty control | corrupt control =>
      right
      simpa [loop, control] using Step.quit
  | dequeued control positive dequeues =>
      right
      have size := List.length_take_of_le dequeues.2.1
      simpa [loop, control, size] using Step.take dequeues.1
  | @handled now i result rest control =>
      right
      cases rest with
      | nil => simpa [loop, control, handleCompletion_sent] using Step.finish
      | cons following rest =>
          simpa [loop, control, handleCompletion_sent] using
            @Step.handle _ _ p.sent.length (rest.length + 1)

variable {mcAddrBuff : UInt32 → SockaddrInet} {clock : Nat → UInt64} {now : Int}
  {events : List ProducerEvent}

theorem start_loop : (start args mcAddrBuff clock now).loop = ⟨.head, args.maxOutstandingSend⟩ := by
  have sent : (start args mcAddrBuff clock now).sent = firstSends args :=
    congrArg SendState.sent (@start_sends args mcAddrBuff clock now)
  have atHead : (start args mcAddrBuff clock now).control = .loopHead :=
    @start_of_sends args (fun p => p.control = .loopHead) _ _ _ rfl (fun _ _ _ head => head)
      (fun _ _ head => head)
  rw [loop, atHead, sent, firstSends_length]

theorem bounded (limited : 0 < args.pktsToCount.toNat)
    (fits : args.pktsToCount.toNat + args.maxOutstandingSend ≤ 2 ^ 32)
    (reached : PartialRun.run (step args) (start args mcAddrBuff clock now) events = some p) :
    Bounded args.pktsToCount.toNat args.maxOutstandingSend p.loop := by
  refine PartialRun.run_induction ?initially ?extended reached
  case initially =>
      rw [start_loop]
      exact Nat.lt_add_of_pos_left limited
  case extended =>
      intro events p event next before bounded taken
      have short : p.sent.length < 2 ^ 32 := Nat.lt_of_lt_of_le bounded.count_lt fits
      have counts := ((counted before).exact short).totalPkts
      rcases loopStep limited counts taken with same | stepped
      · exact same ▸ bounded
      · exact bounded.step stepped

theorem always_bounded (limited : 0 < args.pktsToCount.toNat)
    (fits : args.pktsToCount.toNat + args.maxOutstandingSend ≤ 2 ^ 32) :
    PartialRun.Always (step args)
      (fun p => p.totalPkts.toNat = p.sent.length ∧
        p.sent.length < args.pktsToCount.toNat + args.maxOutstandingSend)
      (start args mcAddrBuff clock now) events := by
  intro before p _ reached
  have room := (bounded limited fits reached).count_lt
  exact ⟨((counted reached).exact (Nat.lt_of_lt_of_le room fits)).totalPkts, room⟩

def LeavesOnPackets (args : ProducerArgs) (p next : Producer) : Prop :=
  ∃ exitSignal now, p.step args (.shouldStop exitSignal now) = some next ∧
    StopsOnPackets args.toArgs exitSignal now p.totalPkts p.timing

theorem LeavesOnPackets.limit_reached (left : LeavesOnPackets args p next) :
    next.control = .stopped ∧ next.sent = p.sent ∧
      args.pktsToCount.toNat ≤ p.totalPkts.toNat := by
  obtain ⟨exitSignal, now, taken, stops⟩ := left
  have limit := pktsToCount_le_of_stops stops
  rw [checkStop_eq taken]
  exact ⟨by simp [stops.1], rfl, limit⟩

end Producer

/-- A session that leaves its loop on the packet limit has handled that many packets
and fewer than one batch more, and its total was exact in every state before. -/
theorem packet_limit_overshoot {n : Nat} (atLeast : 1 ≤ n) (atMost : n ≤ 2 ^ 31 - 1) :
    (∀ (args : Args) (maxOutstandingReceive : UInt32) (now : Int) (events : List ConsumerEvent)
        (c next : Consumer), args.pktsToCount.toNat = n →
      PartialRun.run (Consumer.step args maxOutstandingReceive)
        (Consumer.start args maxOutstandingReceive now) events = some c →
      c.LeavesOnPackets args maxOutstandingReceive next →
      n ≤ next.handled.length ∧ next.handled.length < n + maxRioResults ∧
        PartialRun.Always (Consumer.step args maxOutstandingReceive)
          (fun c => c.totalPkts.toNat = c.handled.length)
          (Consumer.start args maxOutstandingReceive now) events) ∧
    (∀ (args : ProducerArgs) (mcAddrBuff : UInt32 → SockaddrInet) (clock : Nat → UInt64)
        (now : Int) (events : List ProducerEvent) (p next : Producer),
      args.pktsToCount.toNat = n →
      PartialRun.run (Producer.step args) (Producer.start args mcAddrBuff clock now) events =
        some p →
      p.LeavesOnPackets args next →
      n ≤ next.sent.length ∧ next.sent.length < n + args.maxOutstandingSend ∧
        PartialRun.Always (Producer.step args) (fun p => p.totalPkts.toNat = p.sent.length)
          (Producer.start args mcAddrBuff clock now) events) := by
  constructor
  · rintro args maxOutstandingReceive now events c next rfl reached left
    have fits : args.pktsToCount.toNat + maxRioResults ≤ 2 ^ 32 := by
      rw [show maxRioResults = 1000 from rfl]
      omega
    have always := @Consumer.always_bounded args maxOutstandingReceive now events atLeast fits
    obtain ⟨exact, room⟩ := always.last reached
    obtain ⟨-, same, limit⟩ := left.limit_reached
    rw [same, ← exact]
    refine ⟨limit, exact ▸ room, ?_⟩
    exact fun before c within reached => (always before c within reached).1
  · rintro args mcAddrBuff clock now events p next rfl reached left
    have burst := args.maxOutstandingSend_le
    have fits : args.pktsToCount.toNat + args.maxOutstandingSend ≤ 2 ^ 32 := by omega
    have always := @Producer.always_bounded args mcAddrBuff clock now events atLeast fits
    obtain ⟨exact, room⟩ := always.last reached
    obtain ⟨-, same, limit⟩ := left.limit_reached
    rw [same, ← exact]
    refine ⟨limit, exact ▸ room, ?_⟩
    exact fun before p within reached => (always before p within reached).1

def threePacketsArgs : Args := { unlimitedArgs with pktsToCount := 3 }

def threePacketsSendArgs : ProducerArgs :=
  ⟨{ twoGroupArgs.toArgs with pktsToCount := 3 }, twoGroupArgs.rate_pos, twoGroupArgs.groups_pos,
    twoGroupArgs.limit⟩

def twoDatagrams : List ConsumerEvent :=
  [.shouldStop false 0, .notify, .datagram (datagramTo 38077935 100),
    .datagram (datagramTo 54855151 100), .completionStatus true, .dequeue 2 0, .handle, .handle]

/-- Both sides are to stop after three packets, and both stop after a batch that ends with four. -/
theorem packet_limit_overshoot_fourth_packet :
    (∃ c next, PartialRun.run (Consumer.step threePacketsArgs 2)
        (Consumer.start threePacketsArgs 2 0) (twoDatagrams ++ twoDatagrams) = some c ∧
      c.LeavesOnPackets threePacketsArgs 2 next ∧ next.handled.length = 4 ∧
      next.handled.length < 3 + maxRioResults) ∧
    (∃ p next, PartialRun.run (Producer.step threePacketsSendArgs)
        (Producer.start threePacketsSendArgs (fun _ => {}) (fun _ => 0) 0)
        ([.complete 0, .complete 0] ++ nextBatch 2 ++ [.handle 0, .handle 0]) = some p ∧
      p.LeavesOnPackets threePacketsSendArgs next ∧ next.sent.length = 4 ∧
      next.sent.length < 3 + threePacketsSendArgs.maxOutstandingSend) := by
  obtain ⟨consumed, produced⟩ := packet_limit_overshoot (by decide : 1 ≤ 3) (by decide)
  constructor
  · obtain ⟨c, next, reached, left, four⟩ : ∃ c next,
        PartialRun.run (Consumer.step threePacketsArgs 2) (Consumer.start threePacketsArgs 2 0)
          (twoDatagrams ++ twoDatagrams) = some c ∧
        c.LeavesOnPackets threePacketsArgs 2 next ∧ next.handled.length = 4 :=
      ⟨_, _, rfl, ⟨false, 0, rfl, rfl, rfl⟩, rfl⟩
    exact ⟨c, next, reached, left, four, (consumed _ _ _ _ _ _ rfl reached left).2.1⟩
  · obtain ⟨p, next, reached, left, four⟩ : ∃ p next,
        PartialRun.run (Producer.step threePacketsSendArgs)
          (Producer.start threePacketsSendArgs (fun _ => {}) (fun _ => 0) 0)
          ([.complete 0, .complete 0] ++ nextBatch 2 ++ [.handle 0, .handle 0]) = some p ∧
        p.LeavesOnPackets threePacketsSendArgs next ∧ next.sent.length = 4 :=
      ⟨_, _, rfl, ⟨false, 0, rfl, rfl, rfl⟩, rfl⟩
    exact ⟨p, next, reached, left, four, (produced _ _ _ _ _ _ _ rfl reached left).2.1⟩

end RioClient
