import RioClient.ConsumerRuns
import RioClient.PacketLimit
import RioClient.ProducerNotify

/-!
What is left of a session once the handler has set the exit signal, which nothing
clears again: the loop in hand is finished, at most one more batch is handled, and
nothing but the producer's wait for one of its own sends can hold it up.
-/

namespace RioClient

namespace ConsumerEvent

def own : ConsumerEvent → Bool
  | .datagram _ => false
  | _ => true

def signalled : ConsumerEvent → Bool
  | .shouldStop exitSignal _ => exitSignal
  | _ => true

end ConsumerEvent

namespace Consumer

variable {args : Args} {maxOutstandingReceive : UInt32} {c next : Consumer}
variable {event : ConsumerEvent}

/-- The calls the loop can make at most before it sees the signal and ends. -/
def remaining (c : Consumer) : Nat :=
  match c.control with
  | .loopHead => 1
  | .notify => maxRioResults + 4
  | .wait => maxRioResults + 3
  | .dequeue => maxRioResults + 2
  | .handling results => results.length + 1
  | .stopped | .notifyFailed => 0

def stillHandled (c : Consumer) : Nat :=
  match c.control with
  | .notify | .wait | .dequeue => maxRioResults
  | .handling results => results.length
  | .loopHead | .stopped | .notifyFailed => 0

theorem checkStop_signalled {now : Int}
    (taken : c.step args maxOutstandingReceive (.shouldStop true now) = some next) :
    next.control = .stopped := by
  simp only [step, checkStop] at taken
  split at taken
  · cases taken
    simp [shouldStop]
  · simp at taken

theorem step_signalled (signalled : event.signalled = true)
    (taken : c.step args maxOutstandingReceive event = some next) :
    next.remaining + (if event.own then 1 else 0) ≤ c.remaining ∧
      next.handled.length + next.stillHandled ≤ c.handled.length + c.stillHandled := by
  cases step_cases taken with
  | datagram postedEq => exact ⟨Nat.le_refl _, Nat.le_refl _⟩
  | goOn atHead =>
      cases signalled
      exact nomatch checkStop_signalled taken
  | stop atHead => simp [remaining, stillHandled, atHead, ConsumerEvent.own]
  | notified atNotify => simp [remaining, stillHandled, atNotify, ConsumerEvent.own]
  | notifyFailed atNotify => simp [remaining, stillHandled, atNotify, ConsumerEvent.own]
  | notNotified atNotify => simp [remaining, stillHandled, atNotify, ConsumerEvent.own]
  | packet atWait => simp [remaining, stillHandled, atWait, ConsumerEvent.own]
  | timeout atWait => simp [remaining, stillHandled, atWait, ConsumerEvent.own]
  | empty atDequeue => simp [remaining, stillHandled, atDequeue, ConsumerEvent.own]
  | corrupt atDequeue => simp [remaining, stillHandled, atDequeue, ConsumerEvent.own]
  | dequeued atDequeue some dequeues =>
      have few := dequeues.1
      simp only [remaining, stillHandled, atDequeue, ConsumerEvent.own, if_true,
        List.length_take]
      omega
  | handled handling =>
      simp only [remaining, stillHandled, handling, ConsumerEvent.own, handleCompletion_handled,
        if_true, List.length_append, List.length_cons, List.length_nil]
      omega
  | handledLast handling =>
      simp only [remaining, stillHandled, handling, ConsumerEvent.own, handleCompletion_handled,
        if_true, List.length_append, List.length_cons, List.length_nil]
      omega

def WithinBatch (c : Consumer) : Prop :=
  ∀ results, c.control = .handling results → results ≠ [] ∧ results.length ≤ maxRioResults

theorem WithinBatch.start (args : Args) (maxOutstandingReceive : UInt32) (now : Int) :
    WithinBatch (.start args maxOutstandingReceive now) := by
  intro results inside
  cases inside

theorem WithinBatch.step (within : WithinBatch c)
    (taken : c.step args maxOutstandingReceive event = some next) : WithinBatch next := by
  intro results inside
  cases step_cases taken with
  | datagram postedEq => exact within results inside
  | dequeued atDequeue some dequeues =>
      cases inside
      have length := List.length_take_of_le dequeues.2.1
      refine ⟨fun empty => ?_, length.le.trans dequeues.1⟩
      rw [empty, List.length_nil] at length
      omega
  | handled handling =>
      cases inside
      exact ⟨List.cons_ne_nil _ _, Nat.le_of_succ_le (within _ handling).2⟩
  | goOn | stop | notified | notifyFailed | notNotified | packet | timeout | empty | corrupt
  | handledLast => cases inside

theorem WithinBatch.remaining_le (within : WithinBatch c) :
    c.remaining ≤ maxRioResults + 4 ∧ c.stillHandled ≤ maxRioResults := by
  unfold remaining stillHandled
  cases control : c.control with
  | handling results =>
      have few := (within results control).2
      exact ⟨by dsimp only; omega, few⟩
  | _ => exact ⟨by dsimp only; omega, by dsimp only; omega⟩

/-- No call of the loop blocks: the wait is over after 100 ms at the latest. -/
theorem WithinBatch.progress (within : WithinBatch c) :
    c.control = .stopped ∨ c.control = .notifyFailed ∨ ∃ event, event ≠ .corruptQueue ∧
      event.own = true ∧ event.signalled = true ∧
      (c.step args maxOutstandingReceive event).isSome = true := by
  cases control : c.control with
  | stopped => exact .inl rfl
  | notifyFailed => exact .inr (.inl rfl)
  | loopHead =>
      refine .inr (.inr ⟨.shouldStop true 0, by simp, rfl, rfl, ?_⟩)
      simp only [Consumer.step, checkStop, control, Option.isSome_some]
  | notify =>
      refine .inr (.inr ⟨.notify, by simp, rfl, rfl, ?_⟩)
      simp only [Consumer.step, notifyCompletionQueue, control]
      split
      · split <;> rfl
      · rfl
  | wait =>
      by_cases quiet : c.completions.portPackets = 0
      · refine .inr (.inr ⟨.completionStatus false, by simp, rfl, rfl, ?_⟩)
        simp [Consumer.step, getQueuedCompletionStatus, control, quiet]
      · refine .inr (.inr ⟨.completionStatus true, by simp, rfl, rfl, ?_⟩)
        simp [Consumer.step, getQueuedCompletionStatus, control, CompletionQueue.takePacket, quiet]
  | dequeue =>
      obtain ⟨count, dequeues⟩ := c.completions.exists_dequeues (by decide : 0 < maxRioResults)
      refine .inr (.inr ⟨.dequeue count 0, by simp, rfl, rfl, ?_⟩)
      simp only [Consumer.step, dequeueCompletion, control, if_pos dequeues]
      split <;> rfl
  | handling results =>
      cases results with
      | nil => exact absurd rfl (within [] control).1
      | cons result rest =>
          refine .inr (.inr ⟨.handle, by simp, rfl, rfl, ?_⟩)
          simp only [Consumer.step, handleNext, control, Option.isSome_some]

end Consumer

/-- From whatever point of a run the consumer is signalled: it makes at most 1004 more
calls, handles at most 1000 more packets, and is never held up before it ends. -/
theorem consumer_shutdown {args : Args} {maxOutstandingReceive : UInt32} {now : Int}
    {before after : List ConsumerEvent} {c finish : Consumer}
    (reached : PartialRun.run (Consumer.step args maxOutstandingReceive)
      (Consumer.start args maxOutstandingReceive now) before = some c)
    (signalled : ∀ event ∈ after, event.signalled = true)
    (drained : PartialRun.run (Consumer.step args maxOutstandingReceive) c after = some finish) :
    after.countP ConsumerEvent.own ≤ maxRioResults + 4 ∧
      finish.handled.length ≤ c.handled.length + maxRioResults ∧
      (finish.control = .stopped ∨ finish.control = .notifyFailed ∨
        ∃ event, event ≠ .corruptQueue ∧ event.own = true ∧ event.signalled = true ∧
          (finish.step args maxOutstandingReceive event).isSome = true) := by
  have within : c.WithinBatch := PartialRun.run_invariant
    (fun _ _ _ within taken => Consumer.WithinBatch.step within taken)
    (Consumer.WithinBatch.start args maxOutstandingReceive now) reached
  have stillWithin : finish.WithinBatch := PartialRun.run_invariant
    (fun _ _ _ within taken => Consumer.WithinBatch.step within taken) within drained
  have calls : after.countP ConsumerEvent.own + finish.remaining ≤ c.remaining :=
    PartialRun.countP_add_measure_le
    (fun _ _ _ meets taken => (Consumer.step_signalled meets taken).1) signalled drained
  have packets : finish.handled.length + finish.stillHandled ≤
      c.handled.length + c.stillHandled :=
    @PartialRun.run_invariant_along _ _ (Consumer.step args maxOutstandingReceive)
      (fun next => next.handled.length + next.stillHandled ≤ c.handled.length + c.stillHandled)
      (fun _ event => event.signalled = true)
      (fun _ _ _ holds meets taken =>
        Nat.le_trans (Consumer.step_signalled meets taken).2 holds) _ _ _ (Nat.le_refl _)
      (PartialRun.along_of_forall (fun event member _ => signalled event member) c) drained
  have bounds := within.remaining_le
  exact ⟨by omega, by omega, stillWithin.progress⟩

/-- The signal comes while two datagrams wait to be dequeued, and a third one arrives. -/
theorem consumer_shutdown_two_packets : ∃ c finish,
    PartialRun.run (Consumer.step unlimitedArgs 3) (Consumer.start unlimitedArgs 3 0)
      [.shouldStop false 0, .notify, .datagram (datagramTo 38077935 100),
        .datagram (datagramTo 54855151 100)] = some c ∧
    PartialRun.run (Consumer.step unlimitedArgs 3) c
      [.completionStatus true, .dequeue 2 0, .handle, .datagram (datagramTo 38077935 100), .handle,
        .shouldStop true 0] = some finish ∧
    finish.control = .stopped ∧ finish.handled.length = 2 ∧
    finish.handled.length ≤ c.handled.length + maxRioResults := by
  obtain ⟨c, reached⟩ : ∃ c, PartialRun.run (Consumer.step unlimitedArgs 3)
      (Consumer.start unlimitedArgs 3 0) [.shouldStop false 0, .notify,
        .datagram (datagramTo 38077935 100), .datagram (datagramTo 54855151 100)] = some c :=
    ⟨_, rfl⟩
  obtain ⟨finish, drained, stopped, two⟩ : ∃ finish, PartialRun.run (Consumer.step unlimitedArgs 3)
      c [.completionStatus true, .dequeue 2 0, .handle, .datagram (datagramTo 38077935 100),
        .handle, .shouldStop true 0] = some finish ∧
      finish.control = .stopped ∧ finish.handled.length = 2 := by
    cases reached
    exact ⟨_, rfl, rfl, rfl⟩
  have shutdown := consumer_shutdown reached (by simp [ConsumerEvent.signalled]) drained
  exact ⟨c, finish, reached, drained, stopped, two, shutdown.2.1⟩

namespace ProducerEvent

def own : ProducerEvent → Bool
  | .complete _ => false
  | _ => true

def signalled : ProducerEvent → Bool
  | .shouldStop exitSignal _ => exitSignal
  | _ => true

end ProducerEvent

namespace Producer

variable {args : ProducerArgs} {p next : Producer} {event : ProducerEvent}

def remaining (args : ProducerArgs) (p : Producer) : Nat :=
  match p.control with
  | .loopHead => 1
  | .notify => args.maxOutstandingSend + 4
  | .wait => args.maxOutstandingSend + 3
  | .dequeue => args.maxOutstandingSend + 2
  | .handling _ results => results.length + 1
  | .stopped | .notifyFailed | .dequeueFailed => 0

def stillSent (args : ProducerArgs) (p : Producer) : Nat :=
  match p.control with
  | .notify | .wait | .dequeue => args.maxOutstandingSend
  | .handling _ results => results.length
  | .loopHead | .stopped | .notifyFailed | .dequeueFailed => 0

theorem checkStop_signalled {now : Int}
    (taken : p.step args (.shouldStop true now) = some next) : next.control = .stopped := by
  simp only [step, checkStop] at taken
  split at taken
  · cases taken
    simp [shouldStop]
  · simp at taken

theorem step_signalled (signalled : event.signalled = true)
    (taken : p.step args event = some next) :
    next.remaining args + (if event.own then 1 else 0) ≤ p.remaining args ∧
      next.sent.length + next.stillSent args ≤ p.sent.length + p.stillSent args := by
  cases step_cases taken with
  | complete found => exact ⟨Nat.le_refl _, Nat.le_refl _⟩
  | goOn atHead =>
      cases signalled
      exact nomatch checkStop_signalled taken
  | stop atHead => simp [remaining, stillSent, atHead, ProducerEvent.own]
  | notified atNotify => simp [remaining, stillSent, atNotify, ProducerEvent.own]
  | notifyFailed atNotify => simp [remaining, stillSent, atNotify, ProducerEvent.own]
  | packet atWait => simp [remaining, stillSent, atWait, ProducerEvent.own]
  | empty atDequeue => simp [remaining, stillSent, atDequeue, ProducerEvent.own]
  | corrupt atDequeue => simp [remaining, stillSent, atDequeue, ProducerEvent.own]
  | dequeued atDequeue some dequeues =>
      have few := dequeues.1
      simp only [remaining, stillSent, atDequeue, ProducerEvent.own, if_true, List.length_take]
      omega
  | @handled now i result rest handling =>
      have grown := @handleCompletion_sent args p now i result
      cases rest with
      | nil =>
          simp only [remaining, stillSent, handling, ProducerEvent.own, grown, if_true,
            List.isEmpty_nil, List.length_singleton]
          omega
      | cons following rest =>
          simp only [remaining, stillSent, handling, ProducerEvent.own, grown, if_true,
            List.isEmpty_cons, if_neg Bool.false_ne_true, List.length_cons]
          omega

def WithinBatch (args : ProducerArgs) (p : Producer) : Prop :=
  ∀ i results, p.control = .handling i results →
    results ≠ [] ∧ results.length ≤ args.maxOutstandingSend

theorem WithinBatch.start (mcAddrBuff : UInt32 → SockaddrInet) (clock : Nat → UInt64)
    (now : Int) : WithinBatch args (.start args mcAddrBuff clock now) := by
  have atHead : (Producer.start args mcAddrBuff clock now).control = .loopHead :=
    @Producer.start_of_sends args (fun p => p.control = .loopHead) _ _ _ rfl
      (fun _ _ _ idle => idle) (fun _ _ idle => idle)
  intro i results inside
  rw [atHead] at inside
  cases inside

theorem WithinBatch.step (within : WithinBatch args p) (taken : p.step args event = some next) :
    WithinBatch args next := by
  intro i results inside
  cases step_cases taken with
  | complete found => exact within i results inside
  | dequeued atDequeue some dequeues =>
      cases inside
      have length := List.length_take_of_le dequeues.2.1
      refine ⟨fun empty => ?_, length.le.trans dequeues.1⟩
      rw [empty, List.length_nil] at length
      omega
  | @handled now i result rest handling =>
      cases rest with
      | nil => cases inside
      | cons following rest =>
          cases inside
          exact ⟨List.cons_ne_nil _ _, Nat.le_of_succ_le (within _ _ handling).2⟩
  | goOn | stop | notified | notifyFailed | packet | empty | corrupt => cases inside

theorem WithinBatch.remaining_le (within : WithinBatch args p) :
    p.remaining args ≤ args.maxOutstandingSend + 4 ∧
      p.stillSent args ≤ args.maxOutstandingSend := by
  unfold remaining stillSent
  cases control : p.control with
  | handling i results =>
      have few := (within i results control).2
      exact ⟨by dsimp only; omega, few⟩
  | _ => exact ⟨by dsimp only; omega, by dsimp only; omega⟩

theorem dequeueFailed_step (failed : p.control = .dequeueFailed)
    (taken : p.step args event = some next) : next.control = .dequeueFailed := by
  cases step_cases taken with
  | complete found => exact failed
  | goOn here | stop here | notified here | notifyFailed here | packet here | empty here
  | dequeued here | corrupt here | handled here => exact nomatch failed.symm.trans here

/-- A corrupt queue ends the loop at once; otherwise the protocol of the notifications holds. -/
theorem notified_or_failed_step (known : Notified p ∨ p.control = .dequeueFailed)
    (taken : p.step args event = some next) :
    Notified next ∨ next.control = .dequeueFailed := by
  rcases known with notified | failed
  · by_cases corrupt : event = .corruptQueue
    · subst corrupt
      cases step_cases taken with
      | corrupt atDequeue => exact .inr rfl
    · exact .inl (notified.step corrupt (step_cases taken))
  · exact .inr (dequeueFailed_step failed taken)

/-- Only RIO can end a wait whose notification is armed, and any send it completes does. -/
def WaitsForSend (args : ProducerArgs) (p : Producer) : Prop :=
  p.control = .wait ∧ p.posted ≠ [] ∧ ∀ k < p.posted.length, ∃ next,
    p.step args (.complete k) = some next ∧ (next.step args .completionStatus).isSome = true

theorem waitsForSend (atWait : p.control = .wait) (armed : p.completions.armed = true)
    (held : p.sends.held.Perm (List.range args.maxOutstandingSend)) : WaitsForSend args p := by
  have positive : 0 < args.maxOutstandingSend :=
    Nat.mul_pos args.rate_positive args.numberOfMcGroups_pos
  refine ⟨atWait, ?_, fun k inside => ?_⟩
  · intro none
    have empty : p.sends.held = [] := by
      simp [SendState.held, sends, results, atWait, p.completions.armed_empty armed, none]
    have size := held.length_eq
    rw [empty, List.length_nil, List.length_range] at size
    omega
  · have found : p.posted[k]? = some p.posted[k] := List.getElem?_eq_getElem inside
    refine ⟨_, by rw [step, completeSend, found]; rfl, ?_⟩
    simp [step, getQueuedCompletionStatus, atWait, CompletionQueue.takePacket,
      CompletionQueue.push, armed]

theorem WithinBatch.progress (within : WithinBatch args p) (notified : Notified p)
    (held : p.sends.held.Perm (List.range args.maxOutstandingSend)) :
    p.control = .stopped ∨ (∃ event, event ≠ .corruptQueue ∧ event.own = true ∧
      event.signalled = true ∧ (p.step args event).isSome = true) ∨ WaitsForSend args p := by
  cases control : p.control with
  | stopped => exact .inl rfl
  | notifyFailed => exact absurd control notified.running.1
  | dequeueFailed => exact absurd control notified.running.2
  | loopHead =>
      refine .inr (.inl ⟨.shouldStop true 0, by simp, rfl, rfl, ?_⟩)
      simp only [Producer.step, checkStop, control, Option.isSome_some]
  | notify =>
      refine .inr (.inl ⟨.notify, by simp, rfl, rfl, ?_⟩)
      simp only [Producer.step, notifyCompletionQueue, control]
      split <;> rfl
  | wait =>
      cases armed : p.completions.armed with
      | true => exact .inr (.inr (waitsForSend control armed held))
      | false =>
          have tokens := notified.waiting
          rw [control, if_pos rfl, CompletionQueue.tokens, armed, if_neg Bool.false_ne_true,
            Nat.zero_add] at tokens
          refine .inr (.inl ⟨.completionStatus, by simp, rfl, rfl, ?_⟩)
          simp [Producer.step, getQueuedCompletionStatus, control, CompletionQueue.takePacket,
            tokens]
  | dequeue =>
      have room : 0 < args.maxOutstandingSend :=
        Nat.mul_pos args.rate_positive args.numberOfMcGroups_pos
      obtain ⟨count, dequeues⟩ := p.completions.exists_dequeues room
      refine .inr (.inl ⟨.dequeue count, by simp, rfl, rfl, ?_⟩)
      simp only [Producer.step, dequeueCompletion, control, if_pos dequeues]
      split <;> rfl
  | handling i results =>
      cases results with
      | nil => exact absurd rfl (within i [] control).1
      | cons result rest =>
          refine .inr (.inl ⟨.handle 0, by simp, rfl, rfl, ?_⟩)
          simp only [Producer.step, handleNext, control, Option.isSome_some]

end Producer

/-- From whatever point of a run the producer is signalled: it makes at most four more
calls than it has sends outstanding and posts no more than that many; before it ends, only
the completion of one of its own sends can hold it up. -/
theorem producer_shutdown {args : ProducerArgs} {mcAddrBuff : UInt32 → SockaddrInet}
    {clock : Nat → UInt64} {now : Int} {before after : List ProducerEvent} {p finish : Producer}
    (reached : PartialRun.run (Producer.step args) (Producer.start args mcAddrBuff clock now)
      before = some p)
    (signalled : ∀ event ∈ after, event.signalled = true)
    (drained : PartialRun.run (Producer.step args) p after = some finish) :
    after.countP ProducerEvent.own ≤ args.maxOutstandingSend + 4 ∧
      finish.sent.length ≤ p.sent.length + args.maxOutstandingSend ∧
      (finish.control = .stopped ∨ finish.control = .dequeueFailed ∨
        (∃ event, event ≠ .corruptQueue ∧ event.own = true ∧ event.signalled = true ∧
          (finish.step args event).isSome = true) ∨
        finish.WaitsForSend args) := by
  have whole : PartialRun.run (Producer.step args) (Producer.start args mcAddrBuff clock now)
      (before ++ after) = some finish := by
    rw [PartialRun.run_append, reached]
    exact drained
  have within : p.WithinBatch args := PartialRun.run_invariant
    (fun _ _ _ within taken => Producer.WithinBatch.step within taken)
    (Producer.WithinBatch.start mcAddrBuff clock now) reached
  have stillWithin : finish.WithinBatch args := PartialRun.run_invariant
    (fun _ _ _ within taken => Producer.WithinBatch.step within taken) within drained
  have calls : after.countP ProducerEvent.own + finish.remaining args ≤ p.remaining args :=
    PartialRun.countP_add_measure_le
      (fun _ _ _ meets taken => (Producer.step_signalled meets taken).1) signalled drained
  have packets : finish.sent.length + finish.stillSent args ≤
      p.sent.length + p.stillSent args :=
    @PartialRun.run_invariant_along _ _ (Producer.step args)
      (fun next => next.sent.length + next.stillSent args ≤ p.sent.length + p.stillSent args)
      (fun _ event => event.signalled = true)
      (fun _ _ _ holds meets taken =>
        Nat.le_trans (Producer.step_signalled meets taken).2 holds) _ _ _ (Nat.le_refl _)
      (PartialRun.along_of_forall (fun event member _ => signalled event member) p) drained
  have known : Notified finish ∨ finish.control = .dequeueFailed := PartialRun.run_invariant
    (fun _ _ _ known taken => Producer.notified_or_failed_step known taken)
    (.inl Notified.start) whole
  have bounds := within.remaining_le
  refine ⟨by omega, by omega, ?_⟩
  rcases known with notified | failed
  · rcases stillWithin.progress notified (Producer.held_perm whole) with ended | onwards | waits
    · exact .inl ended
    · exact .inr (.inr (.inl onwards))
    · exact .inr (.inr (.inr waits))
  · exact .inr (.inl failed)

/-- The signal comes while one of two sends is handled; the other completes too late. -/
theorem producer_shutdown_two_groups : ∃ p finish,
    PartialRun.run (Producer.step twoGroupArgs)
      (Producer.start twoGroupArgs (fun _ => {}) (fun _ => 0) 0)
      ([.complete 1] ++ nextBatch 1) = some p ∧
    PartialRun.run (Producer.step twoGroupArgs) p
      [.handle 0, .complete 0, .shouldStop true 0] = some finish ∧
    finish.control = .stopped ∧ finish.sent.length = 3 ∧
    finish.sent.length ≤ p.sent.length + twoGroupArgs.maxOutstandingSend := by
  obtain ⟨p, reached⟩ : ∃ p, PartialRun.run (Producer.step twoGroupArgs)
      (Producer.start twoGroupArgs (fun _ => {}) (fun _ => 0) 0)
      ([.complete 1] ++ nextBatch 1) = some p := ⟨_, rfl⟩
  obtain ⟨finish, drained, stopped, three⟩ : ∃ finish,
      PartialRun.run (Producer.step twoGroupArgs) p [.handle 0, .complete 0, .shouldStop true 0] =
        some finish ∧ finish.control = .stopped ∧ finish.sent.length = 3 := by
    cases reached
    exact ⟨_, rfl, rfl, rfl⟩
  have shutdown := producer_shutdown reached (by simp [ProducerEvent.signalled]) drained
  exact ⟨p, finish, reached, drained, stopped, three, shutdown.2.1⟩

end RioClient
