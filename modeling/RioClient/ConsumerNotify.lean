import RioClient.ConsumerRuns

/-!
The notification protocol. A notification is armed by the loop, fires on an
arrival, and its packet is taken by a later wait. The loop arms the next one
when it believes that none is out.
-/

namespace RioClient

/-- A datagram that arrives after the wait and before the dequeue, while a
notification is armed: the notification fires, and its packet stays on the port. -/
def Consumer.LateDatagram (c : Consumer) (event : ConsumerEvent) : Prop :=
  (∃ datagram, event = .datagram datagram) ∧ c.control = .dequeue ∧ c.completions.armed = true

/-- At most one notification is out, and none where the loop is about to arm one. -/
structure Balanced (c : Consumer) : Prop where
  once : c.completions.tokens ≤ 1
  atHead : c.control = .loopHead → c.shouldNotify = true → c.completions.tokens = 0
  atNotify : c.control = .notify → c.shouldNotify = true → c.completions.tokens = 0
  atDequeue : c.control = .dequeue → c.completions.portPackets = 0 ∧
    (c.shouldNotify = true → c.completions.armed = false)
  handling : ∀ results, c.control = .handling results → c.completions.tokens = 0
  running : c.control ≠ .notifyFailed

variable {args : Args} {maxOutstandingReceive : UInt32} {c next : Consumer}

theorem Balanced.step {event : ConsumerEvent} (balanced : Balanced c)
    (punctual : ¬c.LateDatagram event)
    (taken : ConsumerStep maxOutstandingReceive c event next) : Balanced next := by
  cases taken with
  | datagram postedEq =>
      refine ⟨?_, ?_, ?_, ?_, ?_, balanced.running⟩
      · simpa using balanced.once
      · simpa using balanced.atHead
      · simpa using balanced.atNotify
      · intro atDequeue
        obtain ⟨none, -⟩ := balanced.atDequeue atDequeue
        have idle : c.completions.armed = false := by
          rw [← Bool.not_eq_true]
          exact fun armed => punctual ⟨⟨_, rfl⟩, atDequeue, armed⟩
        exact ⟨(CompletionQueue.push_portPackets_of_not_armed _ _ idle).trans none, fun _ => rfl⟩
      · simpa using balanced.handling
  | goOn atHead =>
      exact ⟨balanced.once, by simp, fun _ => balanced.atHead atHead, by simp, by simp, by simp⟩
  | stop atHead =>
      exact ⟨balanced.once, by simp, by simp, by simp, by simp, by simp⟩
  | notified atNotify wanted notified =>
      have armed := CompletionQueue.notify_tokens notified
      rw [balanced.atNotify atNotify wanted] at armed
      exact ⟨by simp [armed], by simp, by simp, by simp, by simp, by simp⟩
  | notifyFailed atNotify wanted armed =>
      have idle := (CompletionQueue.tokens_eq_zero_iff _).mp (balanced.atNotify atNotify wanted)
      rw [idle.1] at armed
      exact absurd armed Bool.false_ne_true
  | notNotified atNotify unwanted =>
      exact ⟨balanced.once, by simp, by simp, by simp, by simp, by simp⟩
  | @packet completions atWait packet =>
      -- the packet taken was the only notification out
      have spent := CompletionQueue.takePacket_tokens packet
      have once := balanced.once
      have none : completions.tokens = 0 := by omega
      have idle := (CompletionQueue.tokens_eq_zero_iff _).mp none
      exact ⟨by simp [none], by simp, by simp, fun _ => ⟨idle.2, fun _ => idle.1⟩, by simp, by simp⟩
  | timeout atWait none =>
      exact ⟨balanced.once, by simp, by simp, fun _ => ⟨none, by simp⟩, by simp, by simp⟩
  | empty atDequeue _ | corrupt atDequeue =>
      obtain ⟨none, unarmed⟩ := balanced.atDequeue atDequeue
      exact ⟨balanced.once,
        fun _ wanted => (CompletionQueue.tokens_eq_zero_iff _).mpr ⟨unarmed wanted, none⟩,
        by simp, by simp, by simp, by simp⟩
  | dequeued atDequeue some dequeues =>
      obtain ⟨none, -⟩ := balanced.atDequeue atDequeue
      have idle := (CompletionQueue.tokens_eq_zero_iff _).mpr ⟨dequeues.not_armed some, none⟩
      exact ⟨by simp [idle], by simp, by simp, by simp, fun _ _ => by simp [idle], by simp⟩
  | handled handling =>
      have idle := balanced.handling _ handling
      refine ⟨?_, by simp, by simp, by simp, fun _ _ => ?_, by simp⟩
      · simp [Consumer.handleCompletion_completions, idle]
      · simpa [Consumer.handleCompletion_completions] using idle
  | handledLast handling =>
      have idle := balanced.handling _ handling
      refine ⟨?_, fun _ _ => ?_, by simp, by simp, by simp, by simp⟩
      · simp [Consumer.handleCompletion_completions, idle]
      · simpa [Consumer.handleCompletion_completions] using idle

theorem Balanced.start (args : Args) (maxOutstandingReceive : UInt32) (now : Int) :
    Balanced (Consumer.start args maxOutstandingReceive now) :=
  ⟨by simp [Consumer.start], fun _ _ => rfl, fun _ _ => rfl, fun _ => ⟨rfl, fun _ => rfl⟩,
    fun _ _ => rfl, by simp [Consumer.start]⟩

/-- In every run without a late datagram the consumer never arms a notification
while one is armed, so it never exits on a failed `RIONotify`. -/
theorem notifyCompletionQueue_never_armed {now : Int} {events : List ConsumerEvent}
    (reached : PartialRun.run (Consumer.step args maxOutstandingReceive)
      (Consumer.start args maxOutstandingReceive now) events = some c)
    (punctual : PartialRun.Along (Consumer.step args maxOutstandingReceive)
      (fun c event => ¬c.LateDatagram event)
      (Consumer.start args maxOutstandingReceive now) events) :
    c.control ≠ .notifyFailed ∧
      (c.control = .notify → c.shouldNotify = true → c.completions.armed = false) := by
  have balanced : Balanced c := PartialRun.run_invariant_along
    (fun _ _ _ balanced meets taken => balanced.step meets (Consumer.step_cases taken))
    (Balanced.start args maxOutstandingReceive now) punctual reached
  refine ⟨balanced.running, ?_⟩
  intro atNotify wanted
  exact ((CompletionQueue.tokens_eq_zero_iff _).mp (balanced.atNotify atNotify wanted)).1

/-- The wait times out, and the notification stays armed for the next pass. -/
def idlePass : List ConsumerEvent :=
  [.shouldStop false 0, .notify, .completionStatus false, .dequeue 0 0]

theorem notifyCompletionQueue_never_armed_idle_pass :
    ∃ c, PartialRun.run (Consumer.step unlimitedArgs 2) (Consumer.start unlimitedArgs 2 0)
        (idlePass ++ oneDatagram (datagramTo 38077935 100) ++ [.shouldStop false 0]) = some c ∧
      c.control = .notify ∧ c.shouldNotify = true ∧ c.completions.armed = false := by
  have punctual : PartialRun.Along (Consumer.step unlimitedArgs 2)
      (fun c event => ¬c.LateDatagram event) (Consumer.start unlimitedArgs 2 0)
      (idlePass ++ oneDatagram (datagramTo 38077935 100) ++ [.shouldStop false 0]) := by
    simp only [idlePass, oneDatagram, List.cons_append, List.nil_append]
    iterate 6
      refine ⟨by simp [Consumer.LateDatagram], ?_⟩
      rintro _ ⟨⟩
    refine ⟨by simp [Consumer.LateDatagram], fun next _ => ?_⟩
    exact PartialRun.along_of_forall (by simp [Consumer.LateDatagram]) next
  obtain ⟨c, reached, atNotify, wanted⟩ : ∃ c,
      PartialRun.run (Consumer.step unlimitedArgs 2) (Consumer.start unlimitedArgs 2 0)
        (idlePass ++ oneDatagram (datagramTo 38077935 100) ++ [.shouldStop false 0]) = some c ∧
      c.control = .notify ∧ c.shouldNotify = true := ⟨_, rfl, rfl, rfl⟩
  exact ⟨c, reached, atNotify, wanted,
    (notifyCompletionQueue_never_armed reached punctual).2 atNotify wanted⟩

def staleWakeup : List ConsumerEvent :=
  [.shouldStop false 0, .notify, .completionStatus true, .dequeue 0 0,
    .shouldStop false 0, .notify]

/-- A stale packet ends a pass with no result and `shouldNotify` still set, while
the notification armed in that pass is still out. -/
theorem staleWakeup_fails (noCount : args.pktsToCount = 0) (noTime : args.secondsToRun = 0)
    (atHead : c.control = .loopHead) (wanted : c.shouldNotify = true)
    (idle : c.completions.armed = false) (drained : c.completions.entries = [])
    (stale : c.completions.portPackets ≠ 0) :
    ∃ next, PartialRun.run (Consumer.step args maxOutstandingReceive) c staleWakeup = some next ∧
      next.control = .notifyFailed := by
  obtain ⟨count, portEq⟩ := Nat.exists_eq_succ_of_ne_zero stale
  cases args
  cases c
  rename_i completions _ _
  cases completions
  simp only at noCount noTime atHead wanted idle drained portEq
  subst noCount noTime atHead wanted idle drained portEq
  exact ⟨_, rfl, rfl⟩

theorem lateDatagram_run {datagram : Datagram} (late : c.LateDatagram (.datagram datagram))
    {receive : Receive} {posted : List Receive} (postedEq : c.posted = receive :: posted) :
    ∃ delivered : Consumer, PartialRun.run (Consumer.step args maxOutstandingReceive) c
        [.datagram datagram, .dequeue 1 0, .handle] =
      some { delivered.handleCompletion maxOutstandingReceive ⟨receive, datagram⟩ with
        control := .loopHead, shouldNotify := true } ∧
      delivered.completions = (c.completions.push ⟨receive, datagram⟩).dequeued 1 := by
  obtain ⟨-, atDequeue, armed⟩ := late
  have drained := c.completions.armed_empty armed
  cases c
  rename_i queue _ _
  cases queue
  simp only at atDequeue postedEq armed drained
  subst atDequeue postedEq armed drained
  exact ⟨_, rfl, rfl⟩

/-- Every late datagram that is received can lead to the failure. -/
theorem lateDatagram_fails (noCount : args.pktsToCount = 0) (noTime : args.secondsToRun = 0)
    {datagram : Datagram} (late : c.LateDatagram (.datagram datagram))
    {receive : Receive} {posted : List Receive} (postedEq : c.posted = receive :: posted) :
    ∃ next, PartialRun.run (Consumer.step args maxOutstandingReceive) c
        ([.datagram datagram, .dequeue 1 0, .handle] ++ staleWakeup) = some next ∧
      next.control = .notifyFailed := by
  have drained := c.completions.armed_empty late.2.2
  obtain ⟨delivered, handled, completions⟩ :=
    @lateDatagram_run args maxOutstandingReceive _ _ late _ _ postedEq
  have kept := (@Consumer.handleCompletion_completions maxOutstandingReceive delivered
    ⟨receive, datagram⟩).trans completions
  rw [PartialRun.run_append, handled, Option.bind_some]
  apply staleWakeup_fails noCount noTime rfl rfl
  · simp [kept]
  · simp [kept, drained]
  · simp [kept, CompletionQueue.push, late.2.2]

/-- The first datagram arrives just after the first wait has timed out, and no
other one follows: the third call of `RIONotify` fails. -/
theorem notifyCompletionQueue_fails_after_late_datagram :
    ∃ c, PartialRun.run (Consumer.step unlimitedArgs maxPendingRecvs)
        (Consumer.start unlimitedArgs maxPendingRecvs 0)
        ([.shouldStop false 0, .notify, .completionStatus false] ++
          ([.datagram (datagramTo 38077935 100), .dequeue 1 0, .handle] ++ staleWakeup)) = some c ∧
      c.control = .notifyFailed := by
  obtain ⟨timedOut, reached, atDequeue, armed, posted⟩ : ∃ timedOut,
      PartialRun.run (Consumer.step unlimitedArgs maxPendingRecvs)
        (Consumer.start unlimitedArgs maxPendingRecvs 0)
        [.shouldStop false 0, .notify, .completionStatus false] = some timedOut ∧
      timedOut.control = .dequeue ∧ timedOut.completions.armed = true ∧
      timedOut.posted = postFirstRecvs maxPendingRecvs := ⟨_, rfl, rfl, rfl, rfl⟩
  rw [PartialRun.run_append, reached, Option.bind_some]
  exact lateDatagram_fails rfl rfl ⟨⟨_, rfl⟩, atDequeue, armed⟩ (posted.trans
    (postFirstRecvs_cons (show maxPendingRecvs.toNat = 1499999 + 1 by decide)))

end RioClient
