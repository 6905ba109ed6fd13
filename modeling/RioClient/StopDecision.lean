import RioClient.PacketCounters

/-!
The stop decision of the two consumer threads. `Start` and `ReportWorker` call
`ShouldStop` on the same timing and packet counter, and the first batch of
packets overwrites the start time between two calls.
-/

namespace RioClient

/-- The consumer with its report thread, whose only part here is its loop
condition. `clock` is the latest reading of the steady clock, and `decisions`
records what the calls of `ShouldStop` have returned. -/
structure ConsumerSession where
  consumer : Consumer
  reporting : Bool := true
  exitSignal : Bool := false
  clock : Int
  decisions : List Bool := []

inductive SessionEvent
  | receive (event : ConsumerEvent)
  | report (now : Int)
  | raiseSignal
deriving DecidableEq, Repr

namespace ConsumerSession

/-- The clock does not go back, and its readings are 64-bit counts of nanoseconds. -/
def Reads (s : ConsumerSession) (now : Int) : Prop := s.clock ≤ now ∧ now < 2 ^ 63

instance (s : ConsumerSession) (now : Int) : Decidable (s.Reads now) :=
  inferInstanceAs (Decidable (_ ∧ _))

def goesOn (args : Args) (s : ConsumerSession) (now : Int) : Bool :=
  (shouldStop args s.exitSignal now s.consumer.totalPkts s.consumer.timing).1

def checked (args : Args) (now : Int) (s : ConsumerSession) : ConsumerSession :=
  { s with clock := now, decisions := s.decisions ++ [s.goesOn args now] }

def receive (args : Args) (maxOutstandingReceive : UInt32) (event : ConsumerEvent)
    (s : ConsumerSession) : Option ConsumerSession :=
  let taken := s.consumer.step args maxOutstandingReceive event
  match event with
  | .shouldStop exitSignal now =>
      if exitSignal = s.exitSignal ∧ s.Reads now then
        taken.map fun consumer => { s.checked args now with consumer }
      else none
  | .dequeue _ now =>
      if s.Reads now then taken.map fun consumer => { s with consumer, clock := now } else none
  | _ => taken.map fun consumer => { s with consumer }

def report (args : Args) (now : Int) (s : ConsumerSession) : Option ConsumerSession :=
  if s.reporting ∧ s.Reads now then
    some { s.checked args now with
      consumer := { s.consumer with timing := s.consumer.timing.setStop now }
      reporting := s.goesOn args now }
  else none

def step (args : Args) (maxOutstandingReceive : UInt32) (s : ConsumerSession) :
    SessionEvent → Option ConsumerSession
  | .receive event => s.receive args maxOutstandingReceive event
  | .report now => s.report args now
  | .raiseSignal => some { s with exitSignal := true }

def start (args : Args) (maxOutstandingReceive : UInt32) (now : Nat) : ConsumerSession where
  consumer := Consumer.start args maxOutstandingReceive now
  clock := now

/-- The first batch arrives when the report thread has quit already, and not on a signal. -/
def LateFirstBatch (s : ConsumerSession) (event : SessionEvent) : Prop :=
  ∃ inner, event = .receive inner ∧ s.consumer.overwritesStart inner = true ∧
    s.reporting = false ∧ s.exitSignal = false

end ConsumerSession

/-! The decision by itself: it only ever goes from going on to stopping as the
signal is raised, packets are counted and time passes. -/

theorem elapsedTimeSec_toNat {startTime stopTime : Int} (order : startTime ≤ stopTime)
    (positive : 0 ≤ startTime) (bound : stopTime < 2 ^ 63) :
    (Timing.getElapsedTimeSec { startTime, stopTime }).toNat =
      ((stopTime - startTime) / 1000000000).toNat := by
  have quotient : (stopTime - startTime).tdiv 1000000000 = (stopTime - startTime) / 1000000000 :=
    Int.tdiv_eq_ediv_of_nonneg (by omega)
  rw [Timing.getElapsedTimeSec, quotient, UInt64.ofInt, UInt64.toNat_ofNat']
  omega

theorem shouldStop_mono {args : Args} {exitSignal later : Bool} {now next : Int}
    {totalPkts more : UInt32} {timing laterTiming : Timing}
    (signal : later = false → exitSignal = false) (counted : totalPkts.toNat ≤ more.toNat)
    (same : laterTiming.startTime = timing.startTime) (positive : 0 ≤ timing.startTime)
    (started : timing.startTime ≤ now) (passed : now ≤ next) (bound : next < 2 ^ 63)
    (goesOn : (shouldStop args later next more laterTiming).1 = true) :
    (shouldStop args exitSignal now totalPkts timing).1 = true := by
  simp only [shouldStop, Bool.and_eq_true, Bool.not_eq_true'] at goesOn ⊢
  obtain ⟨⟨unsignalled, packets⟩, time⟩ := goesOn
  refine ⟨⟨signal unsignalled, ?_⟩, ?_⟩
  · split
    · rfl
    · rename_i limited
      rw [if_neg limited, decide_eq_true_eq, UInt64.lt_iff_toNat_lt,
        UInt32.toNat_toUInt64] at packets
      rw [decide_eq_true_eq, UInt64.lt_iff_toNat_lt, UInt32.toNat_toUInt64]
      exact Nat.lt_of_le_of_lt counted packets
  · split
    · rfl
    · rename_i limited
      have before := elapsedTimeSec_toNat started positive (Int.lt_of_le_of_lt passed bound)
      have after := elapsedTimeSec_toNat (Int.le_trans started passed) positive bound
      rw [if_neg limited, decide_eq_true_eq, UInt64.lt_iff_toNat_lt] at time
      rw [decide_eq_true_eq, UInt64.lt_iff_toNat_lt]
      refine Nat.lt_of_le_of_lt ?_ time
      rw [Timing.setStop, Timing.setStop, same, before, after]
      omega

theorem shouldStop_stays {args : Args} {exitSignal later : Bool} {now next : Int}
    {totalPkts more : UInt32} {timing laterTiming : Timing}
    (signal : later = false → exitSignal = false) (counted : totalPkts.toNat ≤ more.toNat)
    (same : laterTiming.startTime = timing.startTime) (positive : 0 ≤ timing.startTime)
    (started : timing.startTime ≤ now) (passed : now ≤ next) (bound : next < 2 ^ 63)
    (stops : (shouldStop args exitSignal now totalPkts timing).1 = false) :
    (shouldStop args later next more laterTiming).1 = false := by
  rw [← Bool.not_eq_true]
  intro goesOn
  have before := shouldStop_mono signal counted same positive started passed bound goesOn
  rw [stops] at before
  exact absurd before Bool.false_ne_true

namespace Consumer

variable {args : Args} {maxOutstandingReceive : UInt32} {c next : Consumer}

theorem step_startTime {event : ConsumerEvent}
    (taken : c.step args maxOutstandingReceive event = some next)
    (kept : c.overwritesStart event = false) :
    next.timing.startTime = c.timing.startTime := by
  cases event with
  | shouldStop exitSignal now =>
      simp only [step, checkStop] at taken
      split at taken
      · cases taken
        rfl
      · simp at taken
  | dequeue count now =>
      simp only [step, dequeueCompletion] at taken
      split at taken
      · split at taken
        · split at taken
          · cases taken
            rfl
          · rename_i some
            have counted : c.totalPkts ≠ 0 := by
              intro zero
              simp [overwritesStart, zero, Nat.pos_of_ne_zero some] at kept
            cases taken
            simp only [if_neg counted]
        · simp at taken
      · simp at taken
  | handle =>
      have handling (result : Completion) :
          (c.handleCompletion maxOutstandingReceive result).timing = c.timing := by
        simp only [handleCompletion]
        split <;> rfl
      cases step_cases taken with
      | handled | handledLast => exact congrArg Timing.startTime (handling _)
  | datagram | notify | completionStatus | corruptQueue =>
      cases step_cases taken <;> rfl

theorem step_overwrites {count : Nat} {now : Int}
    (taken : c.step args maxOutstandingReceive (.dequeue count now) = some next)
    (overwrites : c.overwritesStart (.dequeue count now) = true) :
    next.timing.startTime = now := by
  simp only [overwritesStart, Bool.and_eq_true, decide_eq_true_eq] at overwrites
  simp only [step, dequeueCompletion] at taken
  split at taken
  · split at taken
    · rw [if_neg (Nat.pos_iff_ne_zero.mp overwrites.1)] at taken
      cases taken
      simp only [if_pos overwrites.2]
      rfl
    · simp at taken
  · simp at taken

theorem stopped_stays {event : ConsumerEvent}
    (taken : ConsumerStep maxOutstandingReceive c event next) (stopped : c.control = .stopped) :
    next.control = .stopped := by
  cases taken with
  | datagram => exact stopped
  | goOn control | stop control | notified control | notifyFailed control | notNotified control
  | packet control | timeout control | empty control | dequeued control | corrupt control
  | handled control | handledLast control =>
      simp [stopped] at control

theorem checkStop_eq {exitSignal : Bool} {now : Int}
    (taken : c.step args maxOutstandingReceive (.shouldStop exitSignal now) = some next) :
    next = { c with
      control := if (shouldStop args exitSignal now c.totalPkts c.timing).1 then .notify
        else .stopped
      timing := c.timing.setStop now } := by
  simp only [step, checkStop] at taken
  split at taken
  · cases taken
    rfl
  · simp at taken

theorem Counted.totalPkts_le {event : ConsumerEvent} (counted : c.Counted)
    (taken : ConsumerStep maxOutstandingReceive c event next)
    (short : next.handled.length < 2 ^ 32) : c.totalPkts.toNat ≤ next.totalPkts.toNat := by
  have grown := handled_grows taken
  rw [(counted.exact (by omega)).totalPkts, ((counted.step taken).exact short).totalPkts]
  exact grown

end Consumer

namespace ConsumerSession

variable {args : Args} {maxOutstandingReceive : UInt32} {s next : ConsumerSession}

structure Decided (args : Args) (s : ConsumerSession) : Prop where
  counted : s.consumer.Counted
  positive : 0 ≤ s.consumer.timing.startTime
  started : s.consumer.timing.startTime ≤ s.clock
  quit : false ∈ s.decisions → s.reporting = false ∨ s.consumer.control = .stopped
  reported : s.reporting = false → false ∈ s.decisions
  stays : false ∈ s.decisions → ∀ now, s.Reads now → s.goesOn args now = false
  permanent : s.decisions.Pairwise fun earlier later => earlier = false → later = false

theorem goesOn_later {now : Int} (positive : 0 ≤ s.consumer.timing.startTime)
    (started : s.consumer.timing.startTime ≤ s.clock)
    (signal : next.exitSignal = false → s.exitSignal = false)
    (counted : s.consumer.totalPkts.toNat ≤ next.consumer.totalPkts.toNat)
    (same : next.consumer.timing.startTime = s.consumer.timing.startTime)
    (passed : s.clock ≤ next.clock)
    (stays : ∀ now, s.Reads now → s.goesOn args now = false) (reads : next.Reads now) :
    next.goesOn args now = false := by
  have earlier : s.Reads now := ⟨Int.le_trans passed reads.1, reads.2⟩
  exact shouldStop_stays signal counted same positive (Int.le_trans started earlier.1)
    (Int.le_refl now) reads.2 (stays now earlier)

theorem goesOn_of_signal (raised : s.exitSignal = true) (now : Int) :
    s.goesOn args now = false := by
  simp [goesOn, shouldStop, raised]

theorem Decided.last_of_refused (decided : Decided args s) {now : Int} (reads : s.Reads now)
    (refused : false ∈ s.decisions ++ [s.goesOn args now]) : s.goesOn args now = false := by
  rcases List.mem_append.mp refused with earlier | last
  · exact decided.stays earlier now reads
  · exact (List.mem_singleton.mp last).symm

theorem Decided.permanent_checked (decided : Decided args s) {now : Int} (reads : s.Reads now) :
    (s.decisions ++ [s.goesOn args now]).Pairwise
      fun earlier later => earlier = false → later = false := by
  rw [List.pairwise_append]
  refine ⟨decided.permanent, List.pairwise_singleton _ _, ?_⟩
  intro earlier member later last stopped
  rw [List.mem_singleton.mp last]
  exact decided.stays (stopped ▸ member) now reads

theorem Decided.checked (decided : Decided args s) {now : Int} (reads : s.Reads now)
    (decisions : next.decisions = s.decisions ++ [s.goesOn args now]) (clock : next.clock = now)
    (signal : next.exitSignal = s.exitSignal) (counted : next.consumer.Counted)
    (total : next.consumer.totalPkts = s.consumer.totalPkts)
    (same : next.consumer.timing.startTime = s.consumer.timing.startTime)
    (quit : s.goesOn args now = false →
      next.reporting = false ∨ next.consumer.control = .stopped)
    (reported : next.reporting = false → s.reporting = false ∨ s.goesOn args now = false) :
    Decided args next := by
  refine ⟨counted, ?_, ?_, ?_, ?_, ?_, ?_⟩
  · rw [same]
    exact decided.positive
  · rw [same, clock]
    exact Int.le_trans decided.started reads.1
  · intro refused
    rw [decisions] at refused
    exact quit (decided.last_of_refused reads refused)
  · intro stopped
    rw [decisions]
    rcases reported stopped with before | last
    · exact List.mem_append_left _ (decided.reported before)
    · simp [last]
  · intro refused later readsLater
    rw [decisions] at refused
    have stopped := decided.last_of_refused reads refused
    exact shouldStop_stays (fun unraised => signal ▸ unraised) (by rw [total]) same
      decided.positive (Int.le_trans decided.started reads.1) (clock ▸ readsLater.1)
      readsLater.2 stopped
  · rw [decisions]
    exact decided.permanent_checked reads

theorem Decided.unchecked (decided : Decided args s) (decisions : next.decisions = s.decisions)
    (passed : s.clock ≤ next.clock) (signal : next.exitSignal = false → s.exitSignal = false)
    (counted : next.consumer.Counted)
    (total : s.consumer.totalPkts.toNat ≤ next.consumer.totalPkts.toNat)
    (same : next.consumer.timing.startTime = s.consumer.timing.startTime)
    (reporting : next.reporting = s.reporting)
    (stopped : s.consumer.control = .stopped → next.consumer.control = .stopped) :
    Decided args next := by
  refine ⟨counted, ?_, ?_, ?_, ?_, ?_, ?_⟩
  · rw [same]
    exact decided.positive
  · rw [same]
    exact Int.le_trans decided.started passed
  · intro refused
    rw [decisions] at refused
    rw [reporting]
    exact (decided.quit refused).imp id stopped
  · rw [reporting, decisions]
    exact decided.reported
  · intro refused now reads
    rw [decisions] at refused
    exact goesOn_later decided.positive decided.started signal total same passed
      (decided.stays refused) reads
  · rw [decisions]
    exact decided.permanent

theorem Decided.receive_call (decided : Decided args s) {exitSignal : Bool} {now : Int}
    (taken : s.receive args maxOutstandingReceive (.shouldStop exitSignal now) = some next) :
    Decided args next := by
  simp only [receive] at taken
  split at taken
  · rename_i agrees
    obtain ⟨rfl, reads⟩ := agrees
    obtain ⟨consumer, stepped, rfl⟩ := Option.map_eq_some_iff.mp taken
    have counted := decided.counted.step (Consumer.step_cases stepped)
    have eq := Consumer.checkStop_eq stepped
    subst eq
    refine decided.checked reads rfl rfl rfl counted rfl rfl (fun stopped => .inr ?_) .inl
    simp only [goesOn] at stopped
    simp [stopped]
  · simp at taken

theorem Decided.receive_dequeue (decided : Decided args s) {count : Nat} {now : Int}
    (punctual : ¬s.LateFirstBatch (.receive (.dequeue count now)))
    (taken : s.receive args maxOutstandingReceive (.dequeue count now) = some next)
    (short : next.consumer.handled.length < 2 ^ 32) : Decided args next := by
  simp only [receive] at taken
  split at taken
  · rename_i reads
    obtain ⟨consumer, stepped, rfl⟩ := Option.map_eq_some_iff.mp taken
    have cases := Consumer.step_cases stepped
    have counted := decided.counted.step cases
    cases overwrites : s.consumer.overwritesStart (.dequeue count now) with
    | false =>
        exact decided.unchecked rfl reads.1 id counted (decided.counted.totalPkts_le cases short)
          (Consumer.step_startTime stepped overwrites) rfl (Consumer.stopped_stays cases)
    | true =>
        -- a call that has stopped its thread was the reporter's, on the signal
        have startTime := Consumer.step_overwrites stepped overwrites
        have running : s.consumer.control ≠ .stopped := by
          intro stopped
          cases cases <;> simp_all
        have raised (refused : false ∈ s.decisions) : s.exitSignal = true := by
          have quit := (decided.quit refused).resolve_right running
          rw [← Bool.not_eq_false]
          intro unraised
          exact punctual ⟨_, rfl, overwrites, quit, unraised⟩
        refine ⟨counted, ?_, ?_, ?_, decided.reported, ?_, decided.permanent⟩
        · simp only [startTime]
          exact Int.le_trans (Int.le_trans decided.positive decided.started) reads.1
        · simp only [startTime]
          exact Int.le_refl now
        · exact fun refused => .inl ((decided.quit refused).resolve_right running)
        · intro refused later _
          apply goesOn_of_signal
          exact raised refused
  · simp at taken

theorem Decided.step {event : SessionEvent} (decided : Decided args s)
    (punctual : ¬s.LateFirstBatch event)
    (taken : s.step args maxOutstandingReceive event = some next)
    (short : next.consumer.handled.length < 2 ^ 32) : Decided args next := by
  cases event with
  | receive event =>
      cases event with
      | shouldStop exitSignal now => exact decided.receive_call taken
      | dequeue count now => exact decided.receive_dequeue punctual taken short
      | datagram | notify | completionStatus | corruptQueue | handle =>
          obtain ⟨consumer, stepped, rfl⟩ := Option.map_eq_some_iff.mp taken
          have cases := Consumer.step_cases stepped
          exact decided.unchecked rfl (Int.le_refl _) id (decided.counted.step cases)
            (decided.counted.totalPkts_le cases short) (Consumer.step_startTime stepped rfl) rfl
            (Consumer.stopped_stays cases)
  | report now =>
      simp only [ConsumerSession.step, ConsumerSession.report] at taken
      split at taken
      · rename_i running
        cases taken
        exact decided.checked running.2 rfl rfl rfl
          ⟨decided.counted.totalPkts, decided.counted.packets, decided.counted.others⟩ rfl rfl
          (fun stopped => .inl stopped) (fun stopped => .inr stopped)
      · simp at taken
  | raiseSignal =>
      cases taken
      exact decided.unchecked rfl (Int.le_refl _) (by simp) decided.counted (Nat.le_refl _) rfl
        rfl id

theorem receive_consumer {event : ConsumerEvent}
    (taken : s.receive args maxOutstandingReceive event = some next) :
    s.consumer.step args maxOutstandingReceive event = some next.consumer := by
  simp only [receive] at taken
  split at taken
  · split at taken
    · obtain ⟨consumer, stepped, rfl⟩ := Option.map_eq_some_iff.mp taken
      exact stepped
    · simp at taken
  · split at taken
    · obtain ⟨consumer, stepped, rfl⟩ := Option.map_eq_some_iff.mp taken
      exact stepped
    · simp at taken
  · obtain ⟨consumer, stepped, rfl⟩ := Option.map_eq_some_iff.mp taken
    exact stepped

theorem handled_grows {event : SessionEvent}
    (taken : s.step args maxOutstandingReceive event = some next) :
    s.consumer.handled.length ≤ next.consumer.handled.length := by
  cases event with
  | receive event =>
      exact Consumer.handled_grows (Consumer.step_cases (receive_consumer taken))
  | report now =>
      simp only [step, report] at taken
      split at taken
      · cases taken
        exact Nat.le_refl _
      · simp at taken
  | raiseSignal =>
      cases taken
      exact Nat.le_refl _

theorem Decided.run {now : Nat} {events : List SessionEvent}
    (reached : PartialRun.run (ConsumerSession.step args maxOutstandingReceive)
      (ConsumerSession.start args maxOutstandingReceive now) events = some s)
    (punctual : PartialRun.Along (ConsumerSession.step args maxOutstandingReceive)
      (fun s event => ¬s.LateFirstBatch event)
      (ConsumerSession.start args maxOutstandingReceive now) events) :
    s.consumer.handled.length < 2 ^ 32 → Decided args s := by
  refine @PartialRun.run_invariant_along _ _ _
    (fun s => s.consumer.handled.length < 2 ^ 32 → Decided args s) _ ?_ _ _ _ ?_ punctual reached
  · intro s event next decided meets taken short
    exact (decided (Nat.lt_of_le_of_lt (handled_grows taken) short)).step meets taken short
  · intro _
    refine ⟨⟨rfl, rfl, rfl⟩, Int.natCast_nonneg now, Int.le_refl _, ?_, ?_, ?_, List.Pairwise.nil⟩
    · simp [ConsumerSession.start]
    · simp [ConsumerSession.start]
    · simp [ConsumerSession.start]

end ConsumerSession

open ConsumerSession

variable {args : Args} {maxOutstandingReceive : UInt32} {s : ConsumerSession} {now : Nat}
  {events : List SessionEvent}

/-- While the first batch does not come after the report thread has quit, a call
of `ShouldStop` that stops a thread is the last one to let either thread go on:
all later calls stop theirs, and so would a call made now once the reporter has quit. -/
theorem shouldStop_permanent
    (reached : PartialRun.run (ConsumerSession.step args maxOutstandingReceive)
      (ConsumerSession.start args maxOutstandingReceive now) events = some s)
    (short : s.consumer.handled.length < 2 ^ 32)
    (punctual : PartialRun.Along (ConsumerSession.step args maxOutstandingReceive)
      (fun s event => ¬s.LateFirstBatch event)
      (ConsumerSession.start args maxOutstandingReceive now) events) :
    (s.decisions.Pairwise fun earlier later => earlier = false → later = false) ∧
      (s.reporting = false → ∀ later, s.Reads later → s.goesOn args later = false) := by
  have decided := Decided.run reached punctual short
  exact ⟨decided.permanent, fun quit => decided.stays (decided.reported quit)⟩

def oneSecondArgs : Args := { unlimitedArgs with secondsToRun := 1 }

theorem shouldStop_permanent_one_second :
    ∃ s, PartialRun.run (ConsumerSession.step oneSecondArgs maxPendingRecvs)
        (ConsumerSession.start oneSecondArgs maxPendingRecvs 0)
        [.receive (.shouldStop false 0), .report 1000000000] = some s ∧
      s.reporting = false ∧ ∀ later, s.Reads later → s.goesOn oneSecondArgs later = false := by
  obtain ⟨s, reached, quit, none⟩ :
      ∃ s, PartialRun.run (ConsumerSession.step oneSecondArgs maxPendingRecvs)
        (ConsumerSession.start oneSecondArgs maxPendingRecvs 0)
        [.receive (.shouldStop false 0), .report 1000000000] = some s ∧
      s.reporting = false ∧ s.consumer.handled.length < 2 ^ 32 := ⟨_, rfl, rfl, by decide⟩
  refine ⟨s, reached, quit, (shouldStop_permanent reached none ?_).2 quit⟩
  apply PartialRun.along_of_forall
  rintro event member state ⟨inner, rfl, overwrites, -, -⟩
  simp only [List.mem_cons, SessionEvent.receive.injEq, List.not_mem_nil, reduceCtorEq,
    or_false] at member
  subst member
  cases overwrites

/-- The reporter checks the time after one second without packets; the loop, back
from its wait, finds the first packet. -/
def lateFirstPacket : List SessionEvent :=
  [.receive (.shouldStop false 0), .receive .notify,
    .receive (.datagram (datagramTo 38077935 100)), .report 1000000000,
    .receive (.completionStatus true), .receive (.dequeue 1 1000000000), .receive .handle,
    .receive (.shouldStop false 1000000000)]

theorem lateFirstPacket_run {first : Consumer} {receive : Receive} {posted : List Receive}
    (startEq : first = { first with
      control := .loopHead, shouldNotify := true, totalPkts := 0, timing := {}
      completions := .empty, posted := receive :: posted }) :
    ∃ s, PartialRun.run (ConsumerSession.step oneSecondArgs maxOutstandingReceive)
        { consumer := first, clock := 0 } lateFirstPacket = some s ∧
      s.reporting = false ∧ s.decisions = [true, false, true] := by
  rw [startEq]
  exact ⟨_, rfl, rfl, rfl⟩

/-- The call that stopped the reporter is followed by one that lets the loop go on. -/
theorem shouldStop_reversed_by_first_packet :
    ∃ s, PartialRun.run (ConsumerSession.step oneSecondArgs maxPendingRecvs)
        (ConsumerSession.start oneSecondArgs maxPendingRecvs 0) lateFirstPacket = some s ∧
      s.reporting = false ∧ s.decisions = [true, false, true] := by
  have posted := @postFirstRecvs_cons maxPendingRecvs 1499999 (by decide)
  apply lateFirstPacket_run
  rw [← posted]
  rfl

end RioClient
