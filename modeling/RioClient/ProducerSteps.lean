import RioClient.PartialRun
import RioClient.ProducerCore

/-!
What one step of the producer can do, said once for all invariants, and what it
does to the sends: there notification, waiting and timing are forgotten, and of
the control flow only the batch being handled remains.
-/

namespace RioClient

inductive ProducerStep (args : ProducerArgs) (p : Producer) : ProducerEvent → Producer → Prop
  | complete {k send} : p.posted[k]? = some send →
      ProducerStep args p (.complete k) { p with
        posted := p.posted.eraseIdx k
        completions := p.completions.push send }
  | goOn {exitSignal now timing} : p.control = .loopHead →
      ProducerStep args p (.shouldStop exitSignal now) { p with control := .notify, timing }
  | stop {exitSignal now timing} : p.control = .loopHead →
      ProducerStep args p (.shouldStop exitSignal now) { p with control := .stopped, timing }
  | notified {completions} : p.control = .notify → p.completions.notify = some completions →
      ProducerStep args p .notify { p with control := .wait, completions }
  | notifyFailed : p.control = .notify → p.completions.armed = true →
      ProducerStep args p .notify { p with control := .notifyFailed }
  | packet {completions} : p.control = .wait → p.completions.takePacket = some completions →
      ProducerStep args p .completionStatus { p with control := .dequeue, completions }
  | empty : p.control = .dequeue → p.completions.entries = [] →
      ProducerStep args p (.dequeue 0) { p with control := .dequeueFailed }
  | dequeued {count} : p.control = .dequeue → 0 < count →
      p.completions.Dequeues args.maxOutstandingSend count →
      ProducerStep args p (.dequeue count) { p with
        control := .handling 0 (p.completions.entries.take count)
        completions := p.completions.dequeued count }
  | corrupt : p.control = .dequeue →
      ProducerStep args p .corruptQueue { p with control := .dequeueFailed }
  | handled {now i result rest} : p.control = .handling i (result :: rest) →
      ProducerStep args p (.handle now) { p.handleCompletion args now i result with
        control := if rest.isEmpty then .loopHead else .handling (i + 1) rest
        batches := if i = 0 then p.batches ++ [rest.length + 1] else p.batches }

theorem Producer.step_cases {args : ProducerArgs} {p next : Producer} {event : ProducerEvent}
    (taken : p.step args event = some next) : ProducerStep args p event next := by
  cases event with
  | complete k =>
      obtain ⟨send, found, rfl⟩ := Option.map_eq_some_iff.mp taken
      exact .complete found
  | shouldStop exitSignal now =>
      simp only [step, checkStop] at taken
      split at taken
      · rename_i atHead
        cases taken
        cases (shouldStop args.toArgs exitSignal now p.totalPkts p.timing).1 with
        | true => exact .goOn atHead
        | false => exact .stop atHead
      · simp at taken
  | notify =>
      simp only [step, notifyCompletionQueue] at taken
      split at taken
      · rename_i atNotify
        split at taken
        · rename_i completions notified
          cases taken
          exact .notified atNotify notified
        · rename_i failed
          cases taken
          exact .notifyFailed atNotify ((CompletionQueue.notify_eq_none_iff _).mp failed)
      · simp at taken
  | completionStatus =>
      simp only [step, getQueuedCompletionStatus] at taken
      split at taken
      · rename_i atWait
        obtain ⟨completions, packet, rfl⟩ := Option.map_eq_some_iff.mp taken
        exact .packet atWait packet
      · simp at taken
  | dequeue count =>
      simp only [step, dequeueCompletion] at taken
      split at taken
      · rename_i atDequeue
        split at taken
        · rename_i dequeues
          split at taken
          · rename_i zero
            subst zero
            cases taken
            exact .empty atDequeue (dequeues.2.2 rfl)
          · rename_i some
            cases taken
            exact .dequeued atDequeue (Nat.pos_of_ne_zero some) dequeues
        · simp at taken
      · simp at taken
  | corruptQueue =>
      simp only [step, dequeueCorrupt] at taken
      split at taken
      · rename_i atDequeue
        cases taken
        exact .corrupt atDequeue
      · simp at taken
  | handle now =>
      simp only [step, handleNext] at taken
      split at taken
      · rename_i i result rest handling
        cases taken
        exact .handled handling
      · simp at taken

/-- The part of the producer's state that the sends depend on: `index` and
`results` are the batch-local position and what is left of the batch. -/
structure SendState where
  sequenceNumber : UInt64
  groupCounter : Nat
  rioBuff : UInt32 → ProtocolHeader
  posted : List Send
  completed : List Send
  index : Nat
  results : List Send
  sent : List Send
  batches : List Nat

namespace SendState

def repost (args : ProducerArgs) (result : Send) (s : SendState) : Send where
  descriptor := result.descriptor
  address := s.index % args.numberOfMcGroups
  seq := s.sequenceNumber

def handled (args : ProducerArgs) (now : UInt64) (result : Send) (rest : List Send)
    (s : SendState) : SendState :=
  let offset := offsetOf args.rioBuffDescr result.descriptor
  let groupCounter := (s.groupCounter + 1) % args.numberOfMcGroups
  { s with
    sequenceNumber := if groupCounter = 0 then s.sequenceNumber + 1 else s.sequenceNumber
    groupCounter
    rioBuff := Function.update s.rioBuff offset
      { s.rioBuff offset with seq := s.sequenceNumber, timestamp := now }
    posted := s.posted ++ [s.repost args result]
    index := if rest.isEmpty then 0 else s.index + 1
    results := rest
    sent := s.sent ++ [s.repost args result]
    batches := if s.index = 0 then s.batches ++ [rest.length + 1] else s.batches }

section Handled

variable (args : ProducerArgs) (now : UInt64) (result : Send) (rest : List Send) (s : SendState)

@[simp] theorem handled_results : (s.handled args now result rest).results = rest := rfl

@[simp] theorem handled_index :
    (s.handled args now result rest).index = if rest.isEmpty then 0 else s.index + 1 := rfl

@[simp] theorem handled_sent :
    (s.handled args now result rest).sent = s.sent ++ [s.repost args result] := rfl

theorem handled_sent_length :
    (s.handled args now result rest).sent.length = s.sent.length + 1 := by
  rw [handled_sent, List.length_append, List.length_singleton]

@[simp] theorem handled_batches :
    (s.handled args now result rest).batches =
      if s.index = 0 then s.batches ++ [rest.length + 1] else s.batches := rfl

theorem handled_seq_self :
    ((s.handled args now result rest).rioBuff
      (offsetOf args.rioBuffDescr result.descriptor)).seq = s.sequenceNumber := by
  simp [handled]

theorem handled_rioBuff_of_ne {offset : UInt32}
    (apart : offset ≠ offsetOf args.rioBuffDescr result.descriptor) :
    (s.handled args now result rest).rioBuff offset = s.rioBuff offset :=
  Function.update_of_ne apart _ _

end Handled

end SendState

inductive SendStep (args : ProducerArgs) (s : SendState) : ProducerEvent → SendState → Prop
  | complete {k send} : s.posted[k]? = some send →
      SendStep args s (.complete k) { s with
        posted := s.posted.eraseIdx k
        completed := s.completed ++ [send] }
  | take {count} : s.results = [] → s.index = 0 → count ≤ s.completed.length →
      SendStep args s (.dequeue count) { s with
        results := s.completed.take count
        completed := s.completed.drop count }
  | handle {now result rest} : s.results = result :: rest →
      SendStep args s (.handle now) (s.handled args now result rest)

namespace Producer

def index (p : Producer) : Nat :=
  match p.control with
  | .handling i _ => i
  | _ => 0

def results (p : Producer) : List Send :=
  match p.control with
  | .handling _ results => results
  | _ => []

def sends (p : Producer) : SendState where
  sequenceNumber := p.sequenceNumber
  groupCounter := p.groupCounter
  rioBuff := p.rioBuff
  posted := p.posted
  completed := p.completions.entries
  index := p.index
  results := p.results
  sent := p.sent
  batches := p.batches

variable {args : ProducerArgs} {p next : Producer}

theorem handleNext_sends {now : UInt64} {i : Nat} {result : Send} {rest : List Send}
    (handling : p.control = .handling i (result :: rest)) :
    ({ p.handleCompletion args now i result with
        control := if rest.isEmpty then .loopHead else .handling (i + 1) rest
        batches := if i = 0 then p.batches ++ [rest.length + 1] else p.batches } :
      Producer).sends = p.sends.handled args now result rest := by
  have position : p.index = i := by simp [index, handling]
  cases rest with
  | nil =>
      simp [sends, SendState.handled, SendState.repost, handleCompletion, send, index, results,
        handling]
  | cons following rest =>
      simp [sends, SendState.handled, SendState.repost, handleCompletion, send, index, results,
        handling]

theorem sendStep {event : ProducerEvent} (taken : p.step args event = some next) :
    next.sends = p.sends ∨ SendStep args p.sends event next.sends := by
  cases step_cases taken with
  | complete found => exact .inr (.complete found)
  | goOn atHead | stop atHead =>
      left
      simp [sends, index, results, atHead]
  | notified atNotify notified =>
      left
      simp [sends, index, results, atNotify, CompletionQueue.notify_entries notified]
  | notifyFailed atNotify _ =>
      left
      simp [sends, index, results, atNotify]
  | packet atWait packet =>
      left
      simp [sends, index, results, atWait, CompletionQueue.takePacket_entries packet]
  | empty atDequeue _ | corrupt atDequeue =>
      left
      simp [sends, index, results, atDequeue]
  | @dequeued count atDequeue _ dequeues =>
      right
      have batch : SendStep args p.sends (.dequeue count) _ :=
        .take (by simp [sends, results, atDequeue]) (by simp [sends, index, atDequeue])
          dequeues.2.1
      simpa [sends, index, results, atDequeue] using batch
  | handled handling =>
      right
      rw [handleNext_sends handling]
      exact .handle (by simp [sends, results, handling])

/-- What holds before the first sends and is preserved by a send holds where the loop begins. -/
theorem start_of_sends {Holds : Producer → Prop} {mcAddrBuff : UInt32 → SockaddrInet}
    {clock : Nat → UInt64} {now : Int}
    (filled : Holds {
      timing := Timing.setStart {} now
      groupStats := initGroupStats args.mcastAddrStr
      rioBuff := fillPackets clock args.rate 0 0 fun _ => {}
      mcAddrBuff })
    (sent : ∀ p descriptor address, Holds p → Holds (p.send args descriptor address))
    (numbered : ∀ p sequenceNumber, Holds p → Holds { p with sequenceNumber }) :
    Holds (start args mcAddrBuff clock now) := by
  have posted (indices : List Nat) (p : Producer) (holds : Holds p) :
      Holds (indices.foldl (fun p i => p.send args i (i % args.numberOfMcGroups)) p) := by
    induction indices generalizing p with
    | nil => exact holds
    | cons i indices ih => exact ih _ (sent p i _ holds)
  exact numbered _ _ (posted _ _ filled)

/-- What holds of the first sends and is preserved by the steps that change the
sends holds of the sends in every state of a run; the events may be restricted. -/
theorem sends_invariant_along {Holds : SendState → Prop} {Meets : ProducerEvent → Prop}
    (preserved : ∀ s event next, Holds s → Meets event → SendStep args s event next → Holds next)
    {start : Producer} {events : List ProducerEvent} (initially : Holds start.sends)
    (meets : ∀ event ∈ events, Meets event)
    (reached : PartialRun.run (step args) start events = some p) : Holds p.sends := by
  have everyStep (p : Producer) (event : ProducerEvent) (next : Producer)
      (holds : Holds p.sends) (meets : Meets event) (taken : step args p event = some next) :
      Holds next.sends := by
    rcases sendStep taken with same | changed
    · exact same ▸ holds
    · exact preserved _ event _ holds meets changed
  exact @PartialRun.run_invariant_along _ _ (step args) (fun p => Holds p.sends)
    (fun _ event => Meets event) everyStep _ _ _ initially
    (PartialRun.along_of_forall (fun event member _ => meets event member) start) reached

theorem sends_invariant {Holds : SendState → Prop}
    (preserved : ∀ s event next, Holds s → SendStep args s event next → Holds next)
    {start : Producer} {events : List ProducerEvent} (initially : Holds start.sends)
    (reached : PartialRun.run (step args) start events = some p) : Holds p.sends :=
  @sends_invariant_along args p Holds (fun _ => True)
    (fun s event next holds _ taken => preserved s event next holds taken) _ _ initially
    (fun _ _ => trivial) reached

end Producer

end RioClient
