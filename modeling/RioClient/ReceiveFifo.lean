import RioClient.ConsumerSteps

/-!
The consumer without its control flow: a FIFO of receives that datagrams
complete and the handler takes from the front. Notification, waiting, timing
and the split into batches are forgotten.
-/

namespace RioClient

structure ReceiveFifo where
  posted : List Receive
  completed : List Completion
  rioBuff : UInt32 → ProtocolHeader
  mcAddrBuff : UInt32 → SockaddrInet
  mcAddrDescrIndex : UInt32
  groupStats : McGroupStatsMap
  handled : List Completion
  credits : List Credit

inductive FifoEvent
  | arrive (datagram : Datagram)
  | handle
deriving DecidableEq, Repr

namespace ReceiveFifo

def nextAddr (maxOutstandingReceive : UInt32) (fifo : ReceiveFifo) : Nat :=
  (fifo.mcAddrDescrIndex % maxOutstandingReceive).toNat

def pending (fifo : ReceiveFifo) : List Receive :=
  fifo.completed.map Completion.receive ++ fifo.posted

def arrived (maxOutstandingReceive : UInt32) (datagram : Datagram) (receive : Receive)
    (posted : List Receive) (fifo : ReceiveFifo) : ReceiveFifo :=
  { fifo with
    posted
    completed := fifo.completed ++ [⟨receive, datagram⟩]
    rioBuff := Function.update fifo.rioBuff
      (offsetOf (rioBuffDescr maxOutstandingReceive) receive.descriptor) datagram.header
    mcAddrBuff := Function.update fifo.mcAddrBuff
      (offsetOf (mcAddrDescr maxOutstandingReceive) receive.slot) datagram.destination }

/-- What the handler reads for a packet: the group from the slot it is about to
reuse, the header from the packet's own window. -/
def credit (maxOutstandingReceive : UInt32) (result : Completion) (fifo : ReceiveFifo) : Credit where
  slot := fifo.nextAddr maxOutstandingReceive
  mcastAddr := fifo.mcAddrBuff
    (offsetOf (mcAddrDescr maxOutstandingReceive) (fifo.nextAddr maxOutstandingReceive))
  pHeader := fifo.rioBuff (offsetOf (rioBuffDescr maxOutstandingReceive) result.receive.descriptor)
  completion := result

def credited (maxOutstandingReceive : UInt32) (result : Completion) (rest : List Completion)
    (fifo : ReceiveFifo) : ReceiveFifo :=
  let credit := fifo.credit maxOutstandingReceive result
  { fifo with
    posted := fifo.posted ++ [⟨result.receive.descriptor, fifo.nextAddr maxOutstandingReceive⟩]
    completed := rest
    mcAddrDescrIndex := fifo.mcAddrDescrIndex + 1
    groupStats := groupStatsUpdate fifo.groupStats credit.mcastAddr expectedDataSize.toUInt64
      credit.pHeader
    handled := fifo.handled ++ [result]
    credits := fifo.credits ++ [credit] }

def ignored (result : Completion) (rest : List Completion) (fifo : ReceiveFifo) : ReceiveFifo :=
  { fifo with completed := rest, handled := fifo.handled ++ [result] }

def step (maxOutstandingReceive : UInt32) (fifo : ReceiveFifo) : FifoEvent → Option ReceiveFifo
  | .arrive datagram =>
      match fifo.posted with
      | [] => none
      | receive :: posted => some (fifo.arrived maxOutstandingReceive datagram receive posted)
  | .handle =>
      match fifo.completed with
      | [] => none
      | result :: rest =>
          some (if result.expected then fifo.credited maxOutstandingReceive result rest
            else fifo.ignored result rest)

inductive Step (maxOutstandingReceive : UInt32) (fifo : ReceiveFifo) : ReceiveFifo → Prop
  | arrived {datagram receive posted} : fifo.posted = receive :: posted →
      Step maxOutstandingReceive fifo (fifo.arrived maxOutstandingReceive datagram receive posted)
  | credited {result rest} : fifo.completed = result :: rest → result.expected = true →
      Step maxOutstandingReceive fifo (fifo.credited maxOutstandingReceive result rest)
  | ignored {result rest} : fifo.completed = result :: rest → result.expected = false →
      Step maxOutstandingReceive fifo (fifo.ignored result rest)

theorem step_cases {maxOutstandingReceive : UInt32} {fifo next : ReceiveFifo} {event : FifoEvent}
    (taken : fifo.step maxOutstandingReceive event = some next) :
    Step maxOutstandingReceive fifo next := by
  cases event with
  | arrive datagram =>
      simp only [step] at taken
      split at taken
      · simp at taken
      · rename_i receive posted postedEq
        cases taken
        exact .arrived postedEq
  | handle =>
      simp only [step] at taken
      split at taken
      · simp at taken
      · rename_i result rest completedEq
        cases taken
        cases expected : result.expected with
        | true => exact .credited completedEq expected
        | false => exact .ignored completedEq expected

end ReceiveFifo

namespace Consumer

def fifo (c : Consumer) : ReceiveFifo where
  posted := c.posted
  completed := c.completed
  rioBuff := c.rioBuff
  mcAddrBuff := c.mcAddrBuff
  mcAddrDescrIndex := c.mcAddrDescrIndex
  groupStats := c.groupStats
  handled := c.handled
  credits := c.credits

def fifoEvents : ConsumerEvent → List FifoEvent
  | .datagram datagram => [.arrive datagram]
  | .handle => [.handle]
  | _ => []

variable {args : Args} {maxOutstandingReceive : UInt32} {c next : Consumer}

theorem handleCompletion_completions (result : Completion) :
    (c.handleCompletion maxOutstandingReceive result).completions = c.completions := by
  simp only [handleCompletion]
  split <;> rfl

theorem fifo_handle {result : Completion} {rest : List Completion}
    (handling : c.control = .handling (result :: rest))
    (control : ConsumerControl) (shouldNotify : Bool)
    (remaining : ({ c with control } : Consumer).results = rest) :
    c.fifo.step maxOutstandingReceive .handle =
      some ({ c.handleCompletion maxOutstandingReceive result with
        control, shouldNotify } : Consumer).fifo := by
  have completedEq : c.fifo.completed = result :: (rest ++ c.completions.entries) := by
    simp [fifo, completed, results, handling]
  have remainingEq : ∀ d : Consumer, d.completions = c.completions →
      ({ d with control, shouldNotify } : Consumer).completed = rest ++ c.completions.entries := by
    intro d same
    rw [← remaining, ← same]
    rfl
  simp only [ReceiveFifo.step, completedEq, Option.some.injEq]
  by_cases expected : result.datagram.bytesTransferred = expectedDataSize
  · have counted : result.expected = true := by simpa [Completion.expected, Datagram.expected]
    rw [if_pos counted]
    simp only [fifo, remainingEq _ (handleCompletion_completions result)]
    simp [ReceiveFifo.credited, ReceiveFifo.credit, ReceiveFifo.nextAddr, handleCompletion, expected]
  · have uncounted : ¬result.expected = true := by simpa [Completion.expected, Datagram.expected]
    rw [if_neg uncounted]
    simp only [fifo, remainingEq _ (handleCompletion_completions result)]
    simp [ReceiveFifo.ignored, handleCompletion, expected]

theorem fifo_step {event : ConsumerEvent}
    (taken : ConsumerStep maxOutstandingReceive c event next) :
    PartialRun.run (ReceiveFifo.step maxOutstandingReceive) c.fifo (fifoEvents event) =
      some next.fifo := by
  cases taken with
  | datagram postedEq =>
      simp [fifoEvents, PartialRun.run_cons, ReceiveFifo.step, fifo, postedEq,
        ReceiveFifo.arrived, completed, results]
  | goOn atHead | stop atHead =>
      simp [fifoEvents, fifo, completed, results, atHead]
  | notified atNotify _ notified =>
      simp [fifoEvents, fifo, completed, results, atNotify,
        CompletionQueue.notify_entries notified]
  | notifyFailed atNotify _ _ | notNotified atNotify _ =>
      simp [fifoEvents, fifo, completed, results, atNotify]
  | packet atWait packet =>
      simp [fifoEvents, fifo, completed, results, atWait, CompletionQueue.takePacket_entries packet]
  | timeout atWait _ =>
      simp [fifoEvents, fifo, completed, results, atWait]
  | empty atDequeue _ | corrupt atDequeue =>
      simp [fifoEvents, fifo, completed, results, atDequeue]
  | dequeued atDequeue _ _ =>
      simp [fifoEvents, fifo, completed, results, atDequeue]
  | @handled result following rest handling =>
      simp only [fifoEvents, PartialRun.run_cons]
      rw [fifo_handle handling (.handling (following :: rest))
        (c.handleCompletion maxOutstandingReceive result).shouldNotify rfl]
      rfl
  | handledLast handling =>
      simp only [fifoEvents, PartialRun.run_cons]
      rw [fifo_handle handling .loopHead true rfl]
      rfl

theorem fifo_run {now : Int} {events : List ConsumerEvent}
    (reached : PartialRun.run (step args maxOutstandingReceive)
      (start args maxOutstandingReceive now) events = some c) :
    PartialRun.run (ReceiveFifo.step maxOutstandingReceive)
      (start args maxOutstandingReceive now).fifo (events.flatMap fifoEvents) = some c.fifo :=
  PartialRun.run_simulates fifo fifoEvents (fun _ _ _ taken => fifo_step (step_cases taken)) reached

end Consumer

end RioClient
