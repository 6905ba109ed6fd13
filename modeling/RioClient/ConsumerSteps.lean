import RioClient.ConsumerCore
import RioClient.PartialRun

/-! What one step of the consumer can do, said once for all invariants. -/

namespace RioClient

inductive ConsumerStep (maxOutstandingReceive : UInt32) (c : Consumer) :
    ConsumerEvent → Consumer → Prop
  | datagram {datagram receive posted} : c.posted = receive :: posted →
      ConsumerStep maxOutstandingReceive c (.datagram datagram) { c with
        posted
        rioBuff := Function.update c.rioBuff
          (offsetOf (rioBuffDescr maxOutstandingReceive) receive.descriptor) datagram.header
        mcAddrBuff := Function.update c.mcAddrBuff
          (offsetOf (mcAddrDescr maxOutstandingReceive) receive.slot) datagram.destination
        completions := c.completions.push ⟨receive, datagram⟩ }
  | goOn {exitSignal now timing} : c.control = .loopHead →
      ConsumerStep maxOutstandingReceive c (.shouldStop exitSignal now)
        { c with control := .notify, timing }
  | stop {exitSignal now timing} : c.control = .loopHead →
      ConsumerStep maxOutstandingReceive c (.shouldStop exitSignal now)
        { c with control := .stopped, timing }
  | notified {completions} : c.control = .notify → c.shouldNotify = true →
      c.completions.notify = some completions →
      ConsumerStep maxOutstandingReceive c .notify { c with control := .wait, completions }
  | notifyFailed : c.control = .notify → c.shouldNotify = true → c.completions.armed = true →
      ConsumerStep maxOutstandingReceive c .notify { c with control := .notifyFailed }
  | notNotified : c.control = .notify → c.shouldNotify = false →
      ConsumerStep maxOutstandingReceive c .notify { c with control := .wait }
  | packet {completions} : c.control = .wait → c.completions.takePacket = some completions →
      ConsumerStep maxOutstandingReceive c (.completionStatus true)
        { c with control := .dequeue, completions }
  | timeout : c.control = .wait → c.completions.portPackets = 0 →
      ConsumerStep maxOutstandingReceive c (.completionStatus false)
        { c with control := .dequeue, shouldNotify := false }
  | empty {now} : c.control = .dequeue → c.completions.entries = [] →
      ConsumerStep maxOutstandingReceive c (.dequeue 0 now) { c with control := .loopHead }
  | dequeued {count now timing} : c.control = .dequeue → 0 < count →
      c.completions.Dequeues maxRioResults count →
      ConsumerStep maxOutstandingReceive c (.dequeue count now) { c with
        control := .handling (c.completions.entries.take count)
        completions := c.completions.dequeued count
        timing }
  | corrupt : c.control = .dequeue →
      ConsumerStep maxOutstandingReceive c .corruptQueue { c with control := .loopHead }
  | handled {result next rest} : c.control = .handling (result :: next :: rest) →
      ConsumerStep maxOutstandingReceive c .handle
        { c.handleCompletion maxOutstandingReceive result with
          control := .handling (next :: rest) }
  | handledLast {result} : c.control = .handling [result] →
      ConsumerStep maxOutstandingReceive c .handle
        { c.handleCompletion maxOutstandingReceive result with
          control := .loopHead
          shouldNotify := true }

namespace Consumer

variable {args : Args} {maxOutstandingReceive : UInt32} {c next : Consumer}

theorem step_cases {event : ConsumerEvent}
    (taken : c.step args maxOutstandingReceive event = some next) :
    ConsumerStep maxOutstandingReceive c event next := by
  cases event with
  | datagram datagram =>
      simp only [step, receiveDatagram] at taken
      split at taken
      · simp at taken
      · rename_i receive posted postedEq
        cases taken
        exact .datagram postedEq
  | shouldStop exitSignal now =>
      simp only [step, checkStop] at taken
      split at taken
      · rename_i atHead
        cases taken
        cases (shouldStop args exitSignal now c.totalPkts c.timing).1 with
        | true => exact .goOn atHead
        | false => exact .stop atHead
      · simp at taken
  | notify =>
      simp only [step, notifyCompletionQueue] at taken
      split at taken
      · rename_i atNotify
        split at taken
        · rename_i wanted
          split at taken
          · rename_i completions notified
            cases taken
            exact .notified atNotify wanted notified
          · rename_i failed
            cases taken
            exact .notifyFailed atNotify wanted
              ((CompletionQueue.notify_eq_none_iff _).mp failed)
        · rename_i unwanted
          cases taken
          exact .notNotified atNotify (Bool.eq_false_iff.mpr unwanted)
      · simp at taken
  | completionStatus dequeued =>
      simp only [step, getQueuedCompletionStatus] at taken
      split at taken
      · rename_i atWait
        cases dequeued with
        | true =>
            obtain ⟨completions, packet, rfl⟩ := Option.map_eq_some_iff.mp taken
            exact .packet atWait packet
        | false =>
            simp only [Bool.false_eq_true, if_false] at taken
            split at taken
            · rename_i none
              cases taken
              exact .timeout atWait none
            · simp at taken
      · simp at taken
  | dequeue count now =>
      simp only [step, dequeueCompletion] at taken
      split at taken
      · rename_i atDequeue
        split at taken
        · rename_i dequeues
          split at taken
          · rename_i zero
            subst zero
            cases taken
            exact .empty atDequeue (dequeues.2.2 rfl)
          · rename_i some
            cases taken
            exact .dequeued atDequeue (Nat.pos_of_ne_zero some) dequeues
        · simp at taken
      · simp at taken
  | corruptQueue =>
      simp only [step, dequeueCorrupt] at taken
      split at taken
      · rename_i atDequeue
        cases taken
        exact .corrupt atDequeue
      · simp at taken
  | handle =>
      simp only [step, handleNext] at taken
      split at taken
      · rename_i result rest handling
        cases taken
        cases rest with
        | nil => exact .handledLast handling
        | cons following rest => exact .handled handling
      · simp at taken

end Consumer

end RioClient
