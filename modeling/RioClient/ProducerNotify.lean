import Mathlib.Data.List.Perm.Basic
import RioClient.ProducerRuns

/-!
The completion protocol of the producer. One notification is armed for every
wait, a wait returns only when a send has completed, and every descriptor is
always held by one send.
-/

namespace RioClient

/-- A notification is out exactly while the loop waits for it, and a wait that
has returned left a result to dequeue. -/
structure Notified (p : Producer) : Prop where
  waiting : p.completions.tokens = if p.control = .wait then 1 else 0
  backed : p.completions.Backed
  atDequeue : p.control = .dequeue → p.completions.entries ≠ []
  running : p.control ≠ .notifyFailed ∧ p.control ≠ .dequeueFailed

def SendState.held (s : SendState) : List Nat :=
  (s.results ++ s.completed ++ s.posted).map Send.descriptor

variable {args : ProducerArgs} {p next : Producer}

theorem Notified.none (notified : Notified p) {control : ProducerControl}
    (here : p.control = control) (elsewhere : control ≠ .wait) : p.completions.tokens = 0 := by
  have tokens := notified.waiting
  rwa [here, if_neg elsewhere] at tokens

theorem Notified.step {event : ProducerEvent} (notified : Notified p)
    (intact : event ≠ .corruptQueue) (taken : ProducerStep args p event next) :
    Notified next := by
  cases taken with
  | complete found =>
      refine ⟨?_, CompletionQueue.Backed.push _, ?_, notified.running⟩
      · rw [CompletionQueue.tokens_push]
        exact notified.waiting
      · simp
  | goOn atHead =>
      have none := notified.none atHead (by simp)
      exact ⟨by simp [none], notified.backed, by simp, by simp⟩
  | stop atHead =>
      have none := notified.none atHead (by simp)
      exact ⟨by simp [none], notified.backed, by simp, by simp⟩
  | notified atNotify armed =>
      have one := CompletionQueue.notify_tokens armed
      rw [notified.none atNotify (by simp)] at one
      exact ⟨by simp [one], notified.backed.notify armed, by simp, by simp⟩
  | notifyFailed atNotify armed =>
      have idle := (CompletionQueue.tokens_eq_zero_iff _).mp (notified.none atNotify (by simp))
      rw [idle.1] at armed
      exact absurd armed Bool.false_ne_true
  | @packet completions atWait packet =>
      have spent := CompletionQueue.takePacket_tokens packet
      have one := notified.waiting
      rw [if_pos atWait] at one
      have none : completions.tokens = 0 := by omega
      have onPort := CompletionQueue.takePacket_portPackets packet
      refine ⟨by simp [none], CompletionQueue.Backed.of_tokens none, fun _ => ?_, by simp⟩
      rw [CompletionQueue.takePacket_entries packet]
      exact notified.backed (by omega)
  | empty atDequeue nothing => exact absurd nothing (notified.atDequeue atDequeue)
  | dequeued atDequeue =>
      have none := notified.none atDequeue (by simp)
      exact ⟨by simp [none], CompletionQueue.Backed.of_tokens (by simp [none]), by simp, by simp⟩
  | corrupt => exact absurd rfl intact
  | @handled now i result rest handling =>
      have none : (p.handleCompletion args now i result).completions.tokens = 0 :=
        notified.none handling (by simp)
      cases rest with
      | nil => exact ⟨by simp [none], CompletionQueue.Backed.of_tokens none, by simp, by simp⟩
      | cons following rest =>
          exact ⟨by simp [none], CompletionQueue.Backed.of_tokens none, by simp, by simp⟩

theorem SendStep.held_perm {s after : SendState} {event : ProducerEvent}
    (taken : SendStep args s event after) : after.held.Perm s.held := by
  cases taken with
  | @complete k send found =>
      obtain ⟨bound, rfl⟩ := List.getElem?_eq_some_iff.mp found
      rw [SendState.held, SendState.held, List.append_assoc, List.append_assoc,
        List.append_assoc]
      apply List.Perm.map
      apply List.Perm.append_left
      exact List.Perm.append_left _ (List.getElem_cons_eraseIdx_perm bound)
  | take none _ _ =>
      rw [SendState.held, SendState.held, none, List.take_append_drop, List.nil_append]
  | @handle now result rest resultsEq =>
      have moved : (s.handled args now result rest).held =
          (rest ++ s.completed ++ s.posted).map Send.descriptor ++ [result.descriptor] := by
        simp [SendState.held, SendState.handled, SendState.repost]
      have before : s.held =
          [result.descriptor] ++ (rest ++ s.completed ++ s.posted).map Send.descriptor := by
        simp [SendState.held, resultsEq]
      rw [moved, before]
      exact List.perm_append_comm

variable {mcAddrBuff : UInt32 → SockaddrInet} {clock : Nat → UInt64} {now : Int}
  {events : List ProducerEvent}

theorem Notified.start : Notified (Producer.start args mcAddrBuff clock now) := by
  have idle : (Producer.start args mcAddrBuff clock now).control = .loopHead ∧
      (Producer.start args mcAddrBuff clock now).completions = .empty :=
    @Producer.start_of_sends args (fun p => p.control = .loopHead ∧ p.completions = .empty)
      _ _ _ ⟨rfl, rfl⟩ (fun _ _ _ idle => idle) (fun _ _ idle => idle)
  obtain ⟨atHead, quiet⟩ := idle
  refine ⟨?_, ?_, ?_, ?_⟩
  · simp [atHead, quiet]
  · rw [quiet]
    exact CompletionQueue.Backed.of_tokens rfl
  · simp [atHead]
  · simp [atHead]

theorem Producer.notified (reached : PartialRun.run (Producer.step args)
      (Producer.start args mcAddrBuff clock now) events = some p)
    (intact : ∀ event ∈ events, event ≠ .corruptQueue) : Notified p :=
  PartialRun.run_invariant_along
    (fun _ _ _ notified meets taken => notified.step meets (Producer.step_cases taken))
    Notified.start (PartialRun.along_of_forall (fun event member _ => intact event member) _)
    reached

theorem Producer.held_perm (reached : PartialRun.run (Producer.step args)
      (Producer.start args mcAddrBuff clock now) events = some p) :
    p.sends.held.Perm (List.range args.maxOutstandingSend) := by
  refine @Producer.sends_invariant args p
    (fun s => s.held.Perm (List.range args.maxOutstandingSend))
    (fun _ _ _ held taken => taken.held_perm.trans held) _ _ ?_ reached
  rw [Producer.start_sends]
  simp [SendState.held, firstSends, Function.comp_def]

/-- Unless RIO reports a corrupt queue, no notification is requested while one is
armed and no dequeue after a wait comes back empty. Every descriptor is held by
one send at any time, and at the loop head that send is posted or waits in the queue. -/
theorem producer_completion_protocol (reached : PartialRun.run (Producer.step args)
      (Producer.start args mcAddrBuff clock now) events = some p)
    (intact : ∀ event ∈ events, event ≠ .corruptQueue) :
    (p.control = .notify → p.completions.armed = false) ∧
    (p.control = .dequeue → p.completions.entries ≠ []) ∧
    (p.control ≠ .notifyFailed ∧ p.control ≠ .dequeueFailed) ∧
    (p.control = .loopHead →
      (p.inFlight.map Send.descriptor).Perm (List.range args.maxOutstandingSend)) ∧
    (p.inFlight.map Send.descriptor).Nodup ∧ p.inFlight.length ≤ args.maxOutstandingSend := by
  have notified := Producer.notified reached intact
  have held := Producer.held_perm reached
  have split : p.sends.held =
      p.results.map Send.descriptor ++ p.inFlight.map Send.descriptor := by
    simp [SendState.held, Producer.sends, Producer.inFlight]
  rw [split] at held
  refine ⟨?_, notified.atDequeue, notified.running, ?_, ?_, ?_⟩
  · intro atNotify
    exact ((CompletionQueue.tokens_eq_zero_iff _).mp (notified.none atNotify (by simp))).1
  · intro atHead
    simpa [Producer.results, atHead] using held
  · exact (List.nodup_append.mp (held.nodup_iff.mpr List.nodup_range)).2.1
  · have size := held.length_eq
    rw [List.length_append, List.length_map, List.length_map, List.length_range] at size
    omega

/-- Both sends complete, the second before the first, and are dequeued together. -/
theorem producer_completion_protocol_out_of_order :
    ∃ p, PartialRun.run (Producer.step twoGroupArgs)
        (Producer.start twoGroupArgs (fun _ => {}) (fun _ => 0) 0)
        ([.complete 1, .complete 0] ++ nextBatch 2 ++ [.handle 0, .handle 0]) = some p ∧
      p.control = .loopHead ∧ p.inFlight.map Send.descriptor = [1, 0] ∧
      (p.inFlight.map Send.descriptor).Perm (List.range twoGroupArgs.maxOutstandingSend) := by
  obtain ⟨p, reached, atHead, swapped⟩ : ∃ p, PartialRun.run (Producer.step twoGroupArgs)
        (Producer.start twoGroupArgs (fun _ => {}) (fun _ => 0) 0)
        ([.complete 1, .complete 0] ++ nextBatch 2 ++ [.handle 0, .handle 0]) = some p ∧
      p.control = .loopHead ∧ p.inFlight.map Send.descriptor = [1, 0] := ⟨_, rfl, rfl, rfl⟩
  have protocol := producer_completion_protocol reached (by simp [nextBatch])
  exact ⟨p, reached, atHead, swapped, protocol.2.2.2.1 atHead⟩

end RioClient
