import RioClient.ReceiveFifo
import RioClient.RecycledRing

/-!
The address slots of the receives. The first receives take the slots in turn; a
handled packet reposts its receive with the slot the running counter names.
-/

namespace RioClient

open RecycledRing

/-- The receives not handled yet are consecutive requests of a recycled ring:
as many as were handled have left, and every credited packet has added one. -/
structure InRing (maxOutstandingReceive : UInt32) (fifo : ReceiveFifo) : Prop where
  credits : fifo.credits.length = fifo.handled.countP Completion.expected
  index : fifo.mcAddrDescrIndex.toNat = fifo.credits.length % 2 ^ 32
  bound : fifo.handled.length ≤ maxOutstandingReceive.toNat + fifo.credits.length
  slots : fifo.pending.map Receive.slot =
    (List.range' fifo.handled.length
      (maxOutstandingReceive.toNat + fifo.credits.length - fifo.handled.length)).map
      (slotOf (2 ^ 32) maxOutstandingReceive.toNat)

namespace InRing

variable {args : Args} {maxOutstandingReceive : UInt32} {fifo next : ReceiveFifo}

theorem start (args : Args) (maxOutstandingReceive : UInt32) (now : Int) :
    InRing maxOutstandingReceive (Consumer.start args maxOutstandingReceive now).fifo where
  credits := rfl
  index := rfl
  bound := Nat.zero_le _
  slots := by
    simp only [ReceiveFifo.pending, Consumer.fifo, Consumer.completed, Consumer.results,
      Consumer.start, CompletionQueue.empty_entries, postFirstRecvs, List.append_nil,
      List.map_nil, List.nil_append, List.map_map, List.length_nil, Nat.add_zero, Nat.sub_zero]
    apply List.map_congr_left
    intro i member
    rw [List.mem_range'_1] at member
    exact (slotOf_initial (by omega : i < maxOutstandingReceive.toNat)).symm

theorem nextAddr_eq (inRing : InRing maxOutstandingReceive fifo) :
    fifo.nextAddr maxOutstandingReceive =
      counterSlot (2 ^ 32) maxOutstandingReceive.toNat fifo.credits.length := by
  rw [ReceiveFifo.nextAddr, UInt32.toNat_mod, inRing.index, counterSlot]

theorem credits_le (inRing : InRing maxOutstandingReceive fifo) :
    fifo.credits.length ≤ fifo.handled.length := by
  rw [inRing.credits]
  exact List.countP_le_length

theorem pending_length (inRing : InRing maxOutstandingReceive fifo) :
    fifo.pending.length =
      maxOutstandingReceive.toNat + fifo.credits.length - fifo.handled.length := by
  have sizes := congrArg List.length inRing.slots
  simpa using sizes

theorem oldest (inRing : InRing maxOutstandingReceive fifo) {receive : Receive}
    {tail : List Receive} (pendingEq : fifo.pending = receive :: tail) :
    fifo.handled.length < maxOutstandingReceive.toNat + fifo.credits.length ∧
      receive.slot = slotOf (2 ^ 32) maxOutstandingReceive.toNat fifo.handled.length ∧
      tail.map Receive.slot =
        (List.range' (fifo.handled.length + 1)
          (maxOutstandingReceive.toNat + fifo.credits.length - fifo.handled.length - 1)).map
          (slotOf (2 ^ 32) maxOutstandingReceive.toNat) := by
  have slots := inRing.slots
  have size := inRing.pending_length
  rw [pendingEq] at slots size
  rw [List.length_cons] at size
  rw [← size, List.range'_succ, List.map_cons, List.map_cons, List.cons.injEq] at slots
  refine ⟨by omega, slots.1, ?_⟩
  rw [← size, Nat.add_sub_cancel]
  exact slots.2

theorem pending_cons {result : Completion} {rest : List Completion}
    (completedEq : fifo.completed = result :: rest) :
    fifo.pending = result.receive :: (rest.map Completion.receive ++ fifo.posted) := by
  simp [ReceiveFifo.pending, completedEq]

theorem step (inRing : InRing maxOutstandingReceive fifo)
    (taken : fifo.Step maxOutstandingReceive next) : InRing maxOutstandingReceive next := by
  cases taken with
  | arrived postedEq =>
      refine ⟨inRing.credits, inRing.index, inRing.bound, ?_⟩
      have same := inRing.slots
      simp only [ReceiveFifo.pending, postedEq] at same
      simpa [ReceiveFifo.pending, ReceiveFifo.arrived] using same
  | @credited result rest completedEq expected =>
      obtain ⟨positive, -, tailSlots⟩ := inRing.oldest (pending_cons completedEq)
      simp only [ReceiveFifo.credited]
      refine ⟨?_, ?_, ?_, ?_⟩
      · simp [List.countP_append, inRing.credits, expected]
      · simp [UInt32.toNat_add, inRing.index]
      · simp only [List.length_append, List.length_singleton]
        omega
      · -- the reposted receive is request number `size + credits`
        simp only [ReceiveFifo.pending, ← List.append_assoc, List.map_append, List.map_cons,
          List.map_nil, List.length_append, List.length_singleton]
        rw [← List.map_append, tailSlots, inRing.nextAddr_eq, ← slotOf_reposted]
        have grown : maxOutstandingReceive.toNat + (fifo.credits.length + 1) -
            (fifo.handled.length + 1) =
              maxOutstandingReceive.toNat + fifo.credits.length - fifo.handled.length - 1 + 1 := by
          omega
        rw [grown, List.range'_1_concat, List.map_append]
        congr 1
        simp only [List.map_cons, List.map_nil]
        congr 2
        omega
  | @ignored result rest completedEq expected =>
      obtain ⟨positive, -, tailSlots⟩ := inRing.oldest (pending_cons completedEq)
      simp only [ReceiveFifo.ignored]
      refine ⟨?_, inRing.index, ?_, ?_⟩
      · simp [List.countP_append, inRing.credits, expected]
      · simp only [List.length_append, List.length_singleton]
        omega
      · simp only [ReceiveFifo.pending, tailSlots, List.length_append, List.length_singleton]
        rfl

theorem run {now : Int} {trace : List FifoEvent}
    (reached : PartialRun.run (ReceiveFifo.step maxOutstandingReceive)
      (Consumer.start args maxOutstandingReceive now).fifo trace = some fifo) :
    InRing maxOutstandingReceive fifo :=
  PartialRun.run_invariant
    (fun _ _ _ inRing taken => inRing.step (ReceiveFifo.step_cases taken))
    (start args maxOutstandingReceive now) reached

end InRing

theorem Consumer.inRing {args : Args} {maxOutstandingReceive : UInt32} {c : Consumer} {now : Int}
    {events : List ConsumerEvent}
    (reached : PartialRun.run (Consumer.step args maxOutstandingReceive)
      (Consumer.start args maxOutstandingReceive now) events = some c) :
    InRing maxOutstandingReceive c.fifo :=
  InRing.run (Consumer.fifo_run reached)

end RioClient
