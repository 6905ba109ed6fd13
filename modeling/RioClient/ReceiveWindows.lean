import RioClient.ReceiveRing

/-!
What the receives' windows of the two buffers hold. As long as no two pending
receives share a window, a completed receive keeps its datagram until it is handled.
-/

namespace RioClient

open RecycledRing

/-- A ring whose data buffer 32-bit offsets can address, as its allocation requires. -/
def FitsBuffers (maxOutstandingReceive : UInt32) : Prop :=
  maxOutstandingReceive.toNat * expectedDataSize.toNat ≤ 2 ^ 32

instance (maxOutstandingReceive : UInt32) : Decidable (FitsBuffers maxOutstandingReceive) :=
  inferInstanceAs (Decidable (_ ≤ _))

structure Delivered (maxOutstandingReceive : UInt32) (fifo : ReceiveFifo) : Prop where
  descriptors : (fifo.pending.map Receive.descriptor).Nodup
  descriptorBound : ∀ receive ∈ fifo.pending, receive.descriptor < maxOutstandingReceive.toNat
  header : ∀ completion ∈ fifo.completed,
    fifo.rioBuff (offsetOf (rioBuffDescr maxOutstandingReceive) completion.receive.descriptor) =
      completion.datagram.header
  address : ∀ completion ∈ fifo.completed,
    fifo.mcAddrBuff (offsetOf (mcAddrDescr maxOutstandingReceive) completion.receive.slot) =
      completion.datagram.destination

variable {args : Args} {maxOutstandingReceive : UInt32} {fifo next : ReceiveFifo}

theorem rioBuffDescr_injective (fits : FitsBuffers maxOutstandingReceive) {first second : Nat}
    (firstBound : first < maxOutstandingReceive.toNat)
    (secondBound : second < maxOutstandingReceive.toNat)
    (same : offsetOf (rioBuffDescr maxOutstandingReceive) first =
      offsetOf (rioBuffDescr maxOutstandingReceive) second) : first = second :=
  offsetOf_injective (by decide) fits firstBound secondBound same

theorem mcAddrDescr_injective (fits : FitsBuffers maxOutstandingReceive) {first second : Nat}
    (firstBound : first < maxOutstandingReceive.toNat)
    (secondBound : second < maxOutstandingReceive.toNat)
    (same : offsetOf (mcAddrDescr maxOutstandingReceive) first =
      offsetOf (mcAddrDescr maxOutstandingReceive) second) : first = second := by
  have smaller : maxOutstandingReceive.toNat * addrSize.toNat ≤ 2 ^ 32 :=
    Nat.le_trans (Nat.mul_le_mul_left _ (by decide : addrSize.toNat ≤ expectedDataSize.toNat)) fits
  exact offsetOf_injective (by decide) smaller firstBound secondBound same

namespace InRing

theorem slots_nodup (inRing : InRing maxOutstandingReceive fifo)
    (short : fifo.credits.length ≤ 2 ^ 32) : (fifo.pending.map Receive.slot).Nodup := by
  have few := inRing.credits_le
  have bound := inRing.bound
  rw [inRing.slots]
  exact window_nodup (by omega) (by omega)

theorem slot_lt (inRing : InRing maxOutstandingReceive fifo) {receive : Receive}
    (member : receive ∈ fifo.pending) : receive.slot < maxOutstandingReceive.toNat := by
  have few := inRing.credits_le
  have size := inRing.pending_length
  have nonempty := List.length_pos_of_mem member
  have listed : receive.slot ∈ fifo.pending.map Receive.slot := List.mem_map_of_mem member
  rw [inRing.slots, List.mem_map] at listed
  obtain ⟨index, -, slotEq⟩ := listed
  rw [← slotEq]
  exact slotOf_lt (by omega) index

end InRing

theorem completed_ne_head {α : Type} {field : Receive → α} {receive : Receive}
    {posted : List Receive} {completion : Completion}
    (distinct : (fifo.pending.map field).Nodup) (postedEq : fifo.posted = receive :: posted)
    (member : completion ∈ fifo.completed) : field completion.receive ≠ field receive := by
  simp only [ReceiveFifo.pending, postedEq, List.map_append, List.map_cons] at distinct
  intro same
  rw [List.nodup_append] at distinct
  exact distinct.2.2 (field completion.receive)
    (List.mem_map_of_mem (List.mem_map_of_mem member)) (field receive) List.mem_cons_self same

theorem completed_pending {completion : Completion} (member : completion ∈ fifo.completed) :
    completion.receive ∈ fifo.pending :=
  List.mem_append_left _ (List.mem_map_of_mem member)

theorem head_pending {receive : Receive} {posted : List Receive}
    (postedEq : fifo.posted = receive :: posted) : receive ∈ fifo.pending := by
  simp [ReceiveFifo.pending, postedEq]

/-- A datagram written to the window of the oldest posted receive is found there,
and the windows of the receives completed before keep theirs. -/
theorem arrived_window {Value : Type} {buffer : UInt32 → Value} {window : Nat → UInt32}
    {field : Receive → Nat} {value : Datagram → Value} {receive : Receive}
    {posted : List Receive} (datagram : Datagram)
    (distinct : (fifo.pending.map field).Nodup) (postedEq : fifo.posted = receive :: posted)
    (apart : ∀ first ∈ fifo.pending, ∀ second ∈ fifo.pending,
      window (field first) = window (field second) → field first = field second)
    (held : ∀ completion ∈ fifo.completed,
      buffer (window (field completion.receive)) = value completion.datagram) :
    ∀ completion ∈ fifo.completed ++ [⟨receive, datagram⟩],
      Function.update buffer (window (field receive)) (value datagram)
        (window (field completion.receive)) = value completion.datagram := by
  intro completion member
  rcases List.mem_append.mp member with earlier | new
  · have other : window (field completion.receive) ≠ window (field receive) := by
      intro same
      apply completed_ne_head distinct postedEq earlier
      exact apart _ (completed_pending earlier) _ (head_pending postedEq) same
    rw [Function.update_of_ne other]
    exact held completion earlier
  · rw [List.mem_singleton.mp new]
    exact Function.update_self ..

theorem start_descriptors_nodup (args : Args) (maxOutstandingReceive : UInt32) (now : Int) :
    ((Consumer.start args maxOutstandingReceive now).fifo.pending.map
      Receive.descriptor).Nodup := by
  have posted : (Consumer.start args maxOutstandingReceive now).fifo.pending.map
      Receive.descriptor = List.range' 0 maxOutstandingReceive.toNat := by
    simp [ReceiveFifo.pending, Consumer.fifo, Consumer.completed, Consumer.results,
      Consumer.start, postFirstRecvs, Function.comp_def]
  rw [posted]
  exact List.nodup_range'

theorem pending_arrived (datagram : Datagram) {receive : Receive} {posted : List Receive}
    (postedEq : fifo.posted = receive :: posted) :
    (fifo.arrived maxOutstandingReceive datagram receive posted).pending = fifo.pending := by
  simp [ReceiveFifo.pending, ReceiveFifo.arrived, postedEq]

theorem pending_credited (result : Completion) (rest : List Completion) :
    (fifo.credited maxOutstandingReceive result rest).pending =
      rest.map Completion.receive ++ fifo.posted ++
        [⟨result.receive.descriptor, fifo.nextAddr maxOutstandingReceive⟩] := by
  simp [ReceiveFifo.pending, ReceiveFifo.credited]

theorem ReceiveFifo.Step.descriptors_nodup (taken : fifo.Step maxOutstandingReceive next)
    (distinct : (fifo.pending.map Receive.descriptor).Nodup) :
    (next.pending.map Receive.descriptor).Nodup := by
  cases taken with
  | arrived postedEq => rwa [pending_arrived _ postedEq]
  | credited completedEq _ =>
      rw [InRing.pending_cons completedEq, List.map_cons, List.nodup_cons] at distinct
      rw [pending_credited, List.map_append, List.nodup_append_comm]
      simpa using distinct
  | ignored completedEq _ =>
      rw [InRing.pending_cons completedEq, List.map_cons, List.nodup_cons] at distinct
      exact distinct.2

namespace Delivered

theorem start (args : Args) (maxOutstandingReceive : UInt32) (now : Int) :
    Delivered maxOutstandingReceive (Consumer.start args maxOutstandingReceive now).fifo where
  descriptors := start_descriptors_nodup args maxOutstandingReceive now
  descriptorBound := by
    intro receive member
    simp only [ReceiveFifo.pending, Consumer.fifo, Consumer.completed, Consumer.results,
      Consumer.start, postFirstRecvs, CompletionQueue.empty_entries, List.append_nil,
      List.map_nil, List.nil_append, List.mem_map, List.mem_range'_1] at member
    obtain ⟨i, bound, rfl⟩ := member
    simpa using bound.2
  header := by simp [Consumer.fifo, Consumer.completed, Consumer.results, Consumer.start]
  address := by simp [Consumer.fifo, Consumer.completed, Consumer.results, Consumer.start]

theorem step (fits : FitsBuffers maxOutstandingReceive)
    (inRing : InRing maxOutstandingReceive fifo) (short : fifo.credits.length ≤ 2 ^ 32)
    (delivered : Delivered maxOutstandingReceive fifo)
    (taken : fifo.Step maxOutstandingReceive next) : Delivered maxOutstandingReceive next := by
  obtain ⟨descriptors, descriptorBound, header, address⟩ := delivered
  have nextDescriptors := taken.descriptors_nodup descriptors
  cases taken with
  | @arrived datagram receive posted postedEq =>
      refine ⟨nextDescriptors, by rwa [pending_arrived datagram postedEq], ?_, ?_⟩
      · apply arrived_window datagram descriptors postedEq _ header
        intro first firstPending second secondPending same
        exact rioBuffDescr_injective fits (descriptorBound _ firstPending)
          (descriptorBound _ secondPending) same
      · apply arrived_window datagram (inRing.slots_nodup short) postedEq _ address
        intro first firstPending second secondPending same
        exact mcAddrDescr_injective fits (inRing.slot_lt firstPending)
          (inRing.slot_lt secondPending) same
  | @credited result rest completedEq expected =>
      have oldest := InRing.pending_cons completedEq
      refine ⟨nextDescriptors, ?_, ?_, ?_⟩
      · rw [pending_credited]
        intro receive member
        rcases List.mem_append.mp member with kept | reposted
        · exact descriptorBound receive (oldest ▸ List.mem_cons_of_mem _ kept)
        · rw [List.mem_singleton.mp reposted]
          exact descriptorBound result.receive (oldest ▸ List.mem_cons_self)
      · intro completion member
        exact header completion (completedEq ▸ List.mem_cons_of_mem _ member)
      · intro completion member
        exact address completion (completedEq ▸ List.mem_cons_of_mem _ member)
  | @ignored result rest completedEq expected =>
      have oldest := InRing.pending_cons completedEq
      refine ⟨nextDescriptors, ?_, ?_, ?_⟩
      · intro receive member
        exact descriptorBound receive (oldest ▸ List.mem_cons_of_mem _ member)
      · intro completion member
        exact header completion (completedEq ▸ List.mem_cons_of_mem _ member)
      · intro completion member
        exact address completion (completedEq ▸ List.mem_cons_of_mem _ member)

end Delivered

end RioClient
