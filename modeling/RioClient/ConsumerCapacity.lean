import RioClient.ConsumerRuns
import RioClient.ReceiveWindows

/-!
The receives in use: how many there are, and that no two are on the same
descriptor or address slot. A handled packet posts its receive again; a
completion of another size does not, and its receive is never seen again.
-/

namespace RioClient

variable {args : Args} {maxOutstandingReceive : UInt32} {c : Consumer}

theorem Consumer.outstanding_at_loopHead (atHead : c.control = .loopHead) :
    c.outstanding = c.fifo.pending.length := by
  simp only [ReceiveFifo.pending, Consumer.fifo, Consumer.completed, Consumer.results, atHead,
    List.nil_append, List.length_append, List.length_map, Consumer.outstanding]
  omega

theorem Consumer.outstanding_add_ignored (inRing : InRing maxOutstandingReceive c.fifo)
    (atHead : c.control = .loopHead) :
    c.outstanding + c.handled.countP (fun completion => !completion.expected) =
      maxOutstandingReceive.toNat := by
  have total := inRing.pending_length
  have bound := inRing.bound
  have credited := inRing.credits
  have split : c.handled.length = c.handled.countP Completion.expected +
      c.handled.countP (fun completion => !completion.expected) := by
    simpa using List.length_eq_countP_add_countP (l := c.handled) Completion.expected
  rw [← Consumer.outstanding_at_loopHead atHead] at total
  simp only [Consumer.fifo] at total bound credited
  omega

/-- At every return to the loop head all receives are outstanding exactly as long
as only packets of the expected size were handled. -/
theorem outstanding_eq_max_iff {now : Int} {events : List ConsumerEvent}
    (reached : PartialRun.run (Consumer.step args maxOutstandingReceive)
      (Consumer.start args maxOutstandingReceive now) events = some c)
    (atHead : c.control = .loopHead) :
    c.outstanding = maxOutstandingReceive.toNat ↔
      ∀ completion ∈ c.handled, completion.expected = true := by
  have conserved := Consumer.outstanding_add_ignored (Consumer.inRing reached) atHead
  have ignored : c.handled.countP (fun completion => !completion.expected) = 0 ↔
      ∀ completion ∈ c.handled, completion.expected = true := by
    simp [List.countP_eq_zero]
  rw [← ignored]
  omega

theorem outstanding_eq_max_iff_short_datagram :
    ∃ c, PartialRun.run (Consumer.step unlimitedArgs maxPendingRecvs)
        (Consumer.start unlimitedArgs maxPendingRecvs 0)
        ([datagramTo 38077935 50].flatMap oneDatagram) = some c ∧
      c.control = .loopHead ∧
      (c.outstanding = maxPendingRecvs.toNat ↔
        ∀ completion ∈ c.handled, completion.expected = true) := by
  obtain ⟨c, reached, idle, -⟩ := Consumer.quiet_run maxPendingRecvs
    [datagramTo 38077935 50] (by decide)
  exact ⟨c, reached, idle.atHead, outstanding_eq_max_iff reached idle.atHead⟩

theorem outstanding_lost_by_short_datagram :
    ∃ c, PartialRun.run (Consumer.step unlimitedArgs maxPendingRecvs)
        (Consumer.start unlimitedArgs maxPendingRecvs 0)
        ([datagramTo 38077935 50].flatMap oneDatagram) = some c ∧
      c.control = .loopHead ∧ c.outstanding = 1499999 ∧
      c.outstanding ≠ maxPendingRecvs.toNat := by
  obtain ⟨c, reached, idle, handled⟩ := Consumer.quiet_run maxPendingRecvs
    [datagramTo 38077935 50] (by decide)
  have conserved := Consumer.outstanding_add_ignored (Consumer.inRing reached) idle.atHead
  have ignored : c.handled.countP (fun completion => !completion.expected) = 1 := by
    have counted : c.handled.countP (fun completion => !completion.expected) =
        (c.handled.map Completion.datagram).countP (fun datagram => !datagram.expected) := by
      rw [List.countP_map]
      rfl
    rw [counted, handled]
    decide
  have size : maxPendingRecvs.toNat = 1500000 := by decide
  exact ⟨c, reached, idle.atHead, by omega, by omega⟩

theorem Consumer.descriptors_nodup {now : Int} {events : List ConsumerEvent}
    (reached : PartialRun.run (Consumer.step args maxOutstandingReceive)
      (Consumer.start args maxOutstandingReceive now) events = some c) :
    (c.fifo.pending.map Receive.descriptor).Nodup :=
  @PartialRun.run_invariant _ _ _ (fun fifo => (fifo.pending.map Receive.descriptor).Nodup)
    (fun _ _ _ distinct taken => (ReceiveFifo.step_cases taken).descriptors_nodup distinct)
    _ _ _ (start_descriptors_nodup args maxOutstandingReceive now) (Consumer.fifo_run reached)

/-- The receives that wait, have completed or are about to be handled are on
different descriptors, and on different address slots until the slot counter wraps. -/
theorem pending_receives_apart {now : Int} {events : List ConsumerEvent}
    (reached : PartialRun.run (Consumer.step args maxOutstandingReceive)
      (Consumer.start args maxOutstandingReceive now) events = some c)
    (short : c.handled.countP Completion.expected < 2 ^ 32) :
    let pending := (c.results ++ c.completions.entries).map Completion.receive ++ c.posted
    (pending.map Receive.descriptor).Nodup ∧ (pending.map Receive.slot).Nodup := by
  have inRing := Consumer.inRing reached
  have credits : c.fifo.credits.length ≤ 2 ^ 32 := by
    rw [inRing.credits]
    exact Nat.le_of_lt short
  exact ⟨Consumer.descriptors_nodup reached, inRing.slots_nodup credits⟩

theorem pending_receives_apart_short_datagram :
    ∃ c, PartialRun.run (Consumer.step unlimitedArgs maxPendingRecvs)
        (Consumer.start unlimitedArgs maxPendingRecvs 0)
        ([datagramTo 38077935 50, datagramTo 38077935 100].flatMap oneDatagram) = some c ∧
      let pending := (c.results ++ c.completions.entries).map Completion.receive ++ c.posted
      (pending.map Receive.descriptor).Nodup ∧ (pending.map Receive.slot).Nodup := by
  obtain ⟨c, reached, -, handled⟩ := Consumer.quiet_run maxPendingRecvs
    [datagramTo 38077935 50, datagramTo 38077935 100] (by decide)
  refine ⟨c, reached, pending_receives_apart reached ?_⟩
  have few : c.handled.countP Completion.expected ≤ c.handled.length := List.countP_le_length
  have two : c.handled.length = 2 := by
    rw [← List.length_map, handled]
    rfl
  omega

end RioClient
