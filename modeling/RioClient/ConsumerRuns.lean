import RioClient.ReceiveRing

/-!
The quiet schedule: datagrams arrive one at a time, each after the consumer has
armed its notification, and each is handled before the next one arrives.
-/

namespace RioClient

def unlimitedArgs : Args where
  command := ['c', 'o', 'n', 's', 'u', 'm', 'e', 'r']
  mcastAddrStr := [⟨38077935⟩, ⟨54855151⟩]
  mcastPort := 10000
  ifIndex := ['1', '0', '.', '0', '.', '0', '.', '1']
  pktsToCount := 0
  packetRate := 1
  secondsToRun := 0

def datagramTo (group bytesTransferred : UInt32) : Datagram where
  bytesTransferred
  destination := ⟨2, 4135, group⟩
  header := {}

theorem postFirstRecvs_cons {totalMessages : UInt32} {count : Nat}
    (size : totalMessages.toNat = count + 1) :
    postFirstRecvs totalMessages =
      ⟨0, 0⟩ :: (List.range' 1 count).map fun i => ⟨i, i⟩ := by
  rw [postFirstRecvs, size]
  rfl

def oneDatagram (datagram : Datagram) : List ConsumerEvent :=
  [.shouldStop false 0, .notify, .datagram datagram, .completionStatus true, .dequeue 1 0, .handle]

structure Consumer.Idle (c : Consumer) : Prop where
  atHead : c.control = .loopHead
  notifies : c.shouldNotify = true
  quiet : c.completions = .empty

namespace Consumer

variable {args : Args} {maxOutstandingReceive : UInt32} {c : Consumer}

theorem idle_start (args : Args) (maxOutstandingReceive : UInt32) (now : Int) :
    Idle (start args maxOutstandingReceive now) := ⟨rfl, rfl, rfl⟩

theorem Idle.pending_eq (idle : c.Idle) : c.fifo.pending = c.posted := by
  simp [ReceiveFifo.pending, fifo, completed, results, idle.atHead, idle.quiet]

def delivered (maxOutstandingReceive : UInt32) (datagram : Datagram) (receive : Receive)
    (posted : List Receive) (c : Consumer) : Consumer :=
  let timing := c.timing.setStop 0
  { c with
    control := .handling [⟨receive, datagram⟩]
    posted
    rioBuff := Function.update c.rioBuff
      (offsetOf (rioBuffDescr maxOutstandingReceive) receive.descriptor) datagram.header
    mcAddrBuff := Function.update c.mcAddrBuff
      (offsetOf (mcAddrDescr maxOutstandingReceive) receive.slot) datagram.destination
    timing := if c.totalPkts = 0 then timing.setStart 0 else timing
    completions := .empty }

theorem oneDatagram_run_eq (idle : c.Idle) (datagram : Datagram) {receive : Receive}
    {posted : List Receive} (postedEq : c.posted = receive :: posted) :
    PartialRun.run (step unlimitedArgs maxOutstandingReceive) c (oneDatagram datagram) =
      some { (c.delivered maxOutstandingReceive datagram receive posted).handleCompletion
          maxOutstandingReceive ⟨receive, datagram⟩ with
        control := .loopHead
        shouldNotify := true } := by
  obtain ⟨atHead, notifies, quiet⟩ := idle
  cases c
  simp only at atHead notifies quiet postedEq
  subst atHead notifies quiet postedEq
  rfl

theorem oneDatagram_run (idle : c.Idle) (datagram : Datagram) {receive : Receive}
    {posted : List Receive} (postedEq : c.posted = receive :: posted) :
    ∃ next, PartialRun.run (step unlimitedArgs maxOutstandingReceive) c (oneDatagram datagram)
        = some next ∧
      next.Idle ∧ next.handled = c.handled ++ [⟨receive, datagram⟩] := by
  refine ⟨_, oneDatagram_run_eq idle datagram postedEq, ⟨rfl, rfl, ?_⟩, ?_⟩
  · exact handleCompletion_completions _
  · simp only [handleCompletion]
    split <;> rfl

theorem quiet_run (maxOutstandingReceive : UInt32) (datagrams : List Datagram)
    (room : datagrams.length < maxOutstandingReceive.toNat + datagrams.countP Datagram.expected) :
    ∃ c, PartialRun.run (step unlimitedArgs maxOutstandingReceive)
        (start unlimitedArgs maxOutstandingReceive 0) (datagrams.flatMap oneDatagram) = some c ∧
      c.Idle ∧ c.handled.map Completion.datagram = datagrams := by
  induction datagrams using List.reverseRecOn with
  | nil => exact ⟨_, rfl, idle_start _ _ _, rfl⟩
  | append_singleton datagrams datagram ih =>
      rw [List.length_append, List.countP_append, List.length_singleton] at room
      have last : [datagram].countP Datagram.expected ≤ 1 := List.countP_le_length
      obtain ⟨c, reached, idle, handled⟩ := ih (by omega)
      have inRing := inRing reached
      have size : c.posted.length ≠ 0 := by
        have total := inRing.pending_length
        rw [idle.pending_eq, inRing.credits] at total
        have count : c.handled.length = datagrams.length := by
          rw [← handled, List.length_map]
        have counted : c.handled.countP Completion.expected =
            datagrams.countP Datagram.expected := by
          rw [← handled, List.countP_map]
          rfl
        simp only [fifo] at total
        omega
      obtain ⟨receive, posted, postedEq⟩ := List.exists_cons_of_ne_nil
        (List.ne_nil_of_length_pos (Nat.pos_of_ne_zero size))
      obtain ⟨next, onwards, idleNext, handledNext⟩ := oneDatagram_run idle datagram postedEq
      refine ⟨next, ?_, idleNext, ?_⟩
      · rw [List.flatMap_append, PartialRun.run_append, reached]
        simpa using onwards
      · rw [handledNext, List.map_append, handled]
        rfl

theorem quiet_run_counted (maxOutstandingReceive : UInt32) (datagrams : List Datagram)
    (positive : 0 < maxOutstandingReceive.toNat)
    (counted : ∀ datagram ∈ datagrams, datagram.expected = true) :
    ∃ c, PartialRun.run (step unlimitedArgs maxOutstandingReceive)
        (start unlimitedArgs maxOutstandingReceive 0) (datagrams.flatMap oneDatagram) = some c ∧
      c.handled.length = datagrams.length ∧
      ∀ completion ∈ c.handled, completion.expected = true := by
  have every := List.countP_eq_length.mpr counted
  obtain ⟨c, reached, -, handled⟩ := quiet_run maxOutstandingReceive datagrams (by omega)
  refine ⟨c, reached, ?_, ?_⟩
  · rw [← handled, List.length_map]
  · intro completion member
    exact counted completion.datagram (handled ▸ List.mem_map_of_mem member)

end Consumer

end RioClient
