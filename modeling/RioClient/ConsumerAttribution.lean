import RioClient.ConsumerRuns
import RioClient.ReceiveWindows

/-!
To which group a packet is credited. The handler reads the group from the slot
the running counter names, so the credit is right when the counter has kept
pace with the completions: no completion of another size came before it, and
the counter has not wrapped.
-/

namespace RioClient

open RecycledRing

def Credit.attributed (credit : Credit) : Prop := credit.slot = credit.completion.receive.slot

instance (credit : Credit) : Decidable credit.attributed := inferInstanceAs (Decidable (_ = _))

/-- No packet of the expected size comes after a completion of another size. -/
def Undisturbed (handled : List Completion) : Prop :=
  handled.Pairwise fun earlier later => later.expected = true → earlier.expected = true

structure Faithful (fifo : ReceiveFifo) : Prop where
  header : ∀ credit ∈ fifo.credits, credit.pHeader = credit.completion.datagram.header
  destination : ∀ credit ∈ fifo.credits, credit.attributed →
    credit.mcastAddr = credit.completion.datagram.destination

structure Accounted (groupStats : McGroupStatsMap) (fifo : ReceiveFifo) : Prop where
  completions : fifo.credits.map Credit.completion = fifo.handled.filter Completion.expected
  stats : fifo.groupStats = fifo.credits.foldl (fun stats credit =>
    groupStatsUpdate stats credit.mcastAddr expectedDataSize.toUInt64 credit.pHeader) groupStats

variable {args : Args} {maxOutstandingReceive : UInt32} {fifo next : ReceiveFifo} {c : Consumer}
  {now : Int}

theorem Accounted.step {groupStats : McGroupStatsMap} (accounted : Accounted groupStats fifo)
    (taken : fifo.Step maxOutstandingReceive next) : Accounted groupStats next := by
  obtain ⟨completions, stats⟩ := accounted
  cases taken with
  | arrived => exact ⟨completions, stats⟩
  | credited completedEq expected =>
      constructor
      · simp [ReceiveFifo.credited, ReceiveFifo.credit, completions, List.filter_append, expected]
      · simp [ReceiveFifo.credited, stats, List.foldl_append]
  | ignored completedEq unexpected =>
      refine ⟨?_, stats⟩
      simp [ReceiveFifo.ignored, completions, List.filter_append, unexpected]

theorem Accounted.run {trace : List FifoEvent}
    (reached : PartialRun.run (ReceiveFifo.step maxOutstandingReceive)
      (Consumer.start args maxOutstandingReceive now).fifo trace = some fifo) :
    Accounted (initGroupStats args.mcastAddrStr) fifo :=
  PartialRun.run_invariant
    (fun _ _ _ accounted taken => accounted.step (ReceiveFifo.step_cases taken))
    ⟨rfl, rfl⟩ reached

theorem ReceiveFifo.Step.credits_le (taken : fifo.Step maxOutstandingReceive next) :
    fifo.credits.length ≤ next.credits.length := by
  cases taken with
  | arrived | ignored => exact Nat.le_refl _
  | credited => simp [ReceiveFifo.credited]

theorem Faithful.step (delivered : Delivered maxOutstandingReceive fifo)
    (faithful : Faithful fifo) (taken : fifo.Step maxOutstandingReceive next) :
    Faithful next := by
  obtain ⟨header, destination⟩ := faithful
  cases taken with
  | arrived | ignored => exact ⟨header, destination⟩
  | @credited result rest completedEq expected =>
      have oldest : result ∈ fifo.completed := completedEq ▸ List.mem_cons_self
      constructor
      · intro credit member
        rcases List.mem_append.mp member with earlier | new
        · exact header credit earlier
        · rw [List.mem_singleton.mp new]
          exact delivered.header result oldest
      · intro credit member
        rcases List.mem_append.mp member with earlier | new
        · exact destination credit earlier
        · rw [List.mem_singleton.mp new]
          intro attributed
          have sameSlot : fifo.nextAddr maxOutstandingReceive = result.receive.slot := attributed
          simp only [ReceiveFifo.credit, sameSlot]
          exact delivered.address result oldest

structure Reading (maxOutstandingReceive : UInt32) (fifo : ReceiveFifo) : Prop where
  inRing : InRing maxOutstandingReceive fifo
  delivered : fifo.credits.length ≤ 2 ^ 32 → Delivered maxOutstandingReceive fifo
  faithful : fifo.credits.length ≤ 2 ^ 32 → Faithful fifo

namespace Reading

theorem start (args : Args) (maxOutstandingReceive : UInt32) (now : Int) :
    Reading maxOutstandingReceive (Consumer.start args maxOutstandingReceive now).fifo where
  inRing := InRing.start args maxOutstandingReceive now
  delivered _ := Delivered.start args maxOutstandingReceive now
  faithful _ := ⟨by simp [Consumer.fifo, Consumer.start], by simp [Consumer.fifo, Consumer.start]⟩

theorem step (fits : FitsBuffers maxOutstandingReceive) (reading : Reading maxOutstandingReceive fifo)
    (taken : fifo.Step maxOutstandingReceive next) : Reading maxOutstandingReceive next where
  inRing := reading.inRing.step taken
  delivered bound := by
    have before := Nat.le_trans taken.credits_le bound
    exact (reading.delivered before).step fits reading.inRing before taken
  faithful bound := by
    have before := Nat.le_trans taken.credits_le bound
    exact (reading.faithful before).step (reading.delivered before) taken

theorem run (fits : FitsBuffers maxOutstandingReceive) {trace : List FifoEvent}
    (reached : PartialRun.run (ReceiveFifo.step maxOutstandingReceive)
      (Consumer.start args maxOutstandingReceive now).fifo trace = some fifo) :
    Reading maxOutstandingReceive fifo :=
  PartialRun.run_invariant
    (fun _ _ _ reading taken => reading.step fits (ReceiveFifo.step_cases taken))
    (start args maxOutstandingReceive now) reached

end Reading

theorem InRing.credited_attributed (inRing : InRing maxOutstandingReceive fifo)
    {result : Completion} {rest : List Completion}
    (completedEq : fifo.completed = result :: rest) :
    (∀ credit ∈ (fifo.credited maxOutstandingReceive result rest).credits, credit.attributed) ↔
      (∀ credit ∈ fifo.credits, credit.attributed) ∧
        counterSlot (2 ^ 32) maxOutstandingReceive.toNat fifo.credits.length =
          slotOf (2 ^ 32) maxOutstandingReceive.toNat fifo.handled.length := by
  obtain ⟨-, slotEq, -⟩ := inRing.oldest (InRing.pending_cons completedEq)
  rw [← slotEq, ← inRing.nextAddr_eq]
  simp only [ReceiveFifo.credited, List.forall_mem_append, List.forall_mem_singleton]
  rfl

theorem InRing.credits_eq_handled_iff (inRing : InRing maxOutstandingReceive fifo) :
    fifo.credits.length = fifo.handled.length ↔
      ∀ completion ∈ fifo.handled, completion.expected = true := by
  rw [inRing.credits, List.countP_eq_length]

theorem attributed_iff_undisturbed {trace : List FifoEvent}
    (reached : PartialRun.run (ReceiveFifo.step maxOutstandingReceive)
      (Consumer.start args maxOutstandingReceive now).fifo trace = some fifo) :
    fifo.handled.length ≤ 2 ^ 32 →
      ((∀ credit ∈ fifo.credits, credit.attributed) ↔ Undisturbed fifo.handled) := by
  refine PartialRun.run_induction ?initially ?extended reached
  case initially => simp [Consumer.fifo, Consumer.start, Undisturbed]
  case extended =>
      intro trace fifo event next before ih taken
      have inRing := InRing.run before
      cases ReceiveFifo.step_cases taken with
      | arrived => exact ih
      | @credited result rest completedEq expected =>
          intro short
          have room : fifo.handled.length < 2 ^ 32 := by
            simpa [ReceiveFifo.credited, Nat.succ_le_iff] using short
          obtain ⟨waiting, -, -⟩ := inRing.oldest (InRing.pending_cons completedEq)
          rw [inRing.credited_attributed completedEq, ih (Nat.le_of_lt room),
            counterSlot_eq_slotOf_iff inRing.credits_le waiting room,
            inRing.credits_eq_handled_iff]
          simp [ReceiveFifo.credited, Undisturbed, List.pairwise_append, expected]
      | @ignored result rest completedEq unexpected =>
          intro short
          have room : fifo.handled.length ≤ 2 ^ 32 := by
            simp only [ReceiveFifo.ignored, List.length_append] at short
            omega
          simpa [ReceiveFifo.ignored, Undisturbed, List.pairwise_append, unexpected] using ih room

theorem attributed_iff_short (uneven : ¬maxOutstandingReceive.toNat ∣ 2 ^ 32)
    {trace : List FifoEvent}
    (reached : PartialRun.run (ReceiveFifo.step maxOutstandingReceive)
      (Consumer.start args maxOutstandingReceive now).fifo trace = some fifo) :
    (∀ completion ∈ fifo.handled, completion.expected = true) →
      ((∀ credit ∈ fifo.credits, credit.attributed) ↔ fifo.handled.length ≤ 2 ^ 32) := by
  refine PartialRun.run_induction ?initially ?extended reached
  case initially => simp [Consumer.fifo, Consumer.start]
  case extended =>
      intro trace fifo event next before ih taken
      have inRing := InRing.run before
      cases ReceiveFifo.step_cases taken with
      | arrived => exact ih
      | @credited result rest completedEq expected =>
          intro counted
          have allBefore : ∀ completion ∈ fifo.handled, completion.expected = true :=
            fun completion member => counted completion (List.mem_append_left _ member)
          have pace := inRing.credits_eq_handled_iff.mpr allBefore
          obtain ⟨waiting, -, -⟩ := inRing.oldest (InRing.pending_cons completedEq)
          rw [inRing.credited_attributed completedEq, ih allBefore, pace]
          have grown : (fifo.credited maxOutstandingReceive result rest).handled.length =
              fifo.handled.length + 1 := by
            simp [ReceiveFifo.credited]
          rw [grown]
          constructor
          · rintro ⟨atMost, same⟩
            rcases Nat.lt_or_eq_of_le atMost with below | wrapped
            · exact below
            · rw [wrapped] at same
              exact absurd same (counterSlot_wrap_ne (by omega) uneven)
          · intro below
            exact ⟨by omega, counterSlot_eq_slotOf below⟩
      | @ignored result rest completedEq unexpected =>
          intro counted
          have counts := counted result (List.mem_append_right _ (List.mem_singleton_self _))
          rw [unexpected] at counts
          exact absurd counts Bool.false_ne_true

theorem foldl_credits {credits : List Credit} {stats : McGroupStatsMap}
    (reads : ∀ credit ∈ credits, credit.pHeader = credit.completion.datagram.header ∧
      credit.mcastAddr = credit.completion.datagram.destination) :
    credits.foldl (fun stats credit =>
        groupStatsUpdate stats credit.mcastAddr expectedDataSize.toUInt64 credit.pHeader) stats =
      (credits.map Credit.completion).foldl (fun stats completion =>
        groupStatsUpdate stats completion.datagram.destination expectedDataSize.toUInt64
          completion.datagram.header) stats := by
  rw [List.foldl_map]
  apply List.foldl_ext
  intro stats credit member
  rw [(reads credit member).1, (reads credit member).2]

/-- In an undisturbed run the statistics are those of the datagrams themselves:
every counted packet updates the group it was sent to with its own header. -/
theorem groupStats_of_undisturbed {events : List ConsumerEvent}
    (fits : FitsBuffers maxOutstandingReceive)
    (reached : PartialRun.run (Consumer.step args maxOutstandingReceive)
      (Consumer.start args maxOutstandingReceive now) events = some c)
    (short : c.handled.length ≤ 2 ^ 32) (undisturbed : Undisturbed c.handled) :
    c.groupStats = (c.handled.filter Completion.expected).foldl (fun stats completion =>
      groupStatsUpdate stats completion.datagram.destination expectedDataSize.toUInt64
        completion.datagram.header) (initGroupStats args.mcastAddrStr) := by
  have fifoReached := Consumer.fifo_run reached
  have reading := Reading.run fits fifoReached
  have accounted := Accounted.run fifoReached
  have faithful := reading.faithful (Nat.le_trans reading.inRing.credits_le short)
  have attributed := (attributed_iff_undisturbed fifoReached short).mpr undisturbed
  have stats : c.groupStats = _ := accounted.stats
  have completions : c.credits.map Credit.completion = c.handled.filter Completion.expected :=
    accounted.completions
  rw [stats, foldl_credits, ← completions]
  · rfl
  · intro credit member
    exact ⟨faithful.header credit member,
      faithful.destination credit member (attributed credit member)⟩

/-- The slot passed to `GroupStatsUpdate` is the completed receive's own, for
every packet so far, exactly in the undisturbed runs; then the group is right too. -/
theorem groupStatsUpdate_attribution_iff {events : List ConsumerEvent}
    (reached : PartialRun.run (Consumer.step args maxOutstandingReceive)
      (Consumer.start args maxOutstandingReceive now) events = some c)
    (short : c.handled.length < 2 ^ 32) :
    ((∀ credit ∈ c.credits, credit.slot = credit.completion.receive.slot) ↔
        Undisturbed c.handled) ∧
      (FitsBuffers maxOutstandingReceive → Undisturbed c.handled →
        ∀ credit ∈ c.credits, credit.mcastAddr = credit.completion.datagram.destination) := by
  have fifoReached := Consumer.fifo_run reached
  have slots := attributed_iff_undisturbed fifoReached (Nat.le_of_lt short)
  refine ⟨slots, ?_⟩
  intro fits undisturbed credit member
  have reading := Reading.run fits fifoReached
  have faithful := reading.faithful (Nat.le_trans reading.inRing.credits_le (Nat.le_of_lt short))
  exact faithful.destination credit member (slots.mpr undisturbed credit member)

def packetsThenShort : List Datagram :=
  [datagramTo 38077935 100, datagramTo 54855151 100, datagramTo 38077935 100,
    datagramTo 54855151 50]

theorem groupStatsUpdate_attribution_iff_three_packets :
    ∃ c, PartialRun.run (Consumer.step unlimitedArgs maxPendingRecvs)
        (Consumer.start unlimitedArgs maxPendingRecvs 0)
        (packetsThenShort.flatMap oneDatagram) = some c ∧
      (∀ credit ∈ c.credits, credit.slot = credit.completion.receive.slot) ∧
      c.credits.map (fun credit => credit.mcastAddr.sinAddr) = [38077935, 54855151, 38077935] := by
  obtain ⟨c, reached, -, handled⟩ := Consumer.quiet_run maxPendingRecvs packetsThenShort (by decide)
  have undisturbed : Undisturbed c.handled := by
    have ordered : packetsThenShort.Pairwise fun earlier later =>
        later.expected = true → earlier.expected = true := by decide
    rw [← handled, List.pairwise_map] at ordered
    exact ordered
  have size := congrArg List.length handled
  rw [List.length_map] at size
  have attribution := groupStatsUpdate_attribution_iff reached (by rw [size]; decide)
  refine ⟨c, reached, attribution.1.mpr undisturbed, ?_⟩
  have own : c.credits.map (fun credit => credit.mcastAddr.sinAddr) =
      (c.credits.map Credit.completion).map
        fun completion => completion.datagram.destination.sinAddr := by
    rw [List.map_map]
    refine List.map_congr_left fun credit member => ?_
    rw [attribution.2 (by decide) undisturbed credit member]
    rfl
  have completions : c.credits.map Credit.completion = c.handled.filter Completion.expected :=
    (Accounted.run (Consumer.fifo_run reached)).completions
  have counted : (c.handled.filter Completion.expected).map Completion.datagram =
      packetsThenShort.filter Datagram.expected := by
    rw [← handled, List.filter_map]
    rfl
  have destinations := congrArg (List.map fun datagram => datagram.destination.sinAddr) counted
  rw [List.map_map] at destinations
  exact own.trans ((congrArg (List.map _) completions).trans destinations)

/-- A datagram of 50 bytes for 239.5.69.2, then a packet for 239.5.69.3: the
packet's receive had slot 1, slot 0 is read, and 239.5.69.2 is credited. -/
theorem groupStatsUpdate_misattributes_after_short_datagram :
    ∃ c, PartialRun.run (Consumer.step unlimitedArgs maxPendingRecvs)
        (Consumer.start unlimitedArgs maxPendingRecvs 0)
        ([datagramTo 38077935 50, datagramTo 54855151 100].flatMap oneDatagram) = some c ∧
      c.handled.length < 2 ^ 32 ∧
      c.credits.map (fun credit => (credit.slot, credit.completion.receive.slot)) = [(0, 1)] ∧
      c.credits.map (fun credit => (credit.mcastAddr.sinAddr,
        credit.completion.datagram.destination.sinAddr)) = [(38077935, 54855151)] := by
  have posted := postFirstRecvs_cons (show maxPendingRecvs.toNat = 1499999 + 1 by decide)
  simp only [List.flatMap_cons, List.flatMap_nil, PartialRun.run_append]
  rw [Consumer.oneDatagram_run_eq (Consumer.idle_start unlimitedArgs maxPendingRecvs 0) _ posted,
    Option.bind_some,
    Consumer.oneDatagram_run_eq ⟨rfl, rfl, rfl⟩ _ rfl, Option.bind_some]
  exact ⟨_, rfl, by decide, rfl, rfl⟩

/-- With packets of the expected size only, on the ring of the consumer. -/
theorem mcAddrDescrIndex_attribution_iff {events : List ConsumerEvent}
    (reached : PartialRun.run (Consumer.step args maxPendingRecvs)
      (Consumer.start args maxPendingRecvs now) events = some c)
    (counted : ∀ completion ∈ c.handled, completion.expected = true) :
    (∀ credit ∈ c.credits, credit.slot = credit.completion.receive.slot) ↔
      c.handled.length ≤ 2 ^ 32 :=
  attributed_iff_short (by decide) (Consumer.fifo_run reached) counted

theorem mcAddrDescrIndex_attribution_iff_three_packets :
    ∃ c, PartialRun.run (Consumer.step unlimitedArgs maxPendingRecvs)
        (Consumer.start unlimitedArgs maxPendingRecvs 0)
        ((packetsThenShort.take 3).flatMap oneDatagram) = some c ∧ c.handled.length = 3 ∧
      ∀ credit ∈ c.credits, credit.slot = credit.completion.receive.slot := by
  obtain ⟨c, reached, size, counted⟩ := Consumer.quiet_run_counted maxPendingRecvs
    (packetsThenShort.take 3) (by decide) (by decide)
  refine ⟨c, reached, size, (mcAddrDescrIndex_attribution_iff reached counted).mpr ?_⟩
  rw [size]
  decide

/-- After 2^32 packets the counter is back at 0, but the next receive to
complete had been posted with slot 2^32 % 1500000. -/
theorem mcAddrDescrIndex_wrap_misattributes :
    ∃ c, PartialRun.run (Consumer.step unlimitedArgs maxPendingRecvs)
        (Consumer.start unlimitedArgs maxPendingRecvs 0)
        ((List.replicate (2 ^ 32 + 1) (datagramTo 38077935 100)).flatMap oneDatagram) = some c ∧
      (∀ completion ∈ c.handled, completion.expected = true) ∧
      ∃ credit ∈ c.credits, credit.slot ≠ credit.completion.receive.slot := by
  obtain ⟨c, reached, size, counted⟩ := Consumer.quiet_run_counted maxPendingRecvs
    (List.replicate (2 ^ 32 + 1) (datagramTo 38077935 100)) (by decide) (by
      intro datagram member
      rw [List.eq_of_mem_replicate member]
      decide)
  rw [List.length_replicate] at size
  have slots := attributed_iff_short (by decide) (Consumer.fifo_run reached) counted
  refine ⟨c, reached, counted, ?_⟩
  by_contra none
  have all : ∀ credit ∈ c.credits, credit.attributed := by
    intro credit member
    by_contra wrong
    exact none ⟨credit, member, wrong⟩
  have short : c.handled.length ≤ 2 ^ 32 := slots.mp all
  omega

end RioClient
