import RioClient.ProducerSteps
import RioClient.RoundRobin

/-!
The first sends, and the stamps of all sends. Send number `t` of a run carries
`t / N`, however the completions are ordered and batched.
-/

namespace RioClient

open RoundRobin

namespace ProducerArgs

variable (args : ProducerArgs)

theorem numberOfMcGroups_pos : 0 < args.numberOfMcGroups := args.groups_pos

theorem rate_positive : 0 < args.rate := by
  have positive := args.rate_pos
  simp only [rate]
  omega

theorem maxOutstandingSend_le : args.maxOutstandingSend ≤ 1000000 := by
  have limit := args.limit
  have positive := args.rate_pos
  have exact : ((args.rate : Nat) : Int) = args.packetRate.toInt := by
    simp only [rate]
    omega
  rw [← exact] at limit
  exact_mod_cast limit

theorem rate_le : args.rate ≤ 1000000 :=
  Nat.le_trans (Nat.le_mul_of_pos_right _ args.numberOfMcGroups_pos) args.maxOutstandingSend_le

theorem maxOutstandingSend_pos : 0 < args.maxOutstandingSend :=
  Nat.mul_pos args.rate_positive args.numberOfMcGroups_pos

theorem numberOfMcGroups_dvd : args.numberOfMcGroups ∣ args.maxOutstandingSend :=
  Nat.dvd_mul_left _ _

theorem maxOutstandingSend_div : args.maxOutstandingSend / args.numberOfMcGroups = args.rate :=
  Nat.mul_div_cancel _ args.numberOfMcGroups_pos

def packetOffset (packet : Nat) : UInt32 := UInt32.ofNat packet * expectedDataSize

end ProducerArgs

open ProducerArgs

theorem packetOffset_injective {first second : Nat} (firstBound : first ≤ 1000000)
    (secondBound : second ≤ 1000000) (same : packetOffset first = packetOffset second) :
    first = second := by
  have size : expectedDataSize.toNat = 100 := rfl
  have products := congrArg UInt32.toNat same
  rw [packetOffset, packetOffset, toNat_ofNat_mul (by rw [size]; omega),
    toNat_ofNat_mul (by rw [size]; omega), size] at products
  omega

theorem packetOffset_succ (packet : Nat) :
    packetOffset (packet + 1) = packetOffset packet + expectedDataSize := by
  rw [packetOffset, packetOffset, UInt32.ofNat_add, UInt32.add_mul]
  rfl

theorem getElem?_flatMap_replicate {α : Type} {copies : Nat} (positive : 0 < copies)
    (items : List α) (index : Nat) :
    (items.flatMap (List.replicate copies))[index]? = items[index / copies]? := by
  induction items generalizing index with
  | nil => simp
  | cons item items ih =>
      rw [List.flatMap_cons, List.getElem?_append, List.length_replicate]
      by_cases first : index < copies
      · simp [first, Nat.div_eq_of_lt first]
      · have quotient : index / copies = (index - copies) / copies + 1 := by
          rw [← Nat.add_div_right _ positive, Nat.sub_add_cancel (by omega)]
        rw [if_neg first, ih, quotient, List.getElem?_cons_succ]

theorem offsetOf_rioBuffDescr (args : ProducerArgs) {descriptor : Nat}
    (bound : descriptor < args.maxOutstandingSend) :
    offsetOf args.rioBuffDescr descriptor =
      packetOffset (descriptor / args.numberOfMcGroups) := by
  have packetBound : descriptor / args.numberOfMcGroups < args.rate :=
    (Nat.div_lt_iff_lt_mul args.numberOfMcGroups_pos).mpr bound
  rw [offsetOf, ProducerArgs.rioBuffDescr,
    getElem?_flatMap_replicate args.numberOfMcGroups_pos, getElem?_fillDescriptors packetBound,
    UInt32.zero_add]
  rfl

theorem fillPackets_seq (clock : Nat → UInt64) {count i packet : Nat}
    (rioBuff : UInt32 → ProtocolHeader) (bound : i + count ≤ 1000000)
    (packetBound : packet ≤ 1000000) :
    (fillPackets clock count i (packetOffset i) rioBuff (packetOffset packet)).seq =
      if i ≤ packet ∧ packet < i + count then UInt64.ofNat packet
      else (rioBuff (packetOffset packet)).seq := by
  induction count generalizing i rioBuff with
  | zero =>
      rw [if_neg (by omega)]
      rfl
  | succ count ih =>
      simp only [fillPackets]
      rw [← packetOffset_succ, ih _ (by omega)]
      by_cases current : packet = i
      · subst current
        rw [if_neg (by omega), if_pos (by omega), Function.update_self]
      · have apart : packetOffset packet ≠ packetOffset i := fun same =>
          current (packetOffset_injective packetBound (by omega) same)
        rw [Function.update_of_ne apart]
        by_cases later : i + 1 ≤ packet ∧ packet < i + 1 + count
        · rw [if_pos later, if_pos (by omega)]
        · rw [if_neg later, if_neg (by omega)]

def firstSends (args : ProducerArgs) : List Send :=
  (List.range args.maxOutstandingSend).map fun i =>
    ⟨i, i % args.numberOfMcGroups, UInt64.ofNat (i / args.numberOfMcGroups)⟩

theorem firstSends_length (args : ProducerArgs) :
    (firstSends args).length = args.maxOutstandingSend := by
  simp [firstSends]

namespace Producer

variable {args : ProducerArgs}

theorem foldl_send_sends (indices : List Nat) (p : Producer) :
    (indices.foldl (fun p i => p.send args i (i % args.numberOfMcGroups)) p).sends =
      let sends := indices.map fun i => (⟨i, i % args.numberOfMcGroups,
        (p.rioBuff (offsetOf args.rioBuffDescr i)).seq⟩ : Send)
      { p.sends with posted := p.posted ++ sends, sent := p.sent ++ sends } := by
  induction indices generalizing p with
  | nil => simp [sends]
  | cons i indices ih =>
      rw [List.foldl_cons, ih]
      simp [sends, send, index, results]

theorem start_sends (mcAddrBuff : UInt32 → SockaddrInet) (clock : Nat → UInt64) (now : Int) :
    (start args mcAddrBuff clock now).sends =
      { sequenceNumber := UInt64.ofNat args.rate
        groupCounter := 0
        rioBuff := fillPackets clock args.rate 0 0 fun _ => {}
        posted := firstSends args
        completed := []
        index := 0
        results := []
        sent := firstSends args
        batches := [] } := by
  let filled : Producer := {
    timing := Timing.setStart {} now
    groupStats := initGroupStats args.mcastAddrStr
    rioBuff := fillPackets clock args.rate 0 0 fun _ => {}
    mcAddrBuff }
  have stamped : (List.range args.maxOutstandingSend).map (fun i =>
      (⟨i, i % args.numberOfMcGroups, (filled.rioBuff (offsetOf args.rioBuffDescr i)).seq⟩ : Send)) =
        firstSends args := by
    apply List.map_congr_left
    intro i member
    have bound := List.mem_range.mp member
    have packet : i / args.numberOfMcGroups < args.rate :=
      (Nat.div_lt_iff_lt_mul args.numberOfMcGroups_pos).mpr bound
    have rateBound := args.rate_le
    have seq := fillPackets_seq clock (fun _ => {}) (i := 0) (by omega : 0 + args.rate ≤ 1000000)
      (by omega : i / args.numberOfMcGroups ≤ 1000000)
    rw [if_pos ⟨Nat.zero_le _, by omega⟩] at seq
    rw [offsetOf_rioBuffDescr args bound, ← seq]
    rfl
  have posts := @foldl_send_sends args (List.range args.maxOutstandingSend) filled
  rw [stamped] at posts
  calc (start args mcAddrBuff clock now).sends
      = { ((List.range args.maxOutstandingSend).foldl
            (fun p i => p.send args i (i % args.numberOfMcGroups)) filled).sends with
          sequenceNumber := UInt64.ofNat args.rate } := rfl
    _ = _ := by rw [posts]; rfl

end Producer

structure Stamped (args : ProducerArgs) (s : SendState) : Prop where
  stamps : s.sent.map Send.seq =
    (List.range s.sent.length).map fun t => UInt64.ofNat (t / args.numberOfMcGroups)
  sequenceNumber : s.sequenceNumber = UInt64.ofNat (s.sent.length / args.numberOfMcGroups)
  groupCounter : s.groupCounter = s.sent.length % args.numberOfMcGroups

structure Batched (args : ProducerArgs) (s : SendState) : Prop where
  between : s.index = 0 → s.sent.length = args.maxOutstandingSend + s.batches.sum
  within : 0 < s.index → ∃ earlier last, s.batches = earlier ++ [last] ∧
    s.sent.length = args.maxOutstandingSend + earlier.sum + s.index ∧
    s.index + s.results.length = last
  ended : s.results = [] → s.index = 0

variable {args : ProducerArgs} {s next : SendState} {event : ProducerEvent}

theorem Stamped.step (stamped : Stamped args s) (taken : SendStep args s event next) :
    Stamped args next := by
  cases taken with
  | complete | take => exact ⟨stamped.stamps, stamped.sequenceNumber, stamped.groupCounter⟩
  | @handle now result rest resultsEq =>
      have positive := args.numberOfMcGroups_pos
      have counter : (s.groupCounter + 1) % args.numberOfMcGroups =
          (s.sent.length + 1) % args.numberOfMcGroups := by
        rw [stamped.groupCounter, Nat.mod_add_mod]
      simp only [SendState.handled, counter]
      refine ⟨?_, ?_, by simp⟩
      · simp [List.range_succ, stamped.stamps, SendState.repost, stamped.sequenceNumber]
      · rw [List.length_append, List.length_singleton, Nat.succ_div, stamped.sequenceNumber]
        by_cases complete : args.numberOfMcGroups ∣ s.sent.length + 1
        · rw [if_pos (Nat.mod_eq_zero_of_dvd complete), if_pos complete, UInt64.ofNat_add]
          rfl
        · rw [if_neg (fun zero => complete (Nat.dvd_of_mod_eq_zero zero)), if_neg complete]
          rfl

theorem Stamped.seq_eq (stamped : Stamped args s) {t : Nat} {send : Send}
    (found : s.sent[t]? = some send) :
    send.seq = UInt64.ofNat (t / args.numberOfMcGroups) := by
  have bound := (List.getElem?_eq_some_iff.mp found).1
  have listed := congrArg (fun list => list[t]?) stamped.stamps
  simp only [List.getElem?_map, found, List.getElem?_range bound, Option.map_some,
    Option.some.injEq] at listed
  exact listed

theorem Batched.handled {now : UInt64} {result : Send} {rest : List Send} {earlier : List Nat}
    {last : Nat} (batches : (s.handled args now result rest).batches = earlier ++ [last])
    (total : s.sent.length = args.maxOutstandingSend + earlier.sum + s.index)
    (size : s.index + (rest.length + 1) = last) : Batched args (s.handled args now result rest) := by
  have grown := s.handled_sent_length args now result rest
  cases rest with
  | nil =>
      rw [List.length_nil] at size
      refine ⟨?_, ?_, fun _ => rfl⟩
      · intro _
        rw [grown, batches, List.sum_append, List.sum_singleton]
        omega
      · intro inside
        exact absurd inside (Nat.lt_irrefl 0)
  | cons following rest =>
      rw [List.length_cons] at size
      refine ⟨?_, ?_, ?_⟩
      · intro atStart
        exact absurd atStart (Nat.succ_ne_zero s.index)
      · intro _
        refine ⟨earlier, last, batches, ?_, ?_⟩
        · rw [grown, SendState.handled_index, List.isEmpty_cons, if_neg Bool.false_ne_true]
          omega
        · rw [SendState.handled_index, SendState.handled_results, List.isEmpty_cons,
            if_neg Bool.false_ne_true, List.length_cons]
          omega
      · intro empty
        exact absurd empty (List.cons_ne_nil following rest)

theorem Batched.step (batched : Batched args s) (taken : SendStep args s event next) :
    Batched args next := by
  cases taken with
  | complete => exact ⟨batched.between, batched.within, batched.ended⟩
  | take _ atStart _ =>
      exact ⟨batched.between, fun inside => absurd atStart (Nat.pos_iff_ne_zero.mp inside),
        fun _ => atStart⟩
  | @handle now result rest resultsEq =>
      rcases Nat.eq_zero_or_pos s.index with atStart | inside
      · apply @Batched.handled _ _ _ _ _ s.batches (rest.length + 1)
        · rw [SendState.handled_batches, if_pos atStart]
        · rw [atStart, Nat.add_zero]
          exact batched.between atStart
        · rw [atStart, Nat.zero_add]
      · obtain ⟨earlier, last, batches, total, size⟩ := batched.within inside
        rw [resultsEq, List.length_cons] at size
        refine Batched.handled ?_ total size
        rw [SendState.handled_batches, if_neg (Nat.pos_iff_ne_zero.mp inside), batches]

theorem Batched.covers (batched : Batched args s) :
    s.sent.length ≤ s.batches.sum + args.maxOutstandingSend ∧
      s.batches.sum + args.maxOutstandingSend ≤ s.sent.length + s.results.length := by
  rcases Nat.eq_zero_or_pos s.index with atStart | inside
  · have total := batched.between atStart
    omega
  · obtain ⟨earlier, last, batches, total, size⟩ := batched.within inside
    rw [batches, List.sum_append, List.sum_singleton]
    omega

namespace Producer

variable {mcAddrBuff : UInt32 → SockaddrInet} {clock : Nat → UInt64} {now : Int}
  {events : List ProducerEvent} {p : Producer}

theorem stamped (reached : PartialRun.run (step args) (start args mcAddrBuff clock now) events =
    some p) : Stamped args p.sends := by
  refine sends_invariant (fun _ _ _ stamped taken => stamped.step taken) ?_ reached
  rw [start_sends]
  refine ⟨?_, ?_, ?_⟩
  · simp [firstSends]
  · rw [firstSends_length, args.maxOutstandingSend_div]
  · rw [firstSends_length, Nat.mod_eq_zero_of_dvd args.numberOfMcGroups_dvd]

theorem batched (reached : PartialRun.run (step args) (start args mcAddrBuff clock now) events =
    some p) : Batched args p.sends := by
  refine sends_invariant (fun _ _ _ batched taken => batched.step taken) ?_ reached
  rw [start_sends]
  refine ⟨fun _ => ?_, fun inside => absurd inside (Nat.lt_irrefl 0), fun _ => rfl⟩
  rw [firstSends_length]
  rfl

theorem sent_along {first : Producer}
    (reached : PartialRun.run (step args) first events = some p) :
    first.sent.length ≤ p.sent.length := by
  refine @sends_invariant args p (fun s => first.sent.length ≤ s.sent.length) ?_ _ _
    (Nat.le_refl _) reached
  intro s event after grown taken
  cases taken with
  | complete | take => exact grown
  | handle =>
      rw [SendState.handled_sent_length]
      exact Nat.le_succ_of_le grown

end Producer

end RioClient
