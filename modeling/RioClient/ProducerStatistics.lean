import RioClient.Dealing
import RioClient.GroupTotals
import RioClient.WirePackets

/-!
The statistics of the producer over a whole run: every send is counted for the
group its address descriptor names, and the groups get what the batches deal out
to them, the first of them first.
-/

namespace RioClient

open Dealing ProducerArgs

/-- The slots of the sends so far: those of whole batches, and those of the part
of the last batch that is done. -/
structure Dealt (args : ProducerArgs) (s : SendState) : Prop where
  between : s.index = 0 → s.sent.map Send.address =
    deal args.numberOfMcGroups args.maxOutstandingSend ++
      s.batches.flatMap (deal args.numberOfMcGroups)
  within : 0 < s.index → ∃ earlier last, s.batches = earlier ++ [last] ∧
    s.sent.map Send.address = deal args.numberOfMcGroups args.maxOutstandingSend ++
      earlier.flatMap (deal args.numberOfMcGroups) ++ deal args.numberOfMcGroups s.index ∧
    s.index + s.results.length = last
  ended : s.results = [] → s.index = 0

section
variable {args : ProducerArgs} {s next : SendState} {event : ProducerEvent}

theorem Dealt.handled {now : UInt64} {result : Send} {rest : List Send} {earlier : List Nat}
    {last : Nat} (batches : (s.handled args now result rest).batches = earlier ++ [last])
    (addresses : s.sent.map Send.address = deal args.numberOfMcGroups args.maxOutstandingSend ++
      earlier.flatMap (deal args.numberOfMcGroups) ++ deal args.numberOfMcGroups s.index)
    (size : s.index + (rest.length + 1) = last) : Dealt args (s.handled args now result rest) := by
  have grown : (s.handled args now result rest).sent.map Send.address =
      deal args.numberOfMcGroups args.maxOutstandingSend ++
        earlier.flatMap (deal args.numberOfMcGroups) ++
          deal args.numberOfMcGroups (s.index + 1) := by
    rw [SendState.handled_sent, List.map_append, addresses, deal_succ, List.append_assoc]
    rfl
  cases rest with
  | nil =>
      refine ⟨fun _ => ?_, fun inside => absurd inside (Nat.lt_irrefl 0), fun _ => rfl⟩
      rw [grown, batches, List.flatMap_append, List.flatMap_singleton, ← size, List.append_assoc]
      rfl
  | cons following rest =>
      refine ⟨fun atStart => absurd atStart (Nat.succ_ne_zero s.index), fun _ => ?_,
        fun empty => absurd empty (List.cons_ne_nil following rest)⟩
      refine ⟨earlier, last, batches, grown, ?_⟩
      rw [SendState.handled_index, SendState.handled_results, List.isEmpty_cons,
        if_neg Bool.false_ne_true, ← size, List.length_cons]
      omega

theorem Dealt.step (dealt : Dealt args s) (taken : SendStep args s event next) :
    Dealt args next := by
  cases taken with
  | complete => exact ⟨dealt.between, dealt.within, dealt.ended⟩
  | take _ atStart _ =>
      exact ⟨dealt.between, fun inside => absurd atStart (Nat.pos_iff_ne_zero.mp inside),
        fun _ => atStart⟩
  | @handle now result rest resultsEq =>
      rcases Nat.eq_zero_or_pos s.index with atStart | inside
      · apply @Dealt.handled _ _ _ _ _ s.batches (rest.length + 1)
        · rw [SendState.handled_batches, if_pos atStart]
        · rw [dealt.between atStart, atStart]
          exact (List.append_nil _).symm
        · rw [atStart, Nat.zero_add]
      · obtain ⟨earlier, last, batches, addresses, size⟩ := dealt.within inside
        rw [resultsEq, List.length_cons] at size
        refine Dealt.handled ?_ addresses size
        rw [SendState.handled_batches, if_neg (Nat.pos_iff_ne_zero.mp inside), batches]

end

def McGroupStats.afterSends (count : Nat) : McGroupStats :=
  { packets := UInt64.ofNat count
    bytes := UInt64.ofNat (100 * count)
    sequence := UInt64.ofNat (count - 1) }

theorem McGroupStats.afterSends_succ (count : Nat) :
    (afterSends count).updateSent expectedDataSize.toUInt64 = afterSends (count + 1) := by
  have size : expectedDataSize.toUInt64 = UInt64.ofNat 100 := rfl
  rw [updateSent, afterSends, afterSends, size, Nat.add_sub_cancel, Nat.mul_add, UInt64.ofNat_add,
    UInt64.ofNat_add]
  rfl

theorem groupEntry_groupStatsSent (stats : McGroupStatsMap) (addr : SockaddrInet)
    (pktSize : UInt64) (group : UInt32) :
    groupEntry (groupStatsSent stats addr pktSize) group =
      if addr.sinAddr = group then (groupEntry stats group).updateSent pktSize
      else groupEntry stats group := by
  rw [groupEntry, groupStatsSent, Std.TreeMap.getElem?_alter]
  by_cases own : addr.sinAddr = group
  · subst own
    simp [groupEntry]
  · simp [groupEntry, own]

namespace Producer

def sentTo (p : Producer) (slot : Nat) : Nat := (p.sent.map Send.address).count slot

def handledBatches (p : Producer) : List Nat :=
  if p.index = 0 then p.batches else p.batches.dropLast ++ [p.index]

theorem dealt {args : ProducerArgs} {mcAddrBuff : UInt32 → SockaddrInet} {clock : Nat → UInt64}
    {now : Int} {events : List ProducerEvent} {p : Producer}
    (reached : PartialRun.run (step args) (start args mcAddrBuff clock now) events = some p) :
    Dealt args p.sends := by
  have initially : Dealt args (start args mcAddrBuff clock now).sends := by
    rw [start_sends]
    refine ⟨fun _ => ?_, fun inside => absurd inside (Nat.lt_irrefl 0), fun _ => rfl⟩
    simp only [firstSends, List.map_map, List.flatMap_nil, List.append_nil]
    rfl
  exact sends_invariant (fun _ _ _ dealt taken => dealt.step taken) initially reached

theorem sentTo_of_dealt {args : ProducerArgs} {p : Producer} (dealt : Dealt args p.sends)
    {slot : Nat} (bound : slot < args.numberOfMcGroups) :
    p.sentTo slot = args.rate + shares args.numberOfMcGroups p.handledBatches slot := by
  have whole : args.numberOfMcGroups ∣ args.maxOutstandingSend := ⟨args.rate, Nat.mul_comm _ _⟩
  have posted : (deal args.numberOfMcGroups args.maxOutstandingSend).count slot = args.rate := by
    rw [count_deal bound, share_of_dvd whole, args.maxOutstandingSend_div]
  rcases Nat.eq_zero_or_pos p.index with atStart | inside
  · have addresses : p.sent.map Send.address = _ := dealt.between atStart
    rw [sentTo, addresses, List.count_append, posted, count_flatMap_deal bound, handledBatches,
      if_pos atStart]
    rfl
  · obtain ⟨earlier, last, batches, addresses, -⟩ := dealt.within inside
    have begun : p.batches = earlier ++ [last] := batches
    have sent : p.sent.map Send.address = _ := addresses
    rw [sentTo, sent, List.append_assoc, List.count_append, posted, handledBatches,
      if_neg (Nat.pos_iff_ne_zero.mp inside), begun, List.dropLast_concat,
      ← count_flatMap_deal bound, List.flatMap_append, List.flatMap_singleton]
    rfl

end Producer

structure Counted (args : ProducerArgs) (p : Producer) : Prop where
  keys : ∀ group, group ∈ p.groupStats ↔ ∃ mcAddr ∈ args.mcastAddrStr, mcAddr.ipNetOrder = group
  entries : ∀ group, groupEntry p.groupStats group = .afterSends (p.sent.countP fun send =>
    args.mcastAddrStr[send.address]?.map Ipv4Addr.ipNetOrder = some group)
  addressed : ∀ slot mcAddr, args.mcastAddrStr[slot]? = some mcAddr →
    (p.mcAddrBuff (offsetOf args.mcAddrDescr slot)).sinAddr = mcAddr.ipNetOrder

namespace Counted

variable {args : ProducerArgs} {p next : Producer}

theorem send (counted : Counted args p) (descriptor : Nat) {address : Nat}
    (bound : address < args.numberOfMcGroups) : Counted args (p.send args descriptor address) := by
  obtain ⟨mcAddr, found⟩ : ∃ mcAddr, args.mcastAddrStr[address]? = some mcAddr :=
    ⟨_, List.getElem?_eq_getElem bound⟩
  have target := counted.addressed address mcAddr found
  refine ⟨fun group => ?_, fun group => ?_, counted.addressed⟩
  · rw [← counted.keys, Producer.send, groupStatsSent, target, Std.TreeMap.mem_alter]
    split
    · rename_i own
      have configured : mcAddr.ipNetOrder ∈ p.groupStats :=
        (counted.keys _).mpr ⟨mcAddr, List.mem_of_getElem? found, rfl⟩
      rw [Std.LawfulEqCmp.compare_eq_iff_eq] at own
      simp [← own, configured]
    · exact Iff.rfl
  · rw [Producer.send, groupEntry_groupStatsSent, target, counted.entries, List.countP_append,
      List.countP_singleton]
    simp only [found, Option.map_some, Option.some.injEq, decide_eq_true_eq]
    split
    · exact McGroupStats.afterSends_succ _
    · rfl

theorem sends (counted : Counted args p) (indices : List Nat) :
    Counted args
      (indices.foldl (fun p i => p.send args i (i % args.numberOfMcGroups)) p) := by
  induction indices generalizing p with
  | nil => exact counted
  | cons i indices ih => exact ih (counted.send i (Nat.mod_lt i args.numberOfMcGroups_pos))

theorem start {mcAddrBuff : UInt32 → SockaddrInet}
    (addressed : ∀ slot mcAddr, args.mcastAddrStr[slot]? = some mcAddr →
      mcAddrBuff (offsetOf args.mcAddrDescr slot) = args.destination mcAddr)
    (clock : Nat → UInt64) (now : Int) : Counted args (.start args mcAddrBuff clock now) := by
  have filled : Counted args {
      timing := Timing.setStart {} now
      groupStats := initGroupStats args.mcastAddrStr
      rioBuff := fillPackets clock args.rate 0 0 fun _ => {}
      mcAddrBuff } := by
    refine ⟨mem_initGroupStats args.mcastAddrStr, fun group => ?_, fun slot mcAddr found => ?_⟩
    · exact groupEntry_initGroupStats args.mcastAddrStr group
    · exact congrArg SockaddrInet.sinAddr (addressed slot mcAddr found)
  have posted := filled.sends (List.range args.maxOutstandingSend)
  exact ⟨posted.keys, posted.entries, posted.addressed⟩

theorem step (counted : Counted args p) {event : ProducerEvent}
    (taken : p.step args event = some next) : Counted args next := by
  cases Producer.step_cases taken with
  | @handled now i result rest handling =>
      let offset := offsetOf args.rioBuffDescr result.descriptor
      let pHeader := { p.rioBuff offset with seq := p.sequenceNumber, timestamp := now }
      have stamped : Counted args { p with rioBuff := Function.update p.rioBuff offset pHeader } :=
        ⟨counted.keys, counted.entries, counted.addressed⟩
      have sent := stamped.send result.descriptor (Nat.mod_lt i args.numberOfMcGroups_pos)
      exact ⟨sent.keys, sent.entries, sent.addressed⟩
  | complete | goOn | stop | notified | notifyFailed | packet | empty | dequeued | corrupt =>
      exact ⟨counted.keys, counted.entries, counted.addressed⟩

theorem run (counted : Counted args p) {events : List ProducerEvent}
    (reached : PartialRun.run (Producer.step args) p events = some next) : Counted args next :=
  PartialRun.run_invariant (fun _ _ _ counted taken => counted.step taken) counted reached

theorem entry_of_slot (counted : Counted args p) (distinct : args.mcastAddrStr.Nodup) {slot : Nat}
    {mcAddr : Ipv4Addr} (found : args.mcastAddrStr[slot]? = some mcAddr) :
    groupEntry p.groupStats mcAddr.ipNetOrder = .afterSends (p.sentTo slot) := by
  rw [counted.entries, Producer.sentTo, List.count, List.countP_map]
  congr 1
  apply List.countP_congr
  intro send _
  simp only [Function.comp_apply, decide_eq_true_eq, beq_iff_eq]
  constructor
  · intro same
    obtain ⟨other, here, order⟩ := Option.map_eq_some_iff.mp same
    have equal : other = mcAddr := congrArg Ipv4Addr.mk order
    subst equal
    obtain ⟨inside, here⟩ := List.getElem?_eq_some_iff.mp here
    obtain ⟨bound, found⟩ := List.getElem?_eq_some_iff.mp found
    exact (distinct.getElem_inj_iff).mp (here.trans found.symm)
  · intro same
    rw [same, found]
    rfl

end Counted

/-- Between any two steps: the statistics list the configured groups, each with the
packets sent to it; every batch favours the groups in front, by 1 at most, and only
batches of whole rounds keep the groups level. -/
theorem producer_statistics {winsock : Winsock} (standard : winsock.Standard)
    {args : ProducerArgs} (distinct : args.mcastAddrStr.Nodup) {clock : Nat → UInt64} {now : Int}
    {first b : ByteProducer} (started : ByteProducer.start args winsock clock now = .ok first)
    {events : List ProducerEvent}
    (reached : PartialRun.run (ByteProducer.step args) first events = some b) :
    let batches := b.session.handledBatches
    (∀ group, group ∈ b.session.groupStats ↔
      ∃ mcAddr ∈ args.mcastAddrStr, mcAddr.ipNetOrder = group) ∧
    (∀ slot mcAddr, args.mcastAddrStr[slot]? = some mcAddr →
      groupEntry b.session.groupStats mcAddr.ipNetOrder = .afterSends (b.session.sentTo slot) ∧
      b.session.sentTo slot = args.rate + shares args.numberOfMcGroups batches slot) ∧
    (∀ slot other, slot ≤ other → other < args.numberOfMcGroups →
      b.session.sentTo other ≤ b.session.sentTo slot ∧
      b.session.sentTo slot ≤ b.session.sentTo other + batches.length) ∧
    (b.session.sentTo 0 = b.session.sentTo (args.numberOfMcGroups - 1) ↔
      args.numberOfMcGroups = 1 ∨ ∀ batch ∈ batches, args.numberOfMcGroups ∣ batch) := by
  intro batches
  obtain ⟨p, followed, represents⟩ := (start_represents started).run reached
  have positive := args.numberOfMcGroups_pos
  have counted := (Counted.start (fun slot mcAddr found =>
    start_destination standard started found) clock now).run followed
  have sentTo (slot : Nat) (bound : slot < args.numberOfMcGroups) :
      b.session.sentTo slot = args.rate + shares args.numberOfMcGroups batches slot := by
    have total := Producer.sentTo_of_dealt (Producer.dealt followed) bound
    rw [represents.session] at total
    exact total
  refine ⟨?_, fun slot mcAddr found => ⟨?_, ?_⟩, fun slot other order bound => ?_, ?_⟩
  · have keys := counted.keys
    rw [represents.session] at keys
    exact keys
  · have entry := counted.entry_of_slot distinct found
    rw [represents.session] at entry
    exact entry
  · exact sentTo slot (List.getElem?_eq_some_iff.mp found).1
  · have behind := @shares_antitone args.numberOfMcGroups slot other batches order
    have gap := @shares_gap args.numberOfMcGroups slot other batches
    rw [sentTo other bound, sentTo slot (by omega)]
    omega
  · rw [sentTo 0 positive, sentTo _ (by omega), Nat.add_left_cancel_iff]
    exact shares_level_iff positive

/-- After one round of two groups a single completion is handled: group 0 gets ahead. -/
theorem producer_statistics_split_round :
    ∃ first b, ByteProducer.start twoGroupArgs referenceWinsock (fun _ => 0) 0 = .ok first ∧
      PartialRun.run (ByteProducer.step twoGroupArgs) first
        ([.complete 0] ++ nextBatch 1 ++ [.handle 0]) = some b ∧
      groupEntry b.session.groupStats 38077935 = .afterSends 2 ∧
      groupEntry b.session.groupStats 54855151 = .afterSends 1 ∧
      b.session.sentTo 0 ≠ b.session.sentTo 1 := by
  obtain ⟨first, started⟩ := start_ok referenceWinsock_standard twoGroupArgs (fun _ => 0) 0
  obtain ⟨p, reached, dealt⟩ : ∃ p, PartialRun.run (Producer.step twoGroupArgs)
      (Producer.start twoGroupArgs
        (fun offset => SockaddrInet.read first.addresses offset.toNat) (fun _ => 0) 0)
      ([.complete 0] ++ nextBatch 1 ++ [.handle 0]) = some p ∧
      p.handledBatches = [1] := ⟨_, rfl, rfl⟩
  obtain ⟨b, followed, represents⟩ := (start_represents started).run_back reached
  rw [represents.session] at dealt
  have batches : b.session.handledBatches = [1] := dealt
  obtain ⟨-, entries, -, level⟩ := producer_statistics referenceWinsock_standard
    (by decide : twoGroupArgs.mcastAddrStr.Nodup) started followed
  rw [batches] at entries level
  obtain ⟨firstEntry, ahead⟩ := entries 0 ⟨38077935⟩ rfl
  obtain ⟨secondEntry, behind⟩ := entries 1 ⟨54855151⟩ rfl
  rw [ahead] at firstEntry
  rw [behind] at secondEntry
  exact ⟨first, b, started, followed, firstEntry, secondEntry, level.not.mpr (by decide)⟩

end RioClient
