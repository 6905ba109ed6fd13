import Mathlib.Algebra.BigOperators.Ring.List
import RioClient.ProducerSends

/-!
The sequence numbers each group sees. The address of a send is chosen by its
position in the batch, its number by a counter over all sends; the two agree as
long as every batch begins with a new round.
-/

namespace RioClient

open RoundRobin

def WholeRounds (args : ProducerArgs) (batches : List Nat) : Prop :=
  ∀ n ∈ batches, args.numberOfMcGroups ∣ n

instance (args : ProducerArgs) (batches : List Nat) : Decidable (WholeRounds args batches) :=
  inferInstanceAs (Decidable (∀ n ∈ batches, _))

theorem WholeRounds.dvd_sum {args : ProducerArgs} {batches : List Nat}
    (whole : WholeRounds args batches) : args.numberOfMcGroups ∣ batches.sum :=
  List.dvd_sum whole

theorem WholeRounds.before {args : ProducerArgs} {batches : List Nat}
    (whole : WholeRounds args batches) : WholeRounds args batches.dropLast :=
  fun n member => whole n (List.dropLast_subset _ member)

theorem WholeRounds.of_dropLast {args : ProducerArgs} {batches : List Nat}
    (before : WholeRounds args batches.dropLast) (total : args.numberOfMcGroups ∣ batches.sum) :
    WholeRounds args batches := by
  rcases List.eq_nil_or_concat batches with rfl | ⟨earlier, last, rfl⟩
  · exact before
  · rw [List.concat_eq_append] at before total ⊢
    rw [List.dropLast_concat] at before
    rw [List.sum_append, List.sum_singleton, Nat.dvd_add_right before.dvd_sum] at total
    intro n member
    rcases List.mem_append.mp member with inside | final
    · exact before n inside
    · rw [List.mem_singleton.mp final]
      exact total

def SendState.posts (s : SendState) : List (Nat × Nat) :=
  s.sent.map fun send => (send.address, send.seq.toNat)

/-- The numbers are in order for every group exactly while every batch begun so
far began with a round, and no number has wrapped. -/
structure Sequenced (args : ProducerArgs) (s : SendState) : Prop where
  taken : WholeRounds args s.batches.dropLast →
    s.posts = turns args.numberOfMcGroups (2 ^ 64) s.sent.length
  inOrder : InOrder args.numberOfMcGroups s.posts ↔
    WholeRounds args s.batches.dropLast ∧ s.sent.length ≤ args.numberOfMcGroups * 2 ^ 64

variable {args : ProducerArgs} {s next : SendState} {event : ProducerEvent}

theorem Stamped.posts_handled (stamped : Stamped args s) (now : UInt64) (result : Send)
    (rest : List Send) :
    (s.handled args now result rest).posts = s.posts ++ [(s.index % args.numberOfMcGroups,
      s.sent.length / args.numberOfMcGroups % 2 ^ 64)] := by
  simp [SendState.posts, SendState.handled, SendState.repost, stamped.sequenceNumber]

theorem Batched.dvd_sent_iff (batched : Batched args s) (atStart : s.index = 0) :
    args.numberOfMcGroups ∣ s.sent.length ↔ args.numberOfMcGroups ∣ s.batches.sum := by
  rw [batched.between atStart, Nat.dvd_add_right args.numberOfMcGroups_dvd]

/-- Inside a batch that began with a round, the position gives the group whose turn it is. -/
theorem Batched.turn (batched : Batched args s) (inside : 0 < s.index)
    (whole : WholeRounds args s.batches.dropLast) :
    s.index % args.numberOfMcGroups = s.sent.length % args.numberOfMcGroups := by
  obtain ⟨earlier, last, batchesEq, total, -⟩ := batched.within inside
  rw [batchesEq, List.dropLast_concat] at whole
  obtain ⟨factor, product⟩ := Nat.dvd_add args.numberOfMcGroups_dvd whole.dvd_sum
  rw [total, product, Nat.mul_add_mod]

section Handled

variable (now : UInt64) (result : Send) (rest : List Send)

/-- The first send of a batch goes to group 0, whoever's turn it is. -/
theorem Sequenced.handled_first (stamped : Stamped args s) (batched : Batched args s)
    (sequenced : Sequenced args s) (atStart : s.index = 0) :
    Sequenced args (s.handled args now result rest) := by
  have positive := args.numberOfMcGroups_pos
  have posts := stamped.posts_handled now result rest
  rw [atStart, Nat.zero_mod] at posts
  have batches : (s.handled args now result rest).batches.dropLast = s.batches := by
    rw [SendState.handled_batches, if_pos atStart, List.dropLast_concat]
  have complete (whole : WholeRounds args s.batches) : args.numberOfMcGroups ∣ s.sent.length :=
    (batched.dvd_sent_iff atStart).mpr whole.dvd_sum
  constructor
  · rw [batches, posts, SendState.handled_sent_length, turns_succ]
    intro whole
    rw [sequenced.taken whole.before, Nat.mod_eq_zero_of_dvd (complete whole)]
  · rw [batches, posts, SendState.handled_sent_length]
    constructor
    · intro inOrder
      have before := ((inOrder_snoc positive).mp inOrder).1
      have wholeBefore := (sequenced.inOrder.mp before).1
      rw [sequenced.taken wholeBefore, inOrder_restart positive (by decide)] at inOrder
      have total := (batched.dvd_sent_iff atStart).mp inOrder.1
      exact ⟨wholeBefore.of_dropLast total, inOrder.2⟩
    · rintro ⟨whole, bound⟩
      rw [sequenced.taken whole.before, inOrder_restart positive (by decide)]
      exact ⟨complete whole, bound⟩

theorem Sequenced.handled_inside (stamped : Stamped args s) (batched : Batched args s)
    (sequenced : Sequenced args s) (inside : 0 < s.index) :
    Sequenced args (s.handled args now result rest) := by
  have positive := args.numberOfMcGroups_pos
  have posts := stamped.posts_handled now result rest
  have batches : (s.handled args now result rest).batches = s.batches := by
    rw [SendState.handled_batches, if_neg (Nat.pos_iff_ne_zero.mp inside)]
  have next (whole : WholeRounds args s.batches.dropLast) :
      (s.handled args now result rest).posts =
        turns args.numberOfMcGroups (2 ^ 64) (s.sent.length + 1) := by
    rw [posts, sequenced.taken whole, turns_succ, batched.turn inside whole]
  constructor
  · rw [batches, SendState.handled_sent_length]
    exact next
  · rw [batches, SendState.handled_sent_length]
    constructor
    · intro inOrder
      have before := inOrder
      rw [posts, inOrder_snoc (Nat.mod_lt _ positive)] at before
      have whole := (sequenced.inOrder.mp before.1).1
      rw [next whole, inOrder_turns positive (by decide)] at inOrder
      exact ⟨whole, inOrder⟩
    · rintro ⟨whole, bound⟩
      rw [next whole, inOrder_turns positive (by decide)]
      exact bound

end Handled

theorem Sequenced.step (stamped : Stamped args s) (batched : Batched args s)
    (sequenced : Sequenced args s) (taken : SendStep args s event next) :
    Sequenced args next := by
  cases taken with
  | complete | take => exact ⟨sequenced.taken, sequenced.inOrder⟩
  | @handle now result rest resultsEq =>
      rcases Nat.eq_zero_or_pos s.index with atStart | inside
      · exact sequenced.handled_first now result rest stamped batched atStart
      · exact sequenced.handled_inside now result rest stamped batched inside

variable {mcAddrBuff : UInt32 → SockaddrInet} {clock : Nat → UInt64} {now : Int}
  {events : List ProducerEvent} {p : Producer}

theorem Sequenced.start : Sequenced args (Producer.start args mcAddrBuff clock now).sends := by
  have positive := args.numberOfMcGroups_pos
  have posts : (Producer.start args mcAddrBuff clock now).sends.posts =
      turns args.numberOfMcGroups (2 ^ 64) args.maxOutstandingSend := by
    rw [Producer.start_sends]
    simp [SendState.posts, firstSends, turns]
  have sent : (Producer.start args mcAddrBuff clock now).sends.sent.length =
      args.maxOutstandingSend := by
    rw [Producer.start_sends]
    exact firstSends_length args
  have batches : (Producer.start args mcAddrBuff clock now).sends.batches = [] := by
    rw [Producer.start_sends]
  constructor
  · rw [posts, sent]
    exact fun _ => rfl
  · rw [posts, sent, batches, inOrder_turns positive (by decide)]
    simp [WholeRounds]

theorem Producer.sequenced (reached : PartialRun.run (Producer.step args)
    (Producer.start args mcAddrBuff clock now) events = some p) : Sequenced args p.sends := by
  have invariant := @Producer.sends_invariant args p
    (fun s => Stamped args s ∧ Batched args s ∧ Sequenced args s)
    (fun _ _ _ holds taken => ⟨holds.1.step taken, holds.2.1.step taken,
      holds.2.2.step holds.1 holds.2.1 taken⟩) _ _
    ⟨Producer.stamped (PartialRun.run_nil _ _), Producer.batched (PartialRun.run_nil _ _),
      Sequenced.start⟩ reached
  exact invariant.2.2

/-- Every group is sent 0, 1, 2, .. exactly while all batches but the latest
were whole rounds and no number has wrapped. -/
theorem sent_inOrder_iff (reached : PartialRun.run (Producer.step args)
    (Producer.start args mcAddrBuff clock now) events = some p) :
    (∀ g < args.numberOfMcGroups,
        (p.sent.filter fun send => send.address = g).map (fun send => send.seq.toNat) =
          List.range (p.sent.countP fun send => send.address = g)) ↔
      WholeRounds args p.batches.dropLast ∧ p.sent.length ≤ args.numberOfMcGroups * 2 ^ 64 := by
  refine Iff.trans ?_ (Producer.sequenced reached).inOrder
  simp [InOrder, SendState.posts, Producer.sends, List.filter_map, List.countP_map,
    Function.comp_def]

def twoGroupArgs : ProducerArgs where
  command := ['p', 'r', 'o', 'd', 'u', 'c', 'e', 'r']
  mcastAddrStr := [⟨38077935⟩, ⟨54855151⟩]
  mcastPort := 10000
  ifIndex := ['1', '0', '.', '0', '.', '0', '.', '1']
  pktsToCount := 0
  packetRate := 1
  secondsToRun := 0
  rate_pos := by decide
  groups_pos := by decide
  limit := by decide

def nextBatch (count : Nat) : List ProducerEvent :=
  [.shouldStop false 0, .notify, .completionStatus, .dequeue count]

theorem sent_inOrder_iff_whole_round :
    ∃ p, PartialRun.run (Producer.step twoGroupArgs)
        (Producer.start twoGroupArgs (fun _ => {}) (fun _ => 0) 0)
        ([.complete 0, .complete 0] ++ nextBatch 2 ++ [.handle 0, .handle 0]) = some p ∧
      ∀ g < 2, (p.sent.filter fun send => send.address = g).map (fun send => send.seq.toNat) =
        List.range (p.sent.countP fun send => send.address = g) := by
  obtain ⟨p, reached, whole⟩ : ∃ p, PartialRun.run (Producer.step twoGroupArgs)
        (Producer.start twoGroupArgs (fun _ => {}) (fun _ => 0) 0)
        ([.complete 0, .complete 0] ++ nextBatch 2 ++ [.handle 0, .handle 0]) = some p ∧
      WholeRounds twoGroupArgs p.batches.dropLast ∧
      p.sent.length ≤ twoGroupArgs.numberOfMcGroups * 2 ^ 64 := ⟨_, rfl, by decide, by decide⟩
  exact ⟨p, reached, (sent_inOrder_iff reached).mpr whole⟩

/-- Two batches of one packet: both go to group 0, and with the same number. -/
theorem sent_repeats_after_split_round :
    ∃ p, PartialRun.run (Producer.step twoGroupArgs)
        (Producer.start twoGroupArgs (fun _ => {}) (fun _ => 0) 0)
        ([.complete 0] ++ nextBatch 1 ++ [.handle 0] ++
          [.complete 0] ++ nextBatch 1 ++ [.handle 0]) = some p ∧
      (p.sent.filter fun send => send.address = 0).map (fun send => send.seq.toNat) = [0, 1, 1] ∧
      (p.sent.filter fun send => send.address = 1).map (fun send => send.seq.toNat) = [0] := by
  refine ⟨_, rfl, ?_, ?_⟩
  · decide
  · decide

end RioClient
