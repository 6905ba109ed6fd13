import RioClient.ProducerSequence

/-!
The quiet schedule of a producer with one packet in flight, and the sequence
numbers over runs of any length.
-/

namespace RioClient

theorem one_rate_pos : 1 ≤ (1 : Int32).toInt := by decide

def oneGroupArgs : ProducerArgs where
  command := ['p', 'r', 'o', 'd', 'u', 'c', 'e', 'r']
  mcastAddrStr := [⟨38077935⟩]
  mcastPort := 10000
  ifIndex := ['1', '0', '.', '0', '.', '0', '.', '1']
  pktsToCount := 0
  packetRate := 1
  secondsToRun := 0
  rate_pos := one_rate_pos
  groups_pos := by decide
  limit := by decide

def oneSend : List ProducerEvent :=
  [.shouldStop false 0, .notify, .complete 0, .completionStatus, .dequeue 1, .handle 0]

structure Producer.Idle (p : Producer) : Prop where
  atHead : p.control = .loopHead
  quiet : p.completions = .empty
  one : p.posted.length = 1

namespace Producer

variable {p : Producer}

theorem idle_start (mcAddrBuff : UInt32 → SockaddrInet) (clock : Nat → UInt64) (now : Int) :
    Idle (start oneGroupArgs mcAddrBuff clock now) := ⟨rfl, rfl, rfl⟩

theorem oneSend_run (idle : p.Idle) :
    ∃ next, PartialRun.run (step oneGroupArgs) p oneSend = some next ∧
      next.Idle ∧ next.sent.length = p.sent.length + 1 := by
  obtain ⟨atHead, quiet, one⟩ := idle
  obtain ⟨send, postedEq⟩ := List.length_eq_one_iff.mp one
  cases p
  simp only at atHead quiet postedEq
  subst atHead quiet postedEq
  refine ⟨_, rfl, ⟨rfl, rfl, rfl⟩, ?_⟩
  exact List.length_append

theorem quiet_run (mcAddrBuff : UInt32 → SockaddrInet) (clock : Nat → UInt64) (now : Int)
    (passes : Nat) :
    ∃ p, PartialRun.run (step oneGroupArgs) (start oneGroupArgs mcAddrBuff clock now)
        (List.replicate passes oneSend).flatten = some p ∧
      p.Idle ∧ p.sent.length = passes + 1 := by
  induction passes with
  | zero => exact ⟨_, rfl, idle_start mcAddrBuff clock now, rfl⟩
  | succ passes ih =>
      obtain ⟨p, reached, idle, sent⟩ := ih
      obtain ⟨next, onwards, idleNext, sentNext⟩ := oneSend_run idle
      refine ⟨next, ?_, idleNext, by rw [sentNext, sent]⟩
      rw [List.replicate_succ', List.flatten_append, PartialRun.run_append, reached]
      simpa using onwards

end Producer

variable {args : ProducerArgs} {mcAddrBuff : UInt32 → SockaddrInet} {clock : Nat → UInt64}
  {now : Int} {events : List ProducerEvent} {p : Producer}

/-- Send number `t` carries the number of its round, in 64 bits; the first sends
and the loop count the same rounds and groups on. -/
theorem sent_seq_eq_round (reached : PartialRun.run (Producer.step args)
      (Producer.start args mcAddrBuff clock now) events = some p) :
    (∀ t send, p.sent[t]? = some send →
      send.seq.toNat = t / args.numberOfMcGroups % 2 ^ 64) ∧
    ((Producer.start args mcAddrBuff clock now).sent.length =
        args.rate * args.numberOfMcGroups ∧
      (Producer.start args mcAddrBuff clock now).sequenceNumber.toNat = args.rate) ∧
    p.sequenceNumber.toNat = p.sent.length / args.numberOfMcGroups % 2 ^ 64 ∧
    p.groupCounter = p.sent.length % args.numberOfMcGroups := by
  have stamped := Producer.stamped reached
  have first := @Producer.start_sends args mcAddrBuff clock now
  refine ⟨?_, ⟨?_, ?_⟩, ?_, stamped.groupCounter⟩
  · intro t send found
    rw [stamped.seq_eq found, UInt64.toNat_ofNat']
  · have sent : (Producer.start args mcAddrBuff clock now).sent = firstSends args :=
      congrArg SendState.sent first
    rw [sent, firstSends_length]
    rfl
  · have number : (Producer.start args mcAddrBuff clock now).sequenceNumber =
        UInt64.ofNat args.rate := congrArg SendState.sequenceNumber first
    have bound := args.rate_le
    rw [number, UInt64.toNat_ofNat', Nat.mod_eq_of_lt (by omega)]
  · have next : p.sequenceNumber = _ := stamped.sequenceNumber
    rw [next, UInt64.toNat_ofNat']
    rfl

theorem sent_seq_eq_round_two_groups :
    ∃ p, PartialRun.run (Producer.step twoGroupArgs)
        (Producer.start twoGroupArgs (fun _ => {}) (fun _ => 0) 0)
        ([.complete 0, .complete 0] ++ nextBatch 2 ++ [.handle 0, .handle 0]) = some p ∧
      p.sent.length = 4 ∧ ∀ t send, p.sent[t]? = some send →
        send.seq.toNat = t / twoGroupArgs.numberOfMcGroups % 2 ^ 64 := by
  obtain ⟨p, reached, size⟩ : ∃ p, PartialRun.run (Producer.step twoGroupArgs)
        (Producer.start twoGroupArgs (fun _ => {}) (fun _ => 0) 0)
        ([.complete 0, .complete 0] ++ nextBatch 2 ++ [.handle 0, .handle 0]) = some p ∧
      p.sent.length = 4 := ⟨_, rfl, rfl⟩
  exact ⟨p, reached, size, (sent_seq_eq_round reached).1⟩

/-- The number of the send after the first 2^64 ones is 0 again. -/
theorem sent_seq_wraps :
    ∃ p send, PartialRun.run (Producer.step oneGroupArgs)
        (Producer.start oneGroupArgs (fun _ => {}) (fun _ => 0) 0)
        (List.replicate (2 ^ 64) oneSend).flatten = some p ∧
      p.sent[2 ^ 64]? = some send ∧ send.seq.toNat = 0 ∧
      send.seq.toNat ≠ 2 ^ 64 / oneGroupArgs.numberOfMcGroups := by
  obtain ⟨p, reached, -, size⟩ := Producer.quiet_run (fun _ => {}) (fun _ => 0) 0 (2 ^ 64)
  have bound : 2 ^ 64 < p.sent.length := by omega
  have found : p.sent[2 ^ 64]? = some p.sent[2 ^ 64] := List.getElem?_eq_getElem bound
  have stamp := (Producer.stamped reached).seq_eq found
  have groups : oneGroupArgs.numberOfMcGroups = 1 := rfl
  have zero : (p.sent[2 ^ 64]).seq.toNat = 0 := by
    rw [stamp, groups, UInt64.toNat_ofNat', Nat.div_one, Nat.mod_self]
  refine ⟨p, _, reached, found, zero, ?_⟩
  rw [zero, groups, Nat.div_one]
  decide

end RioClient
