import Mathlib.Algebra.Ring.Nat
import RioClient.GroupStats

/-!
The expectation against any numbers from the wire. The number of a packet is
not checked, so the next expectation is one more than it modulo 2^64.
-/

namespace RioClient

namespace McGroupStats

theorem update_expected_le {gmc : McGroupStats} {packet : Packet}
    (below : packet.header.seq.toNat < 2 ^ 64 - 1) :
    gmc.expectedSequence.toNat ≤
        (gmc.update packet.pktSize packet.header).expectedSequence.toNat ∧
      packet.header.seq.toNat <
        (gmc.update packet.pktSize packet.header).expectedSequence.toNat := by
  rcases Nat.lt_or_ge packet.header.seq.toNat gmc.expectedSequence.toNat with late | fresh
  · rw [update_late late]
    exact ⟨le_rfl, late⟩
  · have next : (packet.header.seq + 1).toNat = packet.header.seq.toNat + 1 := by
      rw [UInt64.toNat_add, UInt64.toNat_one]
      omega
    rw [update_fresh fresh]
    dsimp only
    omega

/-- The last number of the type is never below the expectation and wraps it. -/
theorem update_expected_wraps {gmc : McGroupStats} {packet : Packet}
    (last : packet.header.seq.toNat = 2 ^ 64 - 1) :
    (gmc.update packet.pktSize packet.header).expectedSequence = 0 := by
  have bound := gmc.expectedSequence.toNat_lt
  have fresh : gmc.expectedSequence.toNat ≤ packet.header.seq.toNat := by omega
  have seq : packet.header.seq = UInt64.ofNat (2 ^ 64 - 1) := by
    apply UInt64.toNat_inj.mp
    rw [last]
    rfl
  rw [update_fresh fresh, seq]
  rfl

theorem Bounded.of_prefix {front stream : List Packet} (bounded : Bounded stream)
    (isPrefix : front <+: stream) : Bounded front :=
  fun packet member => bounded packet (isPrefix.subset member)

end McGroupStats

open McGroupStats

def expectedAfter (stats : McGroupStatsMap) (addr : SockaddrInet) (stream : List Packet) : Nat :=
  (groupEntry (receiveStream stats addr stream) addr.sinAddr).expectedSequence.toNat

/-- Past the first packet of the group, the numbers that a packet skips are counted as lost. -/
def newlyLost (stats : McGroupStatsMap) (addr : SockaddrInet) (before : List Packet)
    (packet : Packet) (seq : Nat) : Prop :=
  (groupEntry (receiveStream stats addr before) addr.sinAddr).packets ≠ 0 ∧
    expectedAfter stats addr before ≤ seq ∧ seq < packet.header.seq.toNat

structure NeverBackwards (stats : McGroupStatsMap) (addr : SockaddrInet)
    (stream : List Packet) : Prop where
  monotone : ∀ before packet, before ++ [packet] <+: stream →
    expectedAfter stats addr before ≤ expectedAfter stats addr (before ++ [packet])
  above : ∀ before packet, before ++ [packet] <+: stream →
    packet.header.seq.toNat < expectedAfter stats addr (before ++ [packet])
  seen : ∀ before packet, before ++ [packet] <+: stream →
    ∀ other ∈ before, ¬newlyLost stats addr before packet other.header.seq.toNat

section

variable {stats : McGroupStatsMap} {addr : SockaddrInet} {stream : List Packet}

theorem expectedAfter_snoc (stream : List Packet) (packet : Packet) :
    expectedAfter stats addr (stream ++ [packet]) =
      ((groupEntry (receiveStream stats addr stream) addr.sinAddr).update
        packet.pktSize packet.header).expectedSequence.toNat := by
  simp only [expectedAfter, groupEntry_receiveStream, List.foldl_append, List.foldl_cons,
    List.foldl_nil]

theorem seen_lt_expectedAfter (bounded : Bounded stream) :
    ∀ packet ∈ stream, packet.header.seq.toNat < expectedAfter stats addr stream := by
  induction stream using List.reverseRecOn with
  | nil => simp
  | append_singleton stream packet ih =>
      have step := @update_expected_le
        (groupEntry (receiveStream stats addr stream) addr.sinAddr) packet bounded.snoc.2
      intro other member
      rw [expectedAfter_snoc]
      rcases List.mem_append.mp member with earlier | last
      · exact (ih bounded.snoc.1 other earlier).trans_le step.1
      · rw [List.mem_singleton.mp last]
        exact step.2

theorem neverBackwards_of_bounded (bounded : Bounded stream) :
    NeverBackwards stats addr stream where
  monotone := by
    intro before packet isPrefix
    rw [expectedAfter_snoc]
    exact (update_expected_le (Bounded.of_prefix bounded isPrefix).snoc.2).1
  above := by
    intro before packet isPrefix
    exact seen_lt_expectedAfter (Bounded.of_prefix bounded isPrefix) packet (by simp)
  seen := by
    rintro before packet isPrefix other member ⟨-, skipped, -⟩
    have below := @seen_lt_expectedAfter stats addr before
      (Bounded.of_prefix bounded isPrefix).snoc.1 other member
    omega

/-- The expectation only moves forward exactly while no packet carries the last
64-bit number, whatever the entry held before. -/
theorem groupStatsUpdate_never_backwards_iff (stats : McGroupStatsMap) (addr : SockaddrInet)
    (stream : List Packet) :
    NeverBackwards stats addr stream ↔
      ∀ packet ∈ stream, packet.header.seq.toNat ≠ 2 ^ 64 - 1 := by
  constructor
  · intro forward packet member last
    obtain ⟨before, after, rfl⟩ := List.append_of_mem member
    have above := forward.above before packet ⟨after, by simp⟩
    rw [expectedAfter_snoc, update_expected_wraps last] at above
    exact Nat.not_lt_zero _ above
  · intro noLast
    apply neverBackwards_of_bounded
    intro packet member
    have bound := packet.header.seq.toNat_lt
    have different := noLast packet member
    omega

end

/-- One forged packet sends the expectation back to zero, and the next ordinary
one counts a thousand numbers as lost, among them the one seen first. -/
theorem groupStatsUpdate_forged_seq_rewinds :
    let before : List Packet := [1000, 18446744073709551615].map fun seq => ⟨100, { seq := seq }⟩
    let packet : Packet := ⟨100, { seq := 1001 }⟩
    expectedAfter ∅ {} (before.take 1) = 1001 ∧ expectedAfter ∅ {} before = 0 ∧
      newlyLost ∅ {} before packet 1000 ∧
      ¬NeverBackwards ∅ {} (before ++ [packet]) := by
  intro before packet
  have rewound : expectedAfter ∅ {} before = 0 := by decide
  have lost : newlyLost ∅ {} before packet 1000 := by
    refine ⟨by decide, ?_, by decide⟩
    rw [rewound]
    exact Nat.zero_le _
  refine ⟨by decide, rewound, lost, ?_⟩
  intro forward
  exact forward.seen before packet (List.prefix_refl _) ⟨100, { seq := 1000 }⟩ (by decide) lost

end RioClient
