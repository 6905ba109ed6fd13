import Mathlib.Algebra.Ring.Nat
import RioClient.GroupStatsCore
import RioClient.SequenceGaps

/-!
What the counters of one group say about the stream of packets it received.
-/

namespace RioClient

open SequenceGaps

def seqsOf (stream : List Packet) : List Nat := stream.map fun packet => packet.header.seq.toNat

def McGroupStats.afterStream (stream : List Packet) : McGroupStats :=
  stream.foldl (fun gmc packet => gmc.update packet.pktSize packet.header) {}

theorem groupEntry_update (stats : McGroupStatsMap) (addr : SockaddrInet) (pktSize : UInt64)
    (pHdr : ProtocolHeader) :
    groupEntry (groupStatsUpdate stats addr pktSize pHdr) addr.sinAddr =
      (groupEntry stats addr.sinAddr).update pktSize pHdr := by
  simp [groupEntry, groupStatsUpdate]

theorem groupEntry_receiveStream (stats : McGroupStatsMap) (addr : SockaddrInet)
    (stream : List Packet) :
    groupEntry (receiveStream stats addr stream) addr.sinAddr =
      stream.foldl (fun gmc packet => gmc.update packet.pktSize packet.header)
        (groupEntry stats addr.sinAddr) := by
  induction stream generalizing stats with
  | nil => rfl
  | cons packet rest ih =>
      simp only [receiveStream, List.foldl_cons] at ih ⊢
      rw [ih, groupEntry_update]

theorem groupEntry_afterStream {stats : McGroupStatsMap} {addr : SockaddrInet}
    (zeroed : groupEntry stats addr.sinAddr = {}) (stream : List Packet) :
    groupEntry (receiveStream stats addr stream) addr.sinAddr =
      McGroupStats.afterStream stream := by
  rw [groupEntry_receiveStream, zeroed]
  rfl

@[simp] theorem seqsOf_snoc (stream : List Packet) (packet : Packet) :
    seqsOf (stream ++ [packet]) = seqsOf stream ++ [packet.header.seq.toNat] := by
  simp [seqsOf]

@[simp] theorem seqsOf_length (stream : List Packet) : (seqsOf stream).length = stream.length := by
  simp [seqsOf]

namespace McGroupStats

theorem afterStream_snoc (stream : List Packet) (packet : Packet) :
    afterStream (stream ++ [packet]) =
      (afterStream stream).update packet.pktSize packet.header := by
  simp [afterStream, List.foldl_append]

/-! One update does one of two things: it moves the expectation past a packet
that is not below it, or counts a late packet. -/

theorem update_fresh {gmc : McGroupStats} {pktSize : UInt64} {pHdr : ProtocolHeader}
    (fresh : gmc.expectedSequence.toNat ≤ pHdr.seq.toNat) :
    gmc.update pktSize pHdr =
      { packets := gmc.packets + 1
        bytes := gmc.bytes + pktSize
        sequence := pHdr.seq
        expectedSequence := pHdr.seq + 1
        outOfOrder := gmc.outOfOrder
        rxDropped :=
          if gmc.packets ≠ 0 then gmc.rxDropped + (pHdr.seq - gmc.expectedSequence)
          else gmc.rxDropped } := by
  by_cases inOrder : pHdr.seq = gmc.expectedSequence
  · simp [update, inOrder]
  · have gap : gmc.expectedSequence < pHdr.seq := by
      rw [UInt64.lt_iff_toNat_lt]
      have different : pHdr.seq.toNat ≠ gmc.expectedSequence.toNat :=
        fun same => inOrder (UInt64.toNat_inj.mp same)
      omega
    simp [update, inOrder, gap]

theorem update_late {gmc : McGroupStats} {pktSize : UInt64} {pHdr : ProtocolHeader}
    (late : pHdr.seq.toNat < gmc.expectedSequence.toNat) :
    gmc.update pktSize pHdr =
      { packets := gmc.packets + 1
        bytes := gmc.bytes + pktSize
        sequence := gmc.sequence
        expectedSequence := gmc.expectedSequence
        outOfOrder := gmc.outOfOrder + 1
        rxDropped := if gmc.rxDropped > 0 then gmc.rxDropped - 1 else gmc.rxDropped } := by
  have different : pHdr.seq ≠ gmc.expectedSequence := by
    rintro same
    rw [same] at late
    omega
  have noGap : ¬gmc.expectedSequence < pHdr.seq := by
    rw [UInt64.lt_iff_toNat_lt]
    omega
  simp [update, different, noGap]

def Bounded (stream : List Packet) : Prop :=
  ∀ packet ∈ stream, packet.header.seq.toNat < 2 ^ 64 - 1

instance (stream : List Packet) : Decidable (Bounded stream) :=
  inferInstanceAs (Decidable (∀ packet ∈ stream, packet.header.seq.toNat < 2 ^ 64 - 1))

theorem Bounded.snoc {stream : List Packet} {packet : Packet}
    (bounded : Bounded (stream ++ [packet])) :
    Bounded stream ∧ packet.header.seq.toNat < 2 ^ 64 - 1 :=
  ⟨fun other member => bounded other (by simp [member]), bounded packet (by simp)⟩

theorem Bounded.next_le {stream : List Packet} (bounded : Bounded stream) :
    next (seqsOf stream) ≤ 2 ^ 64 - 1 := by
  apply SequenceGaps.next_le
  intro value received
  obtain ⟨packet, member, rfl⟩ := List.mem_map.mp received
  exact bounded packet member

structure Tracks (gmc : McGroupStats) (stream : List Packet) : Prop where
  expected : gmc.expectedSequence.toNat = next (seqsOf stream)
  sequence : gmc.sequence.toNat = highest (seqsOf stream)
  packets : gmc.packets.toNat = stream.length % 2 ^ 64
  bytes : gmc.bytes.toNat = (stream.map fun packet => packet.pktSize.toNat).sum % 2 ^ 64
  outOfOrder : gmc.outOfOrder.toNat = lates (seqsOf stream) % 2 ^ 64

theorem highest_of_fresh {seqs : List Nat} {value : Nat} (fresh : next seqs ≤ value) :
    highest (seqs ++ [value]) = value := by
  rw [highest_snoc]
  by_cases empty : seqs = []
  · simp [empty, highest]
  · rw [next_eq_highest empty] at fresh
    omega

theorem highest_of_late {seqs : List Nat} {value : Nat} (late : value < next seqs) :
    highest (seqs ++ [value]) = highest seqs := by
  have nonempty : seqs ≠ [] := by
    rintro rfl
    simp at late
  rw [next_eq_highest nonempty] at late
  rw [highest_snoc]
  omega

theorem Tracks.snoc {gmc : McGroupStats} {stream : List Packet} {packet : Packet}
    (tracks : Tracks gmc stream) (bounded : packet.header.seq.toNat < 2 ^ 64 - 1) :
    Tracks (gmc.update packet.pktSize packet.header) (stream ++ [packet]) := by
  have packets : (gmc.packets + 1).toNat = (stream ++ [packet]).length % 2 ^ 64 := by
    simp [tracks.packets]
  have bytes : (gmc.bytes + packet.pktSize).toNat =
      ((stream ++ [packet]).map fun packet => packet.pktSize.toNat).sum % 2 ^ 64 := by
    simp [tracks.bytes]
  rcases Nat.lt_or_ge packet.header.seq.toNat gmc.expectedSequence.toNat with late | fresh
  · rw [update_late late]
    rw [tracks.expected] at late
    refine ⟨?_, ?_, packets, bytes, ?_⟩
    · rw [seqsOf_snoc, next_snoc, tracks.expected, max_eq_left (by omega)]
    · rw [seqsOf_snoc, highest_of_late late, tracks.sequence]
    · simp [seqsOf_snoc, lates_snoc, late, tracks.outOfOrder]
  · rw [update_fresh fresh]
    rw [tracks.expected] at fresh
    refine ⟨?_, ?_, packets, bytes, ?_⟩
    · rw [seqsOf_snoc, next_snoc, max_eq_right (by omega), UInt64.toNat_add, UInt64.toNat_one]
      omega
    · rw [seqsOf_snoc, highest_of_fresh fresh]
    · simp [seqsOf_snoc, lates_snoc, Nat.not_lt.mpr fresh, tracks.outOfOrder]

theorem afterStream_tracks (stream : List Packet) (bounded : Bounded stream) :
    Tracks (afterStream stream) stream := by
  induction stream using List.reverseRecOn with
  | nil => exact ⟨rfl, rfl, rfl, rfl, rfl⟩
  | append_singleton stream packet ih =>
      rw [afterStream_snoc]
      exact (ih bounded.snoc.1).snoc bounded.snoc.2

/-! The drop counter. While `Packets` has not wrapped it is the counter that
adds gaps and gives one back for a late arrival. -/

theorem update_rxDropped_late {gmc : McGroupStats} {packet : Packet}
    (late : packet.header.seq.toNat < gmc.expectedSequence.toNat) :
    (gmc.update packet.pktSize packet.header).rxDropped.toNat = gmc.rxDropped.toNat - 1 := by
  rw [update_late late]
  by_cases some : gmc.rxDropped > 0
  · have positive : 1 ≤ gmc.rxDropped := by
      rw [gt_iff_lt, UInt64.lt_iff_toNat_lt, UInt64.toNat_zero] at some
      rw [UInt64.le_iff_toNat_le, UInt64.toNat_one]
      omega
    simp [some, UInt64.toNat_sub_of_le _ _ positive]
  · have none : gmc.rxDropped.toNat = 0 := by
      rw [gt_iff_lt, UInt64.lt_iff_toNat_lt, UInt64.toNat_zero] at some
      omega
    simp [some, none]

theorem update_rxDropped_fresh {gmc : McGroupStats} {packet : Packet}
    (fresh : gmc.expectedSequence.toNat ≤ packet.header.seq.toNat) :
    (gmc.update packet.pktSize packet.header).rxDropped.toNat =
      if gmc.packets.toNat = 0 then gmc.rxDropped.toNat
      else (gmc.rxDropped.toNat +
        (packet.header.seq.toNat - gmc.expectedSequence.toNat)) % 2 ^ 64 := by
  have zero : gmc.packets = 0 ↔ gmc.packets.toNat = 0 := by
    rw [← UInt64.toNat_inj, UInt64.toNat_zero]
  have gap := UInt64.toNat_sub_of_le _ _ (UInt64.le_iff_toNat_le.mpr fresh)
  rw [update_fresh fresh]
  by_cases none : gmc.packets.toNat = 0
  · simp [zero.mpr none]
  · simp [none, mt zero.mp none, UInt64.toNat_add, gap]

theorem afterStream_rxDropped_le_missing (stream : List Packet) (bounded : Bounded stream) :
    (afterStream stream).rxDropped.toNat ≤ (missing (seqsOf stream)).card := by
  induction stream using List.reverseRecOn with
  | nil => simp [afterStream]
  | append_singleton stream packet ih =>
      have tracks := afterStream_tracks stream bounded.snoc.1
      have before := ih bounded.snoc.1
      have after := report_le_missing before packet.header.seq.toNat
      rw [afterStream_snoc, seqsOf_snoc]
      rcases Nat.lt_or_ge packet.header.seq.toNat (afterStream stream).expectedSequence.toNat
        with late | fresh
      · rw [update_rxDropped_late late]
        rw [tracks.expected] at late
        rwa [report_late late] at after
      · rw [update_rxDropped_fresh fresh]
        rw [tracks.expected] at fresh ⊢
        by_cases empty : stream = []
        · subst empty
          simp [afterStream]
        · have nonempty : seqsOf stream ≠ [] := by simpa [seqsOf] using empty
          rw [report_fresh nonempty fresh] at after
          split
          · omega
          · exact Nat.le_trans (Nat.mod_le _ _) after

theorem afterStream_rxDropped (stream : List Packet) (bounded : Bounded stream)
    (short : stream.length < 2 ^ 64) :
    (afterStream stream).rxDropped.toNat = reported (seqsOf stream) := by
  induction stream using List.reverseRecOn with
  | nil => rfl
  | append_singleton stream packet ih =>
      rw [List.length_append, List.length_singleton] at short
      have tracks := afterStream_tracks stream bounded.snoc.1
      have before := ih bounded.snoc.1 (by omega)
      rw [afterStream_snoc, seqsOf_snoc, reported_snoc]
      rcases Nat.lt_or_ge packet.header.seq.toNat (afterStream stream).expectedSequence.toNat
        with late | fresh
      · rw [update_rxDropped_late late, before]
        rw [tracks.expected] at late
        rw [report_late late]
      · rw [update_rxDropped_fresh fresh, tracks.packets, Nat.mod_eq_of_lt (by omega), before]
        rw [tracks.expected] at fresh ⊢
        by_cases empty : stream = []
        · subst empty
          simp [seqsOf, report_first]
        · have nonempty : seqsOf stream ≠ [] := by simpa [seqsOf] using empty
          -- the sum stays below the missing numbers of the longer stream, hence below 2^64
          have below := reported_le_missing (seqsOf (stream ++ [packet]))
          have room := missing_card_le (seqsOf (stream ++ [packet]))
          have limit := bounded.next_le
          rw [seqsOf_snoc, reported_snoc, report_fresh nonempty fresh] at below
          rw [seqsOf_snoc] at room limit
          rw [report_fresh nonempty fresh, if_neg (by simpa using empty)]
          apply Nat.mod_eq_of_lt
          omega

theorem afterStream_rxDropped_of_no_strays (stream : List Packet) (bounded : Bounded stream)
    (short : stream.length < 2 ^ 64) (none : strays (seqsOf stream) = 0) :
    (afterStream stream).rxDropped.toNat = (missing (seqsOf stream)).card := by
  rw [afterStream_rxDropped stream bounded short, reported_eq_missing_iff]
  exact Settled.of_no_strays none

end McGroupStats

open McGroupStats

variable {stats : McGroupStatsMap} {addr : SockaddrInet} {stream : List Packet}

theorem length_lt_of_no_strays (bounded : Bounded stream) (none : strays (seqsOf stream) = 0) :
    stream.length < 2 ^ 64 := by
  have balance := length_add_missing (seqsOf stream)
  have limit := bounded.next_le
  rw [seqsOf_length, none] at balance
  omega

/-- No phantom loss is ever reported, and for distinct numbers that are not
older than the first the reported loss is the real one. -/
theorem groupStatsUpdate_loss_accounting
    (zeroed : groupEntry stats addr.sinAddr = {}) (bounded : Bounded stream) :
    let gmc := groupEntry (receiveStream stats addr stream) addr.sinAddr
    gmc.rxDropped.toNat ≤ (missing (seqsOf stream)).card ∧
      ((seqsOf stream).Nodup → (∀ seq ∈ seqsOf stream, first (seqsOf stream) ≤ seq) →
        gmc.rxDropped.toNat = (missing (seqsOf stream)).card ∧
        gmc.packets.toNat + gmc.rxDropped.toNat + first (seqsOf stream) =
          gmc.expectedSequence.toNat) := by
  simp only [groupEntry_afterStream zeroed]
  refine ⟨afterStream_rxDropped_le_missing stream bounded, ?_⟩
  intro distinct recent
  have none := strays_eq_zero distinct recent
  have short := length_lt_of_no_strays bounded none
  have tracks := afterStream_tracks stream bounded
  have exact := afterStream_rxDropped_of_no_strays stream bounded short none
  refine ⟨exact, ?_⟩
  have balance := length_add_missing (seqsOf stream)
  have order : first (seqsOf stream) ≤ next (seqsOf stream) := by
    by_cases empty : seqsOf stream = []
    · simp [empty, first]
    · exact (first_lt_next empty).le
  rw [exact, tracks.packets, tracks.expected, Nat.mod_eq_of_lt short]
  rw [seqsOf_length, none] at balance
  omega

theorem groupStatsUpdate_loss_accounting_reordered :
    let stream : List Packet := [5, 8, 6].map fun seq => ⟨100, { seq := seq }⟩
    (groupEntry (receiveStream ∅ {} stream) 0).rxDropped.toNat =
      (missing (seqsOf stream)).card :=
  ((@groupStatsUpdate_loss_accounting ∅ {} _ (by decide) (by decide)).2
    (by decide) (by decide)).1

/-- Expectation, last number, packet and byte totals and the out-of-order count
in terms of the history; the 64-bit counters are exact up to their wrap. -/
theorem groupStatsUpdate_sequence_tracking
    (zeroed : groupEntry stats addr.sinAddr = {}) (bounded : Bounded stream)
    (nonempty : stream ≠ []) :
    let gmc := groupEntry (receiveStream stats addr stream) addr.sinAddr
    gmc.expectedSequence.toNat = highest (seqsOf stream) + 1 ∧
      gmc.sequence.toNat = highest (seqsOf stream) ∧
      gmc.packets.toNat = stream.length % 2 ^ 64 ∧
      gmc.bytes.toNat = (stream.map fun packet => packet.pktSize.toNat).sum % 2 ^ 64 ∧
      gmc.outOfOrder.toNat = lates (seqsOf stream) % 2 ^ 64 := by
  simp only [groupEntry_afterStream zeroed]
  have tracks := afterStream_tracks stream bounded
  have received : seqsOf stream ≠ [] := by simpa [seqsOf] using nonempty
  refine ⟨?_, tracks.sequence, tracks.packets, tracks.bytes, tracks.outOfOrder⟩
  rw [tracks.expected, next_eq_highest received]

theorem groupStatsUpdate_sequence_tracking_duplicate :
    let stream : List Packet := [5, 8, 6, 8].map fun seq => ⟨100, { seq := seq }⟩
    (groupEntry (receiveStream ∅ {} stream) 0).outOfOrder.toNat =
      lates (seqsOf stream) % 2 ^ 64 :=
  (@groupStatsUpdate_sequence_tracking ∅ {} _ (by decide) (by decide)
    (by decide)).2.2.2.2

theorem groupStatsUpdate_packets_wrap :
    let stream : List Packet := List.replicate (2 ^ 64) ⟨100, {}⟩
    stream ≠ [] ∧ Bounded stream ∧
      (groupEntry (receiveStream ∅ {} stream) 0).packets.toNat ≠ stream.length := by
  intro stream
  have bounded : Bounded stream := by
    intro packet member
    rw [List.eq_of_mem_replicate member]
    decide
  have size : stream.length = 2 ^ 64 := List.length_replicate
  have zeroed : groupEntry ∅ ({} : SockaddrInet).sinAddr = {} := by decide
  refine ⟨?_, bounded, ?_⟩
  · intro empty
    rw [empty] at size
    simp at size
  · have entry := groupEntry_afterStream zeroed stream
    have tracks := afterStream_tracks stream bounded
    rw [show (0 : UInt32) = ({} : SockaddrInet).sinAddr from rfl, entry, tracks.packets, size]
    decide

/-- Each duplicate or pre-start packet hides at most one missing number, and
the reported loss covers the real one exactly for the settled streams. -/
theorem groupStatsUpdate_masked_loss
    (zeroed : groupEntry stats addr.sinAddr = {}) (bounded : Bounded stream) :
    let gmc := groupEntry (receiveStream stats addr stream) addr.sinAddr
    (missing (seqsOf stream)).card ≤ gmc.rxDropped.toNat + strays (seqsOf stream) ∧
      (stream.length < 2 ^ 64 →
        ((missing (seqsOf stream)).card ≤ gmc.rxDropped.toNat ↔ Settled (seqsOf stream))) := by
  simp only [groupEntry_afterStream zeroed]
  have below := afterStream_rxDropped_le_missing stream bounded
  constructor
  · rcases Nat.lt_or_ge stream.length (2 ^ 64) with short | long
    · rw [afterStream_rxDropped stream bounded short]
      exact missing_le_reported_add_strays (seqsOf stream)
    · -- more packets than numbers: the strays alone outnumber the missing ones
      have balance := length_add_missing (seqsOf stream)
      have limit := bounded.next_le
      rw [seqsOf_length] at balance
      omega
  · intro short
    rw [← reported_eq_missing_iff, ← afterStream_rxDropped stream bounded short]
    omega

theorem groupStatsUpdate_masked_loss_duplicate :
    let stream : List Packet := [0, 3, 3].map fun seq => ⟨100, { seq := seq }⟩
    (missing (seqsOf stream)).card ≤
      (groupEntry (receiveStream ∅ {} stream) 0).rxDropped.toNat + strays (seqsOf stream) :=
  (@groupStatsUpdate_masked_loss ∅ {} _ (by decide) (by decide)).1

/-- Number 1 is lost for good; the second copy of number 2 clears the report. -/
theorem groupStatsUpdate_duplicate_masks_loss :
    let stream : List Packet := [0, 2, 2].map fun seq => ⟨100, { seq := seq }⟩
    Bounded stream ∧ (missing (seqsOf stream)).card = 1 ∧
      (groupEntry (receiveStream ∅ {} stream) 0).rxDropped.toNat = 0 := by
  decide

end RioClient
