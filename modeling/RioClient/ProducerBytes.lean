import RioClient.ProducerBytesCore
import RioClient.ProducerSends

/-!
The byte level refines the producer: stores through the cast pointers do to the
buffers what the updates of whole members do to the records there.
-/

namespace RioClient

open FlatMemory ByteFields ProducerArgs

theorem toNat_packetOffset {packet : Nat} (bound : packet ≤ 1000000) :
    (packetOffset packet).toNat = 100 * packet := by
  have size : expectedDataSize.toNat = 100 := rfl
  rw [packetOffset, toNat_ofNat_mul (by rw [size]; omega), size, Nat.mul_comm]

namespace ProtocolHeader

variable {buffer : Memory UInt8} {position start length : Nat}

theorem read_stamp (buffer : Memory UInt8) (position : Nat) (seq timestamp : UInt64) :
    read (timestampField.store (seqField.store buffer position seq.toNat) position
        timestamp.toNat) position =
      { read buffer position with seq, timestamp } := by
  have seqFits : seq.toNat < 256 ^ seqField.width := seq.toNat_lt
  have timestampFits : timestamp.toNat < 256 ^ timestampField.width := timestamp.toNat_lt
  have behind (field : Field) (apart : timestampField.Apart field) (value : Nat)
      (memory : Memory UInt8) :
      field.load (timestampField.store memory position value) position =
        field.load memory position := Field.load_store_apart apart
  have before (field : Field) (apart : seqField.Apart field) (value : Nat) :
      field.load (seqField.store buffer position value) position =
        field.load buffer position := Field.load_store_apart apart
  simp only [read, Field.load_store timestampFits, behind seqField (by decide),
    behind tokenField (by decide), behind cmdTypeField (by decide), behind tagField (by decide),
    Field.load_store seqFits, before tokenField (by decide), before cmdTypeField (by decide),
    before tagField (by decide), UInt64.ofNat_toNat]

theorem read_prepared (buffer : Memory UInt8) (position : Nat) :
    read (cmdTypeField.store (tokenField.store buffer position 490) position 0) position =
      { read buffer position with token := 490, cmdType := 0 } := by
  have tokenFits : 490 < 256 ^ tokenField.width := by decide
  have cmdTypeFits : 0 < 256 ^ cmdTypeField.width := by decide
  have behind (field : Field) (apart : cmdTypeField.Apart field) (memory : Memory UInt8) :
      field.load (cmdTypeField.store memory position 0) position =
        field.load memory position := Field.load_store_apart apart
  have before (field : Field) (apart : tokenField.Apart field) :
      field.load (tokenField.store buffer position 490) position =
        field.load buffer position := Field.load_store_apart apart
  simp only [read, Field.load_store cmdTypeFits, behind tokenField (by decide),
    behind tagField (by decide), behind seqField (by decide), behind timestampField (by decide),
    Field.load_store tokenFits, before tagField (by decide), before seqField (by decide),
    before timestampField (by decide)]
  rfl

theorem window_stamp_outside (seq timestamp : Nat)
    (outside : start + length ≤ position ∨ position + size ≤ start) :
    window (timestampField.store (seqField.store buffer position seq) position timestamp)
      start length = window buffer start length := by
  rw [Field.window_store_record (by decide) outside, Field.window_store_record (by decide) outside]

theorem window_prepared_outside
    (outside : start + length ≤ position ∨ position + size ≤ start) :
    window (cmdTypeField.store (tokenField.store buffer position 490) position 0)
      start length = window buffer start length := by
  rw [Field.window_store_record (by decide) outside, Field.window_store_record (by decide) outside]

end ProtocolHeader

namespace SockaddrInet

theorem window_stores (buffer : Memory UInt8) (position : Nat) (addr : SockaddrInet) :
    window (sinAddrField.store (sinPortField.store (sinFamilyField.store buffer position
        addr.sinFamily.toNat) position addr.sinPort.toNat) position addr.sinAddr.toNat)
      position size = addr.bytes := by
  have familyFits : addr.sinFamily.toNat < 256 ^ sinFamilyField.width := addr.sinFamily.toNat_lt
  have portFits : addr.sinPort.toNat < 256 ^ sinPortField.width := addr.sinPort.toNat_lt
  have addrFits : addr.sinAddr.toNat < 256 ^ sinAddrField.width := addr.sinAddr.toNat_lt
  have behind (field : Field) (apart : sinAddrField.Apart field) (value : Nat)
      (memory : Memory UInt8) :
      field.load (sinAddrField.store memory position value) position =
        field.load memory position := Field.load_store_apart apart
  have before (memory : Memory UInt8) (value : Nat) :
      sinFamilyField.load (sinPortField.store memory position value) position =
        sinFamilyField.load memory position := Field.load_store_apart (by decide)
  rw [window_eq_bytes]
  simp only [read, Field.load_store addrFits, behind sinPortField (by decide),
    behind sinFamilyField (by decide), Field.load_store portFits, before,
    Field.load_store familyFits, UInt16.ofNat_toNat, UInt32.ofNat_toNat]

theorem window_stores_outside {buffer : Memory UInt8} {position start length : Nat}
    (family port addr : Nat) (outside : start + length ≤ position ∨ position + size ≤ start) :
    window (sinAddrField.store (sinPortField.store (sinFamilyField.store buffer position
        family) position port) position addr) start length = window buffer start length := by
  rw [Field.window_store_record (by decide) outside, Field.window_store_record (by decide) outside,
    Field.window_store_record (by decide) outside]

end SockaddrInet

def HoldsPackets (count : Nat) (rioBuff : UInt32 → ProtocolHeader) (buffer : Memory UInt8) :
    Prop :=
  ∀ packet < count, rioBuff (packetOffset packet) =
    ProtocolHeader.read buffer (packetOffset packet).toNat

theorem HoldsPackets.update {count packet : Nat} {rioBuff : UInt32 → ProtocolHeader}
    {buffer after : Memory UInt8} {header : ProtocolHeader}
    (holds : HoldsPackets count rioBuff buffer) (few : count ≤ 1000000) (inside : packet < count)
    (here : ProtocolHeader.read after (packetOffset packet).toNat = header)
    (elsewhere : ∀ start, start + ProtocolHeader.size ≤ (packetOffset packet).toNat ∨
        (packetOffset packet).toNat + ProtocolHeader.size ≤ start →
      window after start ProtocolHeader.size = window buffer start ProtocolHeader.size) :
    HoldsPackets count (Function.update rioBuff (packetOffset packet) header) after := by
  intro other otherInside
  by_cases same : other = packet
  · subst same
    rw [Function.update_self, here]
  · have apart : packetOffset other ≠ packetOffset packet := fun equal =>
      same (packetOffset_injective (by omega) (by omega) equal)
    have position : (packetOffset packet).toNat = 100 * packet := toNat_packetOffset (by omega)
    have otherPosition : (packetOffset other).toNat = 100 * other := toNat_packetOffset (by omega)
    have size : ProtocolHeader.size = 20 := rfl
    rw [Function.update_of_ne apart, holds other otherInside]
    exact (ProtocolHeader.read_congr (elsewhere _ (by omega))).symm

theorem HoldsPackets.stamp {count packet : Nat} {rioBuff : UInt32 → ProtocolHeader}
    {buffer : Memory UInt8} (holds : HoldsPackets count rioBuff buffer) (few : count ≤ 1000000)
    (inside : packet < count) (seq timestamp : UInt64) :
    HoldsPackets count
      (Function.update rioBuff (packetOffset packet)
        { rioBuff (packetOffset packet) with seq, timestamp })
      (ProtocolHeader.timestampField.store
        (ProtocolHeader.seqField.store buffer (packetOffset packet).toNat seq.toNat)
        (packetOffset packet).toNat timestamp.toNat) := by
  refine holds.update few inside ?_ ?_
  · rw [ProtocolHeader.read_stamp, holds packet inside]
  · intro start outside
    exact ProtocolHeader.window_stamp_outside _ _ outside

theorem HoldsPackets.prepare {count packet : Nat} {rioBuff : UInt32 → ProtocolHeader}
    {buffer : Memory UInt8} (holds : HoldsPackets count rioBuff buffer) (few : count ≤ 1000000)
    (inside : packet < count) :
    HoldsPackets count
      (Function.update rioBuff (packetOffset packet)
        { rioBuff (packetOffset packet) with token := 490, cmdType := 0 })
      (ProtocolHeader.cmdTypeField.store
        (ProtocolHeader.tokenField.store buffer (packetOffset packet).toNat 490)
        (packetOffset packet).toNat 0) := by
  refine holds.update few inside ?_ ?_
  · rw [ProtocolHeader.read_prepared, holds packet inside]
  · intro start outside
    exact ProtocolHeader.window_prepared_outside outside

theorem HoldsPackets.fill {total : Nat} (few : total ≤ 1000000) (clock : Nat → UInt64)
    {count i : Nat} {rioBuff : UInt32 → ProtocolHeader} {buffer : Memory UInt8}
    (bound : i + count ≤ total) (holds : HoldsPackets total rioBuff buffer) :
    HoldsPackets total (fillPackets clock count i (packetOffset i) rioBuff)
      (fillPacketBytes clock count i (packetOffset i) buffer) := by
  induction count generalizing i rioBuff buffer with
  | zero => exact holds
  | succ count ih =>
      have inside : i < total := by omega
      have stamped := (holds.prepare few inside).stamp few inside (UInt64.ofNat i) (clock i)
      rw [Function.update_idem, Function.update_self] at stamped
      simp only [fillPackets, fillPacketBytes]
      rw [← packetOffset_succ]
      exact ih (by omega) stamped

end RioClient
