import RioClient.Addresses
import RioClient.ByteFields
import RioClient.SessionCore

/-!
`ProtocolHeader_t` and `SOCKADDR_INET` as the little-endian Windows target lays
them out in memory, and what a pointer cast to them reads.
-/

namespace RioClient

open FlatMemory ByteFields

namespace ProtocolHeader

def tokenField : Field := ⟨0, 2⟩
def cmdTypeField : Field := ⟨2, 1⟩
def tagField : Field := ⟨3, 1⟩
def seqField : Field := ⟨4, 8⟩
def timestampField : Field := ⟨12, 8⟩

/-- `#pragma pack(push, 1)`: no byte lies between two members. -/
def layout : List Field := [tokenField, cmdTypeField, tagField, seqField, timestampField]

def size : Nat := 20

def read (memory : Memory UInt8) (position : Nat) : ProtocolHeader where
  token := UInt16.ofNat (tokenField.load memory position)
  cmdType := UInt8.ofNat (cmdTypeField.load memory position)
  tag := UInt8.ofNat (tagField.load memory position)
  seq := UInt64.ofNat (seqField.load memory position)
  timestamp := UInt64.ofNat (timestampField.load memory position)

def numbers (header : ProtocolHeader) : List (Nat × Nat) :=
  [(2, header.token.toNat), (1, header.cmdType.toNat), (1, header.tag.toNat),
    (8, header.seq.toNat), (8, header.timestamp.toNat)]

def bytes (header : ProtocolHeader) : List UInt8 := packed header.numbers

end ProtocolHeader

namespace SockaddrInet

def sinFamilyField : Field := ⟨0, 2⟩
def sinPortField : Field := ⟨2, 2⟩
def sinAddrField : Field := ⟨4, 4⟩

def layout : List Field := [sinFamilyField, sinPortField, sinAddrField]

/-- The members of `Ipv4` that are used; the structure goes on behind them. -/
def size : Nat := 8

def read (memory : Memory UInt8) (position : Nat) : SockaddrInet where
  sinFamily := UInt16.ofNat (sinFamilyField.load memory position)
  sinPort := UInt16.ofNat (sinPortField.load memory position)
  sinAddr := UInt32.ofNat (sinAddrField.load memory position)

def numbers (addr : SockaddrInet) : List (Nat × Nat) :=
  [(2, addr.sinFamily.toNat), (2, addr.sinPort.toNat), (4, addr.sinAddr.toNat)]

def bytes (addr : SockaddrInet) : List UInt8 := packed addr.numbers

end SockaddrInet

structure WirePacket where
  payload : List UInt8
  address : List UInt8
deriving DecidableEq, Repr

namespace WirePacket

/-- What is read in the bytes where they stand in a memory otherwise blank. -/
def header (packet : WirePacket) : ProtocolHeader :=
  ProtocolHeader.read (overwrite (fun _ => 0) 0 packet.payload) 0

def destination (packet : WirePacket) : SockaddrInet :=
  SockaddrInet.read (overwrite (fun _ => 0) 0 packet.address) 0

def full (packet : WirePacket) : Bool := packet.payload.length = expectedDataSize.toNat

end WirePacket

/-- Host to network order: on a little-endian host the two bytes are swapped. -/
def htons (value : UInt16) : UInt16 :=
  UInt16.ofNat (value.toNat % 256 * 256 + value.toNat / 256)

namespace ProtocolHeader

theorem layout_packed : Consecutive 0 layout ∧ (layout.map Field.width).sum = size := by decide

theorem numbers_fit (header : ProtocolHeader) :
    ∀ number ∈ header.numbers, number.2 < 256 ^ number.1 := by
  have token := header.token.toNat_lt
  have cmdType := header.cmdType.toNat_lt
  have tag := header.tag.toNat_lt
  have seq := header.seq.toNat_lt
  have timestamp := header.timestamp.toNat_lt
  simp only [numbers, List.forall_mem_cons, Nat.reducePow]
  simp only [Nat.reducePow] at *
  exact ⟨token, cmdType, tag, seq, timestamp, fun _ member => nomatch member⟩

theorem bytes_injective : Function.Injective bytes := by
  intro first second same
  have numbers := eq_of_packed (by rfl) first.numbers_fit second.numbers_fit same
  simp only [ProtocolHeader.numbers, List.cons.injEq, Prod.mk.injEq, true_and, and_true,
    UInt16.toNat_inj, UInt8.toNat_inj, UInt64.toNat_inj] at numbers
  obtain ⟨token, cmdType, tag, seq, timestamp⟩ := numbers
  cases first
  cases second
  simp only at token cmdType tag seq timestamp
  subst token cmdType tag seq timestamp
  rfl

theorem window_eq_bytes (memory : Memory UInt8) (position : Nat) :
    window memory position size = (read memory position).bytes := by
  have token := tokenField.load_lt memory position
  have cmdType := cmdTypeField.load_lt memory position
  have tag := tagField.load_lt memory position
  have seq := seqField.load_lt memory position
  have timestamp := timestampField.load_lt memory position
  have listed := window_eq_packed memory position layout_packed.1
  rw [layout_packed.2, Nat.add_zero] at listed
  rw [listed, bytes]
  simp only [layout, numbers, read, List.map_cons, List.map_nil]
  rw [UInt16.toNat_ofNat_of_lt' token, UInt8.toNat_ofNat_of_lt' cmdType,
    UInt8.toNat_ofNat_of_lt' tag, UInt64.toNat_ofNat_of_lt' seq,
    UInt64.toNat_ofNat_of_lt' timestamp]
  rfl

theorem read_of_window {memory : Memory UInt8} {position : Nat} {header : ProtocolHeader}
    (bytes : window memory position size = header.bytes) : read memory position = header :=
  bytes_injective ((window_eq_bytes memory position).symm.trans bytes)

theorem read_congr {first second : Memory UInt8} {position other : Nat}
    (same : window first position size = window second other size) :
    read first position = read second other :=
  read_of_window (same.trans (window_eq_bytes second other))

theorem read_zeroes (position : Nat) : read (fun _ => 0) position = {} := by
  apply read_of_window
  rw [window_const]
  rfl

end ProtocolHeader

namespace SockaddrInet

theorem layout_packed : Consecutive 0 layout ∧ (layout.map Field.width).sum = size := by decide

theorem numbers_fit (addr : SockaddrInet) :
    ∀ number ∈ addr.numbers, number.2 < 256 ^ number.1 := by
  have family := addr.sinFamily.toNat_lt
  have port := addr.sinPort.toNat_lt
  have host := addr.sinAddr.toNat_lt
  simp only [numbers, List.forall_mem_cons, Nat.reducePow]
  simp only [Nat.reducePow] at *
  exact ⟨family, port, host, fun _ member => nomatch member⟩

theorem bytes_injective : Function.Injective bytes := by
  intro first second same
  have numbers := eq_of_packed (by rfl) first.numbers_fit second.numbers_fit same
  simp only [SockaddrInet.numbers, List.cons.injEq, Prod.mk.injEq, true_and, and_true,
    UInt16.toNat_inj, UInt32.toNat_inj] at numbers
  obtain ⟨family, port, host⟩ := numbers
  cases first
  cases second
  simp only at family port host
  subst family port host
  rfl

theorem window_eq_bytes (memory : Memory UInt8) (position : Nat) :
    window memory position size = (read memory position).bytes := by
  have family := sinFamilyField.load_lt memory position
  have port := sinPortField.load_lt memory position
  have host := sinAddrField.load_lt memory position
  have listed := window_eq_packed memory position layout_packed.1
  rw [layout_packed.2, Nat.add_zero] at listed
  rw [listed, bytes]
  simp only [layout, numbers, read, List.map_cons, List.map_nil]
  rw [UInt16.toNat_ofNat_of_lt' family, UInt16.toNat_ofNat_of_lt' port,
    UInt32.toNat_ofNat_of_lt' host]
  rfl

theorem read_of_window {memory : Memory UInt8} {position : Nat} {addr : SockaddrInet}
    (bytes : window memory position size = addr.bytes) : read memory position = addr :=
  bytes_injective ((window_eq_bytes memory position).symm.trans bytes)

theorem read_congr {first second : Memory UInt8} {position other : Nat}
    (same : window first position size = window second other size) :
    read first position = read second other :=
  read_of_window (same.trans (window_eq_bytes second other))

theorem read_zeroes (position : Nat) : read (fun _ => 0) position = {} := by
  apply read_of_window
  rw [window_const]
  rfl

/-- The port goes out with its high byte first. -/
theorem littleEndian_htons (port : UInt16) :
    littleEndian 2 (htons port).toNat =
      [UInt8.ofNat (port.toNat / 256), UInt8.ofNat port.toNat] := by
  have bound := port.toNat_lt
  have swapped : (htons port).toNat = port.toNat % 256 * 256 + port.toNat / 256 := by
    refine UInt16.toNat_ofNat_of_lt' ?_
    rw [show UInt16.size = 65536 from rfl]
    omega
  have high : port.toNat / 256 < 256 := by omega
  have first : (port.toNat % 256 * 256 + port.toNat / 256) % 256 = port.toNat / 256 := by omega
  have second : (port.toNat % 256 * 256 + port.toNat / 256) / 256 = port.toNat % 256 := by omega
  rw [swapped]
  simp only [littleEndian, List.cons.injEq, ← UInt8.toNat_inj, UInt8.toNat_ofNat', Nat.reducePow,
    first, second, Nat.mod_mod, Nat.mod_eq_of_lt high, and_self]

/-- The address goes out as the four numbers of its dotted notation. -/
theorem littleEndian_ipBe (ipBe : UInt32) :
    littleEndian 4 ipBe.toNat =
      [byteOf (ntohl ipBe) 3, byteOf (ntohl ipBe) 2, byteOf (ntohl ipBe) 1,
        byteOf (ntohl ipBe) 0].map UInt8.ofNat := by
  rw [ntohl, byteOf_htonl _ (by decide), byteOf_htonl _ (by decide), byteOf_htonl _ (by decide),
    byteOf_htonl _ (by decide)]
  simp only [littleEndian, byteOf, List.map_cons, List.map_nil, List.cons.injEq, and_true,
    ← UInt8.toNat_inj, UInt8.toNat_ofNat']
  omega

end SockaddrInet

end RioClient
