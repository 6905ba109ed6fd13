import Mathlib.Data.List.Basic
import RioClient.NetworkCore

/-!
The data shared by the two session types of `RioSession.hpp`: protocol header,
group statistics, timing, buffer descriptors, and the stop decision.
-/

namespace RioClient

def expectedDataSize : UInt32 := 100
def maxPendingRecvs : UInt32 := 1500000
def maxRioResults : Nat := 1000

/-- `sizeof(SOCKADDR_INET)`, the size of its IPv6 member. -/
def addrSize : UInt32 := 28

structure Args where
  command : Text
  mcastAddrStr : List Ipv4Addr
  mcastPort : UInt16
  ifIndex : Text
  pktsToCount : UInt64
  packetRate : Int32
  secondsToRun : Int32

structure ProtocolHeader where
  token : UInt16 := 0
  cmdType : UInt8 := 0
  tag : UInt8 := 0
  seq : UInt64 := 0
  timestamp : UInt64 := 0
deriving DecidableEq, Repr

structure SockaddrInet where
  sinFamily : UInt16 := 0
  sinPort : UInt16 := 0
  sinAddr : UInt32 := 0
deriving DecidableEq, Repr

structure McGroupStats where
  packets : UInt64 := 0
  bytes : UInt64 := 0
  sequence : UInt64 := 0
  expectedSequence : UInt64 := 0
  outOfOrder : UInt64 := 0
  rxDropped : UInt64 := 0
deriving DecidableEq, Repr

/-- `McGroupStatsMap`, keyed by the group address in network order. -/
abbrev McGroupStatsMap := Std.TreeMap UInt32 McGroupStats

/-- `insert` keeps an entry that is already there. -/
def initGroupStats (mcastGroupAddr : List Ipv4Addr) : McGroupStatsMap :=
  mcastGroupAddr.foldl (fun stats mcAddr => stats.insertIfNew mcAddr.ipNetOrder {}) ∅

inductive BufferId
  | rioBuff
  | mcAddrBuff
deriving DecidableEq, Repr

structure RioBuf where
  bufferId : BufferId
  offset : UInt32
  length : UInt32
deriving DecidableEq, Repr

/-- The descriptor loop shared by `InitMcAddrDescriptors` and `PostFirstRecvs`:
consecutive windows of one length, the offset accumulated in 32 bits. -/
def fillDescriptors (bufferId : BufferId) (length : UInt32) : Nat → UInt32 → List RioBuf
  | 0, _ => []
  | count + 1, offset =>
      ⟨bufferId, offset, length⟩ :: fillDescriptors bufferId length count (offset + length)

def offsetOf (descriptors : List RioBuf) (index : Nat) : UInt32 :=
  (descriptors[index]?.map RioBuf.offset).getD 0

theorem length_fillDescriptors (bufferId : BufferId) (length : UInt32) (count : Nat)
    (offset : UInt32) : (fillDescriptors bufferId length count offset).length = count := by
  induction count generalizing offset with
  | zero => rfl
  | succ count ih => rw [fillDescriptors, List.length_cons, ih]

theorem getElem?_fillDescriptors {bufferId : BufferId} {length offset : UInt32}
    {count index : Nat} (bound : index < count) :
    (fillDescriptors bufferId length count offset)[index]? =
      some ⟨bufferId, offset + UInt32.ofNat index * length, length⟩ := by
  induction count generalizing index offset with
  | zero => omega
  | succ count ih =>
      cases index with
      | zero => simp [fillDescriptors]
      | succ index =>
          rw [fillDescriptors, List.getElem?_cons_succ, ih (Nat.lt_of_succ_lt_succ bound),
            UInt32.ofNat_add, UInt32.add_mul, UInt32.add_assoc, UInt32.add_comm length]
          simp

theorem offsetOf_fillDescriptors {bufferId : BufferId} {length offset : UInt32}
    {count index : Nat} (bound : index < count) :
    offsetOf (fillDescriptors bufferId length count offset) index =
      offset + UInt32.ofNat index * length := by
  rw [offsetOf, getElem?_fillDescriptors bound]
  rfl

theorem toNat_ofNat_mul {index : Nat} {length : UInt32} (fits : index * length.toNat < 2 ^ 32) :
    (UInt32.ofNat index * length).toNat = index * length.toNat := by
  rw [UInt32.toNat_mul, UInt32.toNat_ofNat', Nat.mod_mul_mod, Nat.mod_eq_of_lt fits]

theorem offsetOf_injective {bufferId : BufferId} {length : UInt32} {count first second : Nat}
    (positive : 0 < length.toNat) (fits : count * length.toNat ≤ 2 ^ 32)
    (firstBound : first < count) (secondBound : second < count)
    (same : offsetOf (fillDescriptors bufferId length count 0) first =
      offsetOf (fillDescriptors bufferId length count 0) second) : first = second := by
  have below (index : Nat) (bound : index < count) : index * length.toNat < 2 ^ 32 :=
    Nat.lt_of_lt_of_le (Nat.mul_lt_mul_of_pos_right bound positive) fits
  rw [offsetOf_fillDescriptors firstBound, offsetOf_fillDescriptors secondBound,
    UInt32.zero_add, UInt32.zero_add] at same
  have products := congrArg UInt32.toNat same
  rw [toNat_ofNat_mul (below first firstBound), toNat_ofNat_mul (below second secondBound)]
    at products
  exact Nat.eq_of_mul_eq_mul_right positive products

/-- `Timing_s`; steady-clock readings in nanoseconds. -/
structure Timing where
  startTime : Int := 0
  stopTime : Int := 0
deriving DecidableEq, Repr

namespace Timing

def setStart (timing : Timing) (now : Int) : Timing := { timing with startTime := now }

def setStop (timing : Timing) (now : Int) : Timing := { timing with stopTime := now }

def getElapsedTimeSec (timing : Timing) : UInt64 :=
  UInt64.ofInt ((timing.stopTime - timing.startTime).tdiv 1000000000)

end Timing

/-- `ShouldStop`, which is true while the session goes on. The comparison with
`SecondsToRun` converts the `int` to 64 unsigned bits, and the stop time is
stored on the way. -/
def shouldStop (args : Args) (exitSignal : Bool) (now : Int) (totalPkts : UInt32)
    (timing : Timing) : Bool × Timing :=
  let sigExit := !exitSignal
  let pktsTreshold :=
    if args.pktsToCount = 0 then true else decide (totalPkts.toUInt64 < args.pktsToCount)
  let timing := timing.setStop now
  let timeTreshold :=
    if args.secondsToRun = 0 then true
    else decide (timing.getElapsedTimeSec < args.secondsToRun.toInt64.toUInt64)
  (sigExit && pktsTreshold && timeTreshold, timing)

end RioClient
