import RioClient.ConsumerCore
import RioClient.WireFormat

/-!
The consumer with its two registered buffers as bytes: RIO writes a datagram's
bytes where the oldest posted receive points, and the handler reads them through
cast pointers.
-/

namespace RioClient

open FlatMemory

inductive ByteConsumerEvent
  | datagram (packet : WirePacket)
  | loop (event : ConsumerEvent)
deriving DecidableEq, Repr

def ByteConsumerEvent.arrival : ByteConsumerEvent → Option WirePacket
  | .datagram packet => some packet
  | .loop _ => none

/-- A session whose buffers are the two memories, counted from the start of each
buffer; the buffers of `session` itself are not used. -/
structure ByteConsumer where
  session : Consumer
  payload : Memory UInt8
  addresses : Memory UInt8

namespace ByteConsumer

def cast (b : ByteConsumer) : Consumer :=
  { b.session with
    rioBuff := fun offset => ProtocolHeader.read b.payload offset.toNat
    mcAddrBuff := fun offset => SockaddrInet.read b.addresses offset.toNat }

/-- The buffers come filled with zeroes from `VirtualAllocExNuma`. -/
def start (args : Args) (maxOutstandingReceive : UInt32) (now : Int) : ByteConsumer where
  session := Consumer.start args maxOutstandingReceive now
  payload := fun _ => 0
  addresses := fun _ => 0

/-- The completion of a receive records what then stands in its two windows. -/
def datagramIn (maxOutstandingReceive : UInt32) (receive : Receive) (bytesTransferred : Nat)
    (payload addresses : Memory UInt8) : Datagram where
  bytesTransferred := UInt32.ofNat bytesTransferred
  destination := SockaddrInet.read addresses
    (offsetOf (mcAddrDescr maxOutstandingReceive) receive.slot).toNat
  header := ProtocolHeader.read payload
    (offsetOf (rioBuffDescr maxOutstandingReceive) receive.descriptor).toNat

def arrived (maxOutstandingReceive : UInt32) (packet : WirePacket) (receive : Receive)
    (posted : List Receive) (b : ByteConsumer) : ByteConsumer :=
  let payload := overwrite b.payload
    (offsetOf (rioBuffDescr maxOutstandingReceive) receive.descriptor).toNat packet.payload
  let addresses := overwrite b.addresses
    (offsetOf (mcAddrDescr maxOutstandingReceive) receive.slot).toNat packet.address
  let datagram := datagramIn maxOutstandingReceive receive packet.payload.length payload addresses
  { session :=
      { b.session with
        posted
        completions := b.session.completions.push ⟨receive, datagram⟩ }
    payload
    addresses }

/-- RIO transfers at most as many bytes as the window of the oldest posted receive holds. -/
def receiveDatagram (maxOutstandingReceive : UInt32) (packet : WirePacket) (b : ByteConsumer) :
    Option ByteConsumer :=
  match b.session.posted with
  | [] => none
  | receive :: posted =>
      if packet.payload.length ≤ expectedDataSize.toNat ∧
          packet.address.length = addrSize.toNat then
        some (b.arrived maxOutstandingReceive packet receive posted)
      else none

def step (args : Args) (maxOutstandingReceive : UInt32) (b : ByteConsumer) :
    ByteConsumerEvent → Option ByteConsumer
  | .datagram packet => b.receiveDatagram maxOutstandingReceive packet
  | .loop (.datagram _) => none
  | .loop event =>
      (b.cast.step args maxOutstandingReceive event).map fun session => { b with session }

end ByteConsumer

end RioClient
