import RioClient.BufferCore
import RioClient.ProducerCore
import RioClient.WireFormat

/-!
The producer with its two registered buffers as bytes: `InitMcAddrDescriptors`
and `PostFirstSend` fill them member by member, the loop stamps packets through
a cast pointer, and RIO sends the bytes that the descriptors name.
-/

namespace RioClient

open FlatMemory ByteFields

def afInet : UInt16 := 2

/-- The loop of `RioProducer::InitMcAddrDescriptors` over the address buffer. -/
def initMcAddrDescriptors (winsock : Winsock) (mcastPort : UInt16) :
    List Ipv4Addr → UInt32 → Memory UInt8 → Except ErrorExit (Memory UInt8)
  | [], _, buffer => .ok buffer
  | mcastAddr :: rest, offset, buffer =>
      let buffer := SockaddrInet.sinFamilyField.store buffer offset.toNat afInet.toNat
      let buffer := SockaddrInet.sinPortField.store buffer offset.toNat (htons mcastPort).toNat
      match winsock.inetPton (cStr (mcastAddr.str winsock)) with
      | none => .error ⟨"Converting Mcast Address".toList⟩
      | some mcAddr =>
          initMcAddrDescriptors winsock mcastPort rest (offset + addrSize)
            (SockaddrInet.sinAddrField.store buffer offset.toNat mcAddr.toNat)

/-- The packets `PostFirstSend` prepares; `Tag` is left as it is. -/
def fillPacketBytes (clock : Nat → UInt64) :
    Nat → Nat → UInt32 → Memory UInt8 → Memory UInt8
  | 0, _, _, buffer => buffer
  | count + 1, i, offset, buffer =>
      let buffer := ProtocolHeader.tokenField.store buffer offset.toNat 490
      let buffer := ProtocolHeader.cmdTypeField.store buffer offset.toNat 0
      let buffer := ProtocolHeader.seqField.store buffer offset.toNat (UInt64.ofNat i).toNat
      let buffer := ProtocolHeader.timestampField.store buffer offset.toNat (clock i).toNat
      fillPacketBytes clock count (i + 1) (offset + expectedDataSize) buffer

def namedBytes (buffer : Memory UInt8) (descriptors : List RioBuf) (index : Nat) : List UInt8 :=
  match descriptors[index]? with
  | some descriptor => window buffer descriptor.offset.toNat descriptor.length.toNat
  | none => []

/-- A session whose buffers are the two memories, counted from the start of each
buffer; the buffers of `session` itself are not used. `wire` records what each call of
`RIOSendEx` was given, as it stood in the buffers at the call. -/
structure ByteProducer where
  session : Producer
  payload : Memory UInt8
  addresses : Memory UInt8
  wire : List WirePacket := []

namespace ByteProducer

def cast (b : ByteProducer) : Producer :=
  { b.session with
    rioBuff := fun offset => ProtocolHeader.read b.payload offset.toNat
    mcAddrBuff := fun offset => SockaddrInet.read b.addresses offset.toNat }

def send (args : ProducerArgs) (descriptor address : Nat) (b : ByteProducer) : ByteProducer :=
  { b with
    session := b.cast.send args descriptor address
    wire := b.wire ++ [⟨namedBytes b.payload args.rioBuffDescr descriptor,
      namedBytes b.addresses args.mcAddrDescr address⟩] }

def postFirstSend (args : ProducerArgs) (clock : Nat → UInt64) (b : ByteProducer) :
    ByteProducer :=
  let b := { b with payload := fillPacketBytes clock args.rate 0 0 b.payload }
  let b := (List.range args.maxOutstandingSend).foldl
    (fun b i => b.send args i (i % args.numberOfMcGroups)) b
  { b with session := { b.session with sequenceNumber := UInt64.ofNat args.rate } }

def start (args : ProducerArgs) (winsock : Winsock) (clock : Nat → UInt64) (now : Int) :
    Except ErrorExit ByteProducer :=
  match initMcAddrDescriptors winsock args.mcastPort args.mcastAddrStr 0 fun _ => 0 with
  | .error failed => .error failed
  | .ok addresses => .ok (postFirstSend args clock
      { session :=
          { timing := Timing.setStart {} now
            groupStats := initGroupStats args.mcastAddrStr }
        payload := fun _ => 0
        addresses })

def handleCompletion (args : ProducerArgs) (now : UInt64) (i : Nat) (result : Send)
    (b : ByteProducer) : ByteProducer :=
  let pHeader := (offsetOf args.rioBuffDescr result.descriptor).toNat
  let payload := ProtocolHeader.seqField.store b.payload pHeader b.session.sequenceNumber.toNat
  let payload := ProtocolHeader.timestampField.store payload pHeader now.toNat
  let b := { b with payload }.send args result.descriptor (i % args.numberOfMcGroups)
  let groupCounter := (b.session.groupCounter + 1) % args.numberOfMcGroups
  { b with
    session :=
      { b.session with
        groupCounter
        sequenceNumber :=
          if groupCounter = 0 then b.session.sequenceNumber + 1 else b.session.sequenceNumber } }

def handleNext (args : ProducerArgs) (now : UInt64) (b : ByteProducer) : Option ByteProducer :=
  match b.session.control with
  | .handling i (result :: rest) =>
      let b := b.handleCompletion args now i result
      some { b with
        session :=
          { b.session with
            control := if rest.isEmpty then .loopHead else .handling (i + 1) rest
            batches :=
              if i = 0 then b.session.batches ++ [rest.length + 1] else b.session.batches } }
  | _ => none

/-- Only the handling of a completion touches the buffers. -/
def step (args : ProducerArgs) (b : ByteProducer) : ProducerEvent → Option ByteProducer
  | .handle now => b.handleNext args now
  | event => (b.session.step args event).map fun session => { b with session }

end ByteProducer

end RioClient
