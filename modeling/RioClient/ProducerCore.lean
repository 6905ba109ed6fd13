import Mathlib.Logic.Function.Basic
import RioClient.CompletionQueue
import RioClient.SessionCore

/-!
`RioProducer::Start` as a state machine: one event for every call of its loop,
and one for RIO completing a posted send, in any order. Spinning only takes
time and is left out.
-/

namespace RioClient

/-- Arguments a producer can run with: `Check` bounds the rate, and there is a group. -/
structure ProducerArgs extends Args where
  rate_pos : 1 ≤ packetRate.toInt
  groups_pos : 0 < mcastAddrStr.length
  limit : packetRate.toInt * mcastAddrStr.length ≤ 1000000

namespace ProducerArgs

def rate (args : ProducerArgs) : Nat := args.packetRate.toInt.toNat

def numberOfMcGroups (args : ProducerArgs) : Nat := args.mcastAddrStr.length

def maxOutstandingSend (args : ProducerArgs) : Nat := args.rate * args.numberOfMcGroups

/-- The descriptors filled by `PostFirstSend`: number `N * i + j` is the window of packet `i`. -/
def rioBuffDescr (args : ProducerArgs) : List RioBuf :=
  (fillDescriptors .rioBuff expectedDataSize args.rate 0).flatMap
    (List.replicate args.numberOfMcGroups)

def mcAddrDescr (args : ProducerArgs) : List RioBuf :=
  fillDescriptors .mcAddrBuff addrSize args.numberOfMcGroups 0

end ProducerArgs

/-- A posted send: the index of its data descriptor, which is also its request
context, the index of its address descriptor, and the `Seq` its packet had then. -/
structure Send where
  descriptor : Nat
  address : Nat
  seq : UInt64
deriving DecidableEq, Repr

/-- The next call of the loop; in `handling` the index `i` and the results from
there on. The last two are the exits of `NotifyCompletionQueue` and of an empty dequeue. -/
inductive ProducerControl
  | loopHead
  | notify
  | wait
  | dequeue
  | handling (i : Nat) (results : List Send)
  | stopped
  | notifyFailed
  | dequeueFailed
deriving DecidableEq, Repr

inductive ProducerEvent
  | complete (k : Nat)
  | shouldStop (exitSignal : Bool) (now : Int)
  | notify
  | completionStatus
  | dequeue (count : Nat)
  | corruptQueue
  | handle (now : UInt64)
deriving DecidableEq, Repr

/-- The locals of `Start`, the members and buffers it uses, and what RIO holds.
`sent` records all sends posted so far, and `batches` the sizes of the dequeued
batches whose handling has begun. -/
structure Producer where
  control : ProducerControl := .loopHead
  sequenceNumber : UInt64 := 0
  groupCounter : Nat := 0
  totalPkts : UInt32 := 0
  timing : Timing := {}
  groupStats : McGroupStatsMap := ∅
  rioBuff : UInt32 → ProtocolHeader := fun _ => {}
  mcAddrBuff : UInt32 → SockaddrInet := fun _ => {}
  posted : List Send := []
  completions : CompletionQueue Send := .empty
  sent : List Send := []
  batches : List Nat := []

/-- The body of `RioProducer::GroupStatsUpdate` on the group's entry; the
sequence is behind by 1. -/
def McGroupStats.updateSent (gmc : McGroupStats) (pktSize : UInt64) : McGroupStats :=
  { gmc with
    sequence := gmc.packets
    packets := gmc.packets + 1
    bytes := gmc.bytes + pktSize }

def groupStatsSent (stats : McGroupStatsMap) (addr : SockaddrInet) (pktSize : UInt64) :
    McGroupStatsMap :=
  let mcGroup := addr.sinAddr
  stats.alter mcGroup fun entry => some ((entry.getD {}).updateSent pktSize)

def fillPackets (clock : Nat → UInt64) :
    Nat → Nat → UInt32 → (UInt32 → ProtocolHeader) → UInt32 → ProtocolHeader
  | 0, _, _, rioBuff => rioBuff
  | count + 1, i, offset, rioBuff =>
      fillPackets clock count (i + 1) (offset + expectedDataSize)
        (Function.update rioBuff offset
          { rioBuff offset with
            token := 490
            cmdType := 0
            seq := UInt64.ofNat i
            timestamp := clock i })

namespace Producer

def send (args : ProducerArgs) (descriptor address : Nat) (p : Producer) : Producer :=
  let pHeader := p.rioBuff (offsetOf args.rioBuffDescr descriptor)
  let mcAddr := p.mcAddrBuff (offsetOf args.mcAddrDescr address)
  { p with
    posted := p.posted ++ [⟨descriptor, address, pHeader.seq⟩]
    sent := p.sent ++ [⟨descriptor, address, pHeader.seq⟩]
    groupStats := groupStatsSent p.groupStats mcAddr expectedDataSize.toUInt64
    totalPkts := p.totalPkts + 1 }

def postFirstSend (args : ProducerArgs) (clock : Nat → UInt64) (p : Producer) : Producer :=
  let p := { p with rioBuff := fillPackets clock args.rate 0 0 p.rioBuff }
  let p := (List.range args.maxOutstandingSend).foldl
    (fun p i => p.send args i (i % args.numberOfMcGroups)) p
  { p with sequenceNumber := UInt64.ofNat args.rate }

/-- The state in which `Start` enters its loop, on an address buffer filled by
`InitMcAddrDescriptors`. -/
def start (args : ProducerArgs) (mcAddrBuff : UInt32 → SockaddrInet) (clock : Nat → UInt64)
    (now : Int) : Producer :=
  postFirstSend args clock
    { timing := Timing.setStart {} now
      groupStats := initGroupStats args.mcastAddrStr
      mcAddrBuff }

def completeSend (k : Nat) (p : Producer) : Option Producer :=
  p.posted[k]?.map fun send =>
    { p with posted := p.posted.eraseIdx k, completions := p.completions.push send }

def checkStop (args : ProducerArgs) (exitSignal : Bool) (now : Int) (p : Producer) :
    Option Producer :=
  match p.control with
  | .loopHead =>
      let (goOn, timing) := shouldStop args.toArgs exitSignal now p.totalPkts p.timing
      some { p with control := if goOn then .notify else .stopped, timing }
  | _ => none

def notifyCompletionQueue (p : Producer) : Option Producer :=
  match p.control with
  | .notify =>
      match p.completions.notify with
      | some completions => some { p with control := .wait, completions }
      | none => some { p with control := .notifyFailed }
  | _ => none

/-- `GetQueuedCompletionStatus` without a time limit: it returns with a packet from the port. -/
def getQueuedCompletionStatus (p : Producer) : Option Producer :=
  match p.control with
  | .wait => p.completions.takePacket.map fun completions =>
      { p with control := .dequeue, completions }
  | _ => none

def dequeueCompletion (args : ProducerArgs) (count : Nat) (p : Producer) : Option Producer :=
  match p.control with
  | .dequeue =>
      if p.completions.Dequeues args.maxOutstandingSend count then
        if count = 0 then some { p with control := .dequeueFailed }
        else
          some { p with
            control := .handling 0 (p.completions.entries.take count)
            completions := p.completions.dequeued count }
      else none
  | _ => none

def dequeueCorrupt (p : Producer) : Option Producer :=
  match p.control with
  | .dequeue => some { p with control := .dequeueFailed }
  | _ => none

/-- The body of the loop over the results: stamp the packet, send it to the
group the batch-local index names, and advance the group counter. -/
def handleCompletion (args : ProducerArgs) (now : UInt64) (i : Nat) (result : Send)
    (p : Producer) : Producer :=
  let offset := offsetOf args.rioBuffDescr result.descriptor
  let pHeader := { p.rioBuff offset with seq := p.sequenceNumber, timestamp := now }
  let p := { p with rioBuff := Function.update p.rioBuff offset pHeader }
  let p := p.send args result.descriptor (i % args.numberOfMcGroups)
  let groupCounter := (p.groupCounter + 1) % args.numberOfMcGroups
  { p with
    groupCounter
    sequenceNumber := if groupCounter = 0 then p.sequenceNumber + 1 else p.sequenceNumber }

def handleNext (args : ProducerArgs) (now : UInt64) (p : Producer) : Option Producer :=
  match p.control with
  | .handling i (result :: rest) =>
      some { p.handleCompletion args now i result with
        control := if rest.isEmpty then .loopHead else .handling (i + 1) rest
        batches := if i = 0 then p.batches ++ [rest.length + 1] else p.batches }
  | _ => none

def step (args : ProducerArgs) (p : Producer) : ProducerEvent → Option Producer
  | .complete k => p.completeSend k
  | .shouldStop exitSignal now => p.checkStop args exitSignal now
  | .notify => p.notifyCompletionQueue
  | .completionStatus => p.getQueuedCompletionStatus
  | .dequeue count => p.dequeueCompletion args count
  | .corruptQueue => p.dequeueCorrupt
  | .handle now => p.handleNext args now

/-- Sends posted and not dequeued: RIO may read their packets at any time. -/
def inFlight (p : Producer) : List Send := p.completions.entries ++ p.posted

end Producer

end RioClient
