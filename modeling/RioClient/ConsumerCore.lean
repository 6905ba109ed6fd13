import Mathlib.Logic.Function.Basic
import RioClient.CompletionQueue
import RioClient.GroupStatsCore

/-!
`RioConsumer::Start` as a state machine: one event for every call of its loop,
and one for a datagram that completes a posted receive, which may fall between
any two of them. RIO completes receives in the order in which they were posted.
-/

namespace RioClient

structure Datagram where
  bytesTransferred : UInt32
  destination : SockaddrInet
  header : ProtocolHeader
deriving DecidableEq, Repr

/-- A posted receive: the index of its data descriptor, which is also its
request context, and the index of its address descriptor. -/
structure Receive where
  descriptor : Nat
  slot : Nat
deriving DecidableEq, Repr

structure Completion where
  receive : Receive
  datagram : Datagram
deriving DecidableEq, Repr

/-- One call of `GroupStatsUpdate` from the loop: the address slot it was
directed at, what was read there and in the data buffer, and the completion handled. -/
structure Credit where
  slot : Nat
  mcastAddr : SockaddrInet
  pHeader : ProtocolHeader
  completion : Completion
deriving DecidableEq, Repr

/-- The next call of the loop. `notifyFailed` is the exit on a failed `RIONotify`. -/
inductive ConsumerControl
  | loopHead
  | notify
  | wait
  | dequeue
  | handling (results : List Completion)
  | stopped
  | notifyFailed
deriving DecidableEq, Repr

inductive ConsumerEvent
  | datagram (datagram : Datagram)
  | shouldStop (exitSignal : Bool) (now : Int)
  | notify
  | completionStatus (dequeued : Bool)
  | dequeue (count : Nat) (now : Int)
  | corruptQueue
  | handle
deriving DecidableEq, Repr

/-- The locals of `Start`, the members and buffers it uses, and what RIO holds.
`handled` and `credits` record the completions handled and the updates made so far. -/
structure Consumer where
  control : ConsumerControl := .loopHead
  packetCounter : UInt64 := 0
  otherPacketCounter : UInt64 := 0
  mcAddrDescrIndex : UInt32 := 0
  shouldNotify : Bool := true
  totalPkts : UInt32 := 0
  timing : Timing := {}
  groupStats : McGroupStatsMap := ∅
  rioBuff : UInt32 → ProtocolHeader := fun _ => {}
  mcAddrBuff : UInt32 → SockaddrInet := fun _ => {}
  posted : List Receive := []
  completions : CompletionQueue Completion := .empty
  handled : List Completion := []
  credits : List Credit := []

def mcAddrDescr (maxOutstandingReceive : UInt32) : List RioBuf :=
  fillDescriptors .mcAddrBuff addrSize maxOutstandingReceive.toNat 0

def rioBuffDescr (maxOutstandingReceive : UInt32) : List RioBuf :=
  fillDescriptors .rioBuff expectedDataSize maxOutstandingReceive.toNat 0

def postFirstRecvs (totalMessages : UInt32) : List Receive :=
  (List.range' 0 totalMessages.toNat).map fun i => ⟨i, i⟩

def Consumer.start (args : Args) (maxOutstandingReceive : UInt32) (now : Int) : Consumer where
  timing := Timing.setStart {} now
  groupStats := initGroupStats args.mcastAddrStr
  posted := postFirstRecvs maxOutstandingReceive

namespace Consumer

/-- RIO completes the oldest posted receive: it fills both windows of that
receive and queues the result. -/
def receiveDatagram (maxOutstandingReceive : UInt32) (datagram : Datagram) (c : Consumer) :
    Option Consumer :=
  match c.posted with
  | [] => none
  | receive :: posted =>
      some { c with
        posted
        rioBuff := Function.update c.rioBuff
          (offsetOf (rioBuffDescr maxOutstandingReceive) receive.descriptor) datagram.header
        mcAddrBuff := Function.update c.mcAddrBuff
          (offsetOf (mcAddrDescr maxOutstandingReceive) receive.slot) datagram.destination
        completions := c.completions.push ⟨receive, datagram⟩ }

def checkStop (args : Args) (exitSignal : Bool) (now : Int) (c : Consumer) : Option Consumer :=
  match c.control with
  | .loopHead =>
      let (goOn, timing) := shouldStop args exitSignal now c.totalPkts c.timing
      some { c with control := if goOn then .notify else .stopped, timing }
  | _ => none

def notifyCompletionQueue (c : Consumer) : Option Consumer :=
  match c.control with
  | .notify =>
      if c.shouldNotify then
        match c.completions.notify with
        | some completions => some { c with control := .wait, completions }
        | none => some { c with control := .notifyFailed }
      else some { c with control := .wait }
  | _ => none

/-- `GetQueuedCompletionStatus` with 100 ms: it takes a packet from the port, or
times out while the port is empty. -/
def getQueuedCompletionStatus (dequeued : Bool) (c : Consumer) : Option Consumer :=
  match c.control with
  | .wait =>
      if dequeued then
        c.completions.takePacket.map fun completions =>
          { c with control := .dequeue, completions }
      else if c.completions.portPackets = 0 then
        some { c with control := .dequeue, shouldNotify := false }
      else none
  | _ => none

/-- `RIODequeueCompletion` returning `count` results, up to the loop over them.
The start time is overwritten on the first packets. -/
def dequeueCompletion (count : Nat) (now : Int) (c : Consumer) : Option Consumer :=
  match c.control with
  | .dequeue =>
      if c.completions.Dequeues maxRioResults count then
        if count = 0 then some { c with control := .loopHead }
        else
          some { c with
            control := .handling (c.completions.entries.take count)
            completions := c.completions.dequeued count
            timing := if c.totalPkts = 0 then c.timing.setStart now else c.timing }
      else none
  | _ => none

/-- `RIODequeueCompletion` returning `RIO_CORRUPT_CQ`, on which the loop continues. -/
def dequeueCorrupt (c : Consumer) : Option Consumer :=
  match c.control with
  | .dequeue => some { c with control := .loopHead }
  | _ => none

def handleCompletion (maxOutstandingReceive : UInt32) (result : Completion) (c : Consumer) :
    Consumer :=
  let c := { c with totalPkts := c.totalPkts + 1, handled := c.handled ++ [result] }
  if result.datagram.bytesTransferred = expectedDataSize then
    let nextAddr := (c.mcAddrDescrIndex % maxOutstandingReceive).toNat
    let mcastAddr := c.mcAddrBuff (offsetOf (mcAddrDescr maxOutstandingReceive) nextAddr)
    let pHeader :=
      c.rioBuff (offsetOf (rioBuffDescr maxOutstandingReceive) result.receive.descriptor)
    { c with
      packetCounter := c.packetCounter + 1
      groupStats := groupStatsUpdate c.groupStats mcastAddr expectedDataSize.toUInt64 pHeader
      posted := c.posted ++ [⟨result.receive.descriptor, nextAddr⟩]
      mcAddrDescrIndex := c.mcAddrDescrIndex + 1
      credits := c.credits ++ [⟨nextAddr, mcastAddr, pHeader, result⟩] }
  else
    { c with otherPacketCounter := c.otherPacketCounter + 1 }

def handleNext (maxOutstandingReceive : UInt32) (c : Consumer) : Option Consumer :=
  match c.control with
  | .handling (result :: rest) =>
      let next := c.handleCompletion maxOutstandingReceive result
      some (if rest.isEmpty then { next with control := .loopHead, shouldNotify := true }
        else { next with control := .handling rest })
  | _ => none

def step (args : Args) (maxOutstandingReceive : UInt32) (c : Consumer) :
    ConsumerEvent → Option Consumer
  | .datagram datagram => c.receiveDatagram maxOutstandingReceive datagram
  | .shouldStop exitSignal now => c.checkStop args exitSignal now
  | .notify => c.notifyCompletionQueue
  | .completionStatus dequeued => c.getQueuedCompletionStatus dequeued
  | .dequeue count now => c.dequeueCompletion count now
  | .corruptQueue => c.dequeueCorrupt
  | .handle => c.handleNext maxOutstandingReceive

def results (c : Consumer) : List Completion :=
  match c.control with
  | .handling results => results
  | _ => []

def completed (c : Consumer) : List Completion := c.results ++ c.completions.entries

def outstanding (c : Consumer) : Nat := c.posted.length + c.completions.entries.length

end Consumer

def Datagram.expected (datagram : Datagram) : Bool := datagram.bytesTransferred = expectedDataSize

def Completion.expected (completion : Completion) : Bool := completion.datagram.expected

end RioClient
