import RioClient.AdapterCore
import RioClient.CallPrograms
import RioClient.CommandLineCore
import RioClient.ConsumerCore
import RioClient.ProducerBytesCore

/-!
`main`, the constructors of the two sessions and `CleanUpRIO`, as programs over
the calls they make to Windows. A whole `Start` is one call here: what it does
inside is the state machine of its session.
-/

namespace RioClient

open CallPrograms FlatMemory

abbrev Handle := UInt64

structure WinsockAddresses extends Winsock where
  inetAddr : Text → UInt32

structure RequestLimits where
  maxOutstandingReceive : UInt32
  maxReceiveDataBuffers : UInt32
  maxOutstandingSend : UInt32
  maxSendDataBuffers : UInt32
deriving DecidableEq

/-- A constructed session: `hIOCP` is `none` where the port was not created, and
`rioBuffDescr` is the descriptors as `Start` fills them. -/
structure RioSession where
  args : Args
  socketHandle : Handle
  hIOCP : Option Handle
  limits : RequestLimits
  completionQueue : Handle
  requestQueue : Handle
  rioBuff : RegisteredBuffer
  mcAddrBuff : RegisteredBuffer
  rioBuffDescr : List RioBuf
  mcAddrDescr : List RioBuf

inductive ApiCall
  | wsaStartup
  | setConsoleCtrlHandler
  | wsaSocket
  | createIoCompletionPort
  | bind (socket : Handle) (sinPort : UInt16) (sinAddr : UInt32)
  | setReuseAddr (socket : Handle)
  | addMembership (socket : Handle) (multiaddr interface : UInt32)
  | setMulticastIf (socket : Handle) (interface : UInt32)
  | wsaIoctl (socket : Handle)
  | rioCreateCompletionQueue (size : UInt32) (iocpHandle : Option Handle)
  | rioCreateRequestQueue (socket : Handle) (limits : RequestLimits) (completionQueue : Handle)
  | getLargePageMinimum
  | getSystemInfo
  | virtualAllocExNuma (size : UInt32)
  | rioRegisterBuffer (pointer : Handle) (size : UInt32)
  | start (session : RioSession)
  | closesocket (socket : Handle)
  | rioCloseCompletionQueue (completionQueue : Handle)
  | rioDeregisterBuffer (bufferId : Handle)
  | virtualFreeEx (pointer : Handle)
  | wsaCleanup

/-- Whether the call succeeded, the handle it made, the `int` of `setsockopt`,
and for `Start` the `ErrorExit` it ended the process with. -/
@[reducible] def ApiAnswer : ApiCall → Type
  | .wsaStartup | .bind .. | .wsaIoctl _ | .closesocket _ | .virtualFreeEx _ => Bool
  | .wsaSocket | .createIoCompletionPort | .rioCreateCompletionQueue ..
  | .rioCreateRequestQueue .. | .virtualAllocExNuma _ | .rioRegisterBuffer .. => Option Handle
  | .setReuseAddr _ | .addMembership .. | .setMulticastIf .. => Int32
  | .getLargePageMinimum => UInt64
  | .getSystemInfo => UInt32
  | .start _ => Option ErrorExit
  | .setConsoleCtrlHandler | .rioCloseCompletionQueue _ | .rioDeregisterBuffer _
  | .wsaCleanup => Unit

inductive ProcessEnd
  | errorExit (error : ErrorExit)
  | exited (status : Int32) (output : Text)
  | exitedInLibrary (status : Int32)
  | terminated (thrown : StdException)

abbrev ApiProgram (α : Type) := Program ApiCall ApiAnswer ProcessEnd α

def ask (request : ApiCall) : ApiProgram (ApiAnswer request) := Program.request request

def errorExit {α : Type} (pFunction : String) : ApiProgram α :=
  .stop (.errorExit ⟨pFunction.toList⟩)

def orErrorExit (pFunction : String) (succeeded : Bool) : ApiProgram Unit :=
  if succeeded then pure () else errorExit pFunction

def handleOrErrorExit (pFunction : String) : Option Handle → ApiProgram Handle
  | some handle => pure handle
  | none => errorExit pFunction

namespace RioSession

def createSocket : ApiProgram Handle := do
  let socketHandle ← ask .wsaSocket
  handleOrErrorExit "WSASocket" socketHandle

/-- The constructor of the base class; the completion port is not checked. -/
def construct : ApiProgram (Handle × Option Handle) := do
  let socketHandle ← createSocket
  let hIOCP ← ask .createIoCompletionPort
  return (socketHandle, hIOCP)

def initializeRio (socketHandle : Handle) : ApiProgram Unit := do
  let succeeded ← ask (.wsaIoctl socketHandle)
  orErrorExit "WSAIoctl" succeeded

/-- The address `BindSocket` binds to; an empty text is `INADDR_ANY`. -/
def bindAddress (winsock : Winsock) (bindAddr : Text) : Option UInt32 :=
  if bindAddr.isEmpty then some 0 else winsock.inetPton (cStr bindAddr)

def bindSocket (winsock : Winsock) (socketHandle : Handle) (bindPort : UInt16)
    (bindAddr : Text) : ApiProgram Unit :=
  match bindAddress winsock bindAddr with
  | none => errorExit "Error converting the specified address to bind"
  | some sinAddr => do
      let succeeded ← ask (.bind socketHandle (htons bindPort) sinAddr)
      orErrorExit "Error during socket binding process" succeeded

def createCompletionQueue (hIOCP : Option Handle) (cqSize : UInt32) : ApiProgram Handle := do
  let completionQueue ← ask (.rioCreateCompletionQueue cqSize hIOCP)
  handleOrErrorExit "RIOCreateCompletionQueue" completionQueue

def createRequestQueue (socketHandle : Handle) (limits : RequestLimits)
    (completionQueue : Handle) : ApiProgram Handle := do
  let requestQueue ← ask (.rioCreateRequestQueue socketHandle limits completionQueue)
  handleOrErrorExit "Error creating a RIO Request Queue" requestQueue

def getLargePageMinimum : ApiProgram UInt64 :=
  if largePagesEnabled then ask .getLargePageMinimum else return 0

def allocateBufferSpace (messageSize totalMessages : UInt32) : ApiProgram BufferSpace := do
  let largePageMinimum ← getLargePageMinimum
  let dwAllocationGranularity ← ask .getSystemInfo
  let granularity :=
    if largePageMinimum = 0 then dwAllocationGranularity.toUInt64 else largePageMinimum
  let actualSize := actualSize granularity messageSize totalMessages
  let fitting := (actualSize / messageSize.toUInt64).toUInt32
  let bufferSize := actualSize.toUInt32
  let allocated ← ask (.virtualAllocExNuma bufferSize)
  let pBuffer ← handleOrErrorExit "VirtualAlloc" allocated
  return ⟨pBuffer, bufferSize, if fitting < totalMessages then fitting else totalMessages⟩

def allocateAndRegisterBuffer (messageSize totalMessages : UInt32) :
    ApiProgram RegisteredBuffer := do
  let space ← allocateBufferSpace messageSize totalMessages
  let registered ← ask (.rioRegisterBuffer space.pBuffer space.bufferSize)
  match registered with
  | none => errorExit "RIORegisterBuffer"
  | some bufferId =>
      if space.receiveBuffersAllocated ≠ totalMessages then errorExit "RIORegisterBuffer"
      else return ⟨space.pBuffer, bufferId, space.bufferSize⟩

def closeSocket (socketHandle : Handle) : ApiProgram Unit := do
  let succeeded ← ask (.closesocket socketHandle)
  orErrorExit "Error Closing Socket" succeeded

def releaseAndDeregisterBuffer (buffer : RegisteredBuffer) : ApiProgram Unit := do
  let _ ← ask (.rioDeregisterBuffer buffer.bufferId)
  let succeeded ← ask (.virtualFreeEx buffer.bufferPointer)
  orErrorExit "Error deAllocating the buffer" succeeded

def cleanUpRio (session : RioSession) : ApiProgram Unit := do
  closeSocket session.socketHandle
  let _ ← ask (.rioCloseCompletionQueue session.completionQueue)
  releaseAndDeregisterBuffer session.rioBuff
  releaseAndDeregisterBuffer session.mcAddrBuff

def start (session : RioSession) : ApiProgram Unit := do
  let ended ← ask (.start session)
  match ended with
  | none => return
  | some error => .stop (.errorExit error)

end RioSession

open RioSession

namespace RioConsumer

/-- The result of `SO_REUSEADDR` is not looked at. -/
def joinGroup (socketHandle : Handle) (grpaddr iaddr : UInt32) : ApiProgram Int32 := do
  let _ ← ask (.setReuseAddr socketHandle)
  ask (.addMembership socketHandle grpaddr iaddr)

def joinGroups (winsock : WinsockAddresses) (socketHandle : Handle) (ifIndex : Text)
    (mcastAddrs : List Ipv4Addr) : ApiProgram Unit :=
  forM mcastAddrs fun mcAddr => do
    let r ← joinGroup socketHandle (winsock.inetAddr (cStr (mcAddr.str winsock.toWinsock)))
      (winsock.inetAddr (cStr ifIndex))
    if r < 0 then errorExit "setsockopt" else return

def construct (winsock : WinsockAddresses) (args : Args) : ApiProgram RioSession := do
  let (socketHandle, hIOCP) ← RioSession.construct
  bindSocket winsock.toWinsock socketHandle args.mcastPort args.ifIndex
  joinGroups winsock socketHandle args.ifIndex args.mcastAddrStr
  let limits := ⟨maxPendingRecvs, 1, 0, 1⟩
  initializeRio socketHandle
  let completionQueue ← createCompletionQueue hIOCP limits.maxOutstandingReceive
  let requestQueue ← createRequestQueue socketHandle limits completionQueue
  let rioBuff ← RioSession.allocateAndRegisterBuffer expectedDataSize limits.maxOutstandingReceive
  let mcAddrBuff ← RioSession.allocateAndRegisterBuffer addrSize limits.maxOutstandingReceive
  return {
    args, socketHandle, hIOCP, limits, completionQueue, requestQueue, rioBuff, mcAddrBuff
    rioBuffDescr := rioBuffDescr limits.maxOutstandingReceive
    mcAddrDescr := mcAddrDescr limits.maxOutstandingReceive }

end RioConsumer

namespace RioProducer

def sendOnInterface (winsock : WinsockAddresses) (socketHandle : Handle) (iaddr : Text) :
    ApiProgram Unit := do
  let r ← ask (.setMulticastIf socketHandle (winsock.inetAddr (cStr iaddr)))
  orErrorExit "setsockopt IP_MULTICAST_IF" (decide (r = 0))

def numberOfMcGroups (args : Args) : UInt32 := UInt32.ofNat args.mcastAddrStr.length

def rioBuffDescr (args : Args) : List RioBuf :=
  (fillDescriptors .rioBuff expectedDataSize args.packetRate.toUInt32.toNat 0).flatMap
    (List.replicate (numberOfMcGroups args).toNat)

def construct (winsock : WinsockAddresses) (args : Args) : ApiProgram RioSession := do
  let (socketHandle, hIOCP) ← RioSession.construct
  bindSocket winsock.toWinsock socketHandle 0 args.ifIndex
  let numberOfMcGroups := numberOfMcGroups args
  let limits := ⟨0, 1, args.packetRate.toUInt32 * numberOfMcGroups, 1⟩
  sendOnInterface winsock socketHandle args.ifIndex
  initializeRio socketHandle
  let completionQueue ← createCompletionQueue hIOCP limits.maxOutstandingSend
  let requestQueue ← createRequestQueue socketHandle limits completionQueue
  let rioBuff ← RioSession.allocateAndRegisterBuffer expectedDataSize args.packetRate.toUInt32
  let mcAddrBuff ← RioSession.allocateAndRegisterBuffer addrSize numberOfMcGroups
  match initMcAddrDescriptors winsock.toWinsock args.mcastPort
    (args.mcastAddrStr.take numberOfMcGroups.toNat) 0 fun _ => 0 with
  | .error error => .stop (.errorExit error)
  | .ok _ => return {
      args, socketHandle, hIOCP, limits, completionQueue, requestQueue, rioBuff, mcAddrBuff
      rioBuffDescr := rioBuffDescr args
      mcAddrDescr := fillDescriptors .mcAddrBuff addrSize numberOfMcGroups.toNat 0 }

end RioProducer

def initializeWSA : ApiProgram Unit := do
  let succeeded ← ask .wsaStartup
  orErrorExit "WSAStartup" succeeded
  if largePagesEnabled then errorExit "TODO - USE_LARGE_PAGES" else return

def constructSession (winsock : WinsockAddresses) (args : Args) : ApiProgram RioSession :=
  if args.command = "producer".toList then RioProducer.construct winsock args
  else RioConsumer.construct winsock args

/-- `main` behind the choice of the interface. -/
def runSession (winsock : WinsockAddresses) (args : Args) : ApiProgram Int32 := do
  initializeWSA
  let _ ← ask .setConsoleCtrlHandler
  let session ← constructSession winsock args
  session.start
  session.cleanUpRio
  let _ ← ask .wsaCleanup
  return 0

/-- An exception of `ParseArguments` or `Check` is not caught; one of the adapter
lookups is. -/
def main (argparse : Argparse) (winsock : WinsockAddresses) (adapters : AdapterApi)
    (argv : List Text) : ApiProgram Int32 :=
  match OptionParser.parseArguments argparse winsock.toWinsock argv with
  | .exited status output => .stop (.exited status output)
  | .exitedInLibrary status => .stop (.exitedInLibrary status)
  | .threw thrown => .stop (.terminated thrown)
  | .returned args =>
      match check winsock.toWinsock (some args) with
      | .error thrown => .stop (.terminated thrown)
      | .ok (false, _) => return 1
      | .ok (true, _) =>
          match resolveIfIndex adapters args.ifIndex with
          | .error _ => return -1
          | .ok ifIndex => runSession winsock { args with ifIndex }

end RioClient
