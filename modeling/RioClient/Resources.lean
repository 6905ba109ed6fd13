import RioClient.LifecycleCore

/-!
What the process holds of Windows, and the rules of the calls it makes: which
calls are permitted, what Windows may answer, and what is held then.
-/

namespace RioClient

open CallPrograms RioSession

structure SocketState where
  handle : Handle
  bound : Option (UInt16 × UInt32) := none
  multicastIf : Option UInt32 := none
  memberships : List (UInt32 × UInt32) := []

structure CompletionQueueState where
  handle : Handle
  size : UInt32
  iocpHandle : Option Handle

structure RequestQueueState where
  handle : Handle
  socket : Handle
  limits : RequestLimits
  completionQueue : Handle

/-- `wsaStartups` counts the calls of `WSAStartup` that have no call of `WSACleanup`
yet, `regions` are pointers with sizes, and `failed` records that a call failed. -/
structure Resources where
  wsaStartups : Nat := 0
  rioFuncTable : Bool := false
  ports : List Handle := []
  sockets : List SocketState := []
  completionQueues : List CompletionQueueState := []
  requestQueues : List RequestQueueState := []
  regions : List (Handle × UInt32) := []
  buffers : List RegisteredBuffer := []
  failed : Bool := false

structure SocketState.Configured (winsock : WinsockAddresses) (args : Args)
    (socket : SocketState) : Prop where
  bound : ∃ sinAddr, bindAddress winsock.toWinsock args.ifIndex = some sinAddr ∧
    socket.bound =
      some (htons (if args.command = "producer".toList then 0 else args.mcastPort), sinAddr)
  multicastIf : socket.multicastIf =
    if args.command = "producer".toList then some (winsock.inetAddr (cStr args.ifIndex)) else none
  memberships : socket.memberships =
    if args.command = "producer".toList then []
    else args.mcastAddrStr.map fun mcAddr =>
      (mcAddr.ipNetOrder, winsock.inetAddr (cStr args.ifIndex))

def RioSession.buffer (session : RioSession) : BufferId → RegisteredBuffer
  | .rioBuff => session.rioBuff
  | .mcAddrBuff => session.mcAddrBuff

namespace Resources

def LiveSocket (resources : Resources) (socket : Handle) : Prop :=
  ∃ state ∈ resources.sockets, state.handle = socket

def LiveRegion (resources : Resources) (pointer : Handle) (size : UInt32) : Prop :=
  ∃ region ∈ resources.regions, region.1 = pointer ∧ size ≤ region.2

/-- What `Start` relies on: its socket, its queues with room for every request, and
each window of its descriptors inside a registered buffer of live memory. -/
structure Ready (winsock : WinsockAddresses) (resources : Resources) (session : RioSession) :
    Prop where
  socket : ∃ state ∈ resources.sockets, state.handle = session.socketHandle ∧
    state.Configured winsock session.args
  requestQueue : ⟨session.requestQueue, session.socketHandle, session.limits,
    session.completionQueue⟩ ∈ resources.requestQueues
  completionQueue : ∃ queue ∈ resources.completionQueues,
    queue.handle = session.completionQueue ∧ queue.iocpHandle = session.hIOCP ∧
      session.limits.maxOutstandingReceive.toNat + session.limits.maxOutstandingSend.toNat ≤
        queue.size.toNat
  port : ∃ port ∈ resources.ports, session.hIOCP = some port
  windows : ∀ descriptor ∈ session.rioBuffDescr ++ session.mcAddrDescr,
    session.buffer descriptor.bufferId ∈ resources.buffers ∧
      descriptor.offset.toNat + descriptor.length.toNat ≤
        (session.buffer descriptor.bufferId).bufferSize.toNat
  regions : ∀ buffer ∈ resources.buffers,
    resources.LiveRegion buffer.bufferPointer buffer.bufferSize

def permits (winsock : WinsockAddresses) (resources : Resources) : ApiCall → Prop
  | .wsaStartup | .setConsoleCtrlHandler | .createIoCompletionPort | .getLargePageMinimum
  | .getSystemInfo | .virtualAllocExNuma _ => True
  | .wsaSocket => 0 < resources.wsaStartups
  | .bind socket .. => ∃ state ∈ resources.sockets, state.handle = socket ∧ state.bound = none
  | .setReuseAddr socket | .addMembership socket .. | .setMulticastIf socket _
  | .wsaIoctl socket | .closesocket socket => resources.LiveSocket socket
  | .rioCreateCompletionQueue .. => resources.rioFuncTable = true
  | .rioCreateRequestQueue socket limits completionQueue =>
      resources.rioFuncTable = true ∧ resources.LiveSocket socket ∧
        (∀ queue ∈ resources.requestQueues, queue.socket ≠ socket) ∧
        limits.maxReceiveDataBuffers = 1 ∧ limits.maxSendDataBuffers = 1 ∧
        ∃ queue ∈ resources.completionQueues, queue.handle = completionQueue ∧
          limits.maxOutstandingReceive.toNat + limits.maxOutstandingSend.toNat ≤ queue.size.toNat
  | .rioRegisterBuffer pointer size =>
      resources.rioFuncTable = true ∧ resources.LiveRegion pointer size
  | .start session => resources.Ready winsock session
  | .rioCloseCompletionQueue completionQueue =>
      resources.rioFuncTable = true ∧
        (∃ queue ∈ resources.completionQueues, queue.handle = completionQueue) ∧
        ∀ queue ∈ resources.requestQueues, queue.completionQueue ≠ completionQueue
  | .rioDeregisterBuffer bufferId =>
      resources.rioFuncTable = true ∧ (∃ buffer ∈ resources.buffers, buffer.bufferId = bufferId) ∧
        resources.requestQueues = []
  | .virtualFreeEx pointer =>
      resources.LiveRegion pointer 0 ∧
        ∀ buffer ∈ resources.buffers, buffer.bufferPointer ≠ pointer
  | .wsaCleanup => 0 < resources.wsaStartups ∧ resources.sockets = []

/-- New regions and buffers are told apart from those held, a granularity is
positive, `setsockopt` returns 0 or `SOCKET_ERROR`, and there is no completion
queue without a port. -/
def allows (resources : Resources) : (request : ApiCall) → ApiAnswer request → Prop
  | .virtualAllocExNuma _, some pointer => ∀ region ∈ resources.regions, region.1 ≠ pointer
  | .rioRegisterBuffer .., some bufferId => ∀ buffer ∈ resources.buffers, buffer.bufferId ≠ bufferId
  | .rioCreateCompletionQueue _ iocpHandle, some _ => iocpHandle ≠ none
  | .getSystemInfo, dwAllocationGranularity => 0 < dwAllocationGranularity
  | .setReuseAddr _, r | .addMembership .., r | .setMulticastIf .., r => r = 0 ∨ r = -1
  | _, _ => True

def fail (resources : Resources) : Resources := { resources with failed := true }

def changeSocket (resources : Resources) (socket : Handle) (change : SocketState → SocketState) :
    Resources :=
  { resources with sockets := resources.sockets.map fun state =>
      if state.handle = socket then change state else state }

/-- A socket that is closed takes its request queue with it. -/
def next (resources : Resources) : (request : ApiCall) → ApiAnswer request → Resources
  | .wsaStartup, true => { resources with wsaStartups := resources.wsaStartups + 1 }
  | .wsaSocket, some handle =>
      { resources with sockets := ⟨handle, none, none, []⟩ :: resources.sockets }
  | .createIoCompletionPort, some port => { resources with ports := port :: resources.ports }
  | .bind socket sinPort sinAddr, true =>
      resources.changeSocket socket fun state => { state with bound := some (sinPort, sinAddr) }
  | .addMembership socket multiaddr interface, r =>
      if r = 0 then resources.changeSocket socket fun state =>
        { state with memberships := state.memberships ++ [(multiaddr, interface)] }
      else resources.fail
  | .setMulticastIf socket interface, r =>
      if r = 0 then resources.changeSocket socket fun state =>
        { state with multicastIf := some interface }
      else resources.fail
  | .setReuseAddr _, r => if r = 0 then resources else resources.fail
  | .wsaIoctl _, true => { resources with rioFuncTable := true }
  | .rioCreateCompletionQueue size iocpHandle, some handle =>
      { resources with completionQueues := ⟨handle, size, iocpHandle⟩ :: resources.completionQueues }
  | .rioCreateRequestQueue socket limits completionQueue, some handle =>
      { resources with
        requestQueues := ⟨handle, socket, limits, completionQueue⟩ :: resources.requestQueues }
  | .virtualAllocExNuma size, some pointer =>
      { resources with regions := (pointer, size) :: resources.regions }
  | .rioRegisterBuffer pointer size, some bufferId =>
      { resources with buffers := ⟨pointer, bufferId, size⟩ :: resources.buffers }
  | .closesocket socket, true =>
      { resources with
        sockets := resources.sockets.filter fun state => state.handle ≠ socket
        requestQueues := resources.requestQueues.filter fun queue => queue.socket ≠ socket }
  | .rioCloseCompletionQueue completionQueue, _ =>
      { resources with completionQueues :=
          resources.completionQueues.filter fun queue => queue.handle ≠ completionQueue }
  | .rioDeregisterBuffer bufferId, _ =>
      { resources with buffers :=
          resources.buffers.filter fun buffer => buffer.bufferId ≠ bufferId }
  | .virtualFreeEx pointer, true =>
      { resources with regions := resources.regions.filter fun region => region.1 ≠ pointer }
  | .wsaCleanup, _ => { resources with wsaStartups := resources.wsaStartups - 1 }
  | .setConsoleCtrlHandler, _ | .getLargePageMinimum, _ | .getSystemInfo, _ | .start _, none =>
      resources
  | _, _ => resources.fail

end Resources

def apiContract (winsock : WinsockAddresses) : Contract Resources ApiCall ApiAnswer where
  permits := Resources.permits winsock
  allows := Resources.allows
  next := Resources.next

end RioClient
