import RioClient.BufferSizes
import RioClient.Resources
import RioClient.WirePackets

/-!
What each function behind `main` does to the resources of the process, against
every answer of Windows. A process that ends in `ErrorExit` has had a call fail,
as long as its arguments were as `expected`.
-/

namespace RioClient

open CallPrograms Contract RioSession

def Excused (expected : Prop) : ProcessEnd → Resources → Prop
  | .errorExit _, resources => expected → resources.failed = true
  | _, resources => resources = {}

abbrev Keeps {α : Type} (winsock : WinsockAddresses) (expected : Prop)
    (post : α → Resources → Prop) (program : ApiProgram α) (resources : Resources) : Prop :=
  (apiContract winsock).Ensures (Excused expected) post program resources

section
variable {winsock : WinsockAddresses} {expected : Prop} {resources : Resources}

theorem keeps_bind {α β : Type} {program : ApiProgram α} {next : α → ApiProgram β}
    {post : β → Resources → Prop} :
    Keeps winsock expected post (program >>= next) resources ↔
      Keeps winsock expected (fun value => Keeps winsock expected post (next value))
        program resources :=
  ensures_bind

theorem keeps_ask {request : ApiCall} {post : ApiAnswer request → Resources → Prop} :
    Keeps winsock expected post (ask request) resources ↔ resources.permits winsock request ∧
      ∀ answer, resources.allows request answer → post answer (resources.next request answer) :=
  Iff.rfl

theorem keeps_createSocket {post : Handle → Resources → Prop}
    (started : 0 < resources.wsaStartups)
    (onwards : ∀ handle, post handle
      { resources with sockets := ⟨handle, none, none, []⟩ :: resources.sockets }) :
    Keeps winsock expected post createSocket resources := by
  rw [createSocket, keeps_bind]
  refine keeps_ask.mpr ⟨started, fun socketHandle _ => ?_⟩
  cases socketHandle with
  | none => exact fun _ => rfl
  | some handle => exact onwards handle

theorem keeps_initializeRio {post : Unit → Resources → Prop} {socket : Handle}
    (live : resources.LiveSocket socket)
    (onwards : post () { resources with rioFuncTable := true }) :
    Keeps winsock expected post (initializeRio socket) resources := by
  rw [initializeRio, keeps_bind]
  refine keeps_ask.mpr ⟨live, fun succeeded _ => ?_⟩
  cases succeeded with
  | false => exact fun _ => rfl
  | true => exact onwards

theorem keeps_createCompletionQueue {post : Handle → Resources → Prop} {hIOCP : Option Handle}
    {cqSize : UInt32} (table : resources.rioFuncTable = true)
    (onwards : ∀ handle, hIOCP ≠ none → post handle
      { resources with
        completionQueues := ⟨handle, cqSize, hIOCP⟩ :: resources.completionQueues }) :
    Keeps winsock expected post (createCompletionQueue hIOCP cqSize) resources := by
  rw [createCompletionQueue, keeps_bind]
  refine keeps_ask.mpr ⟨table, fun completionQueue allowed => ?_⟩
  cases completionQueue with
  | none => exact fun _ => rfl
  | some handle => exact onwards handle allowed

theorem keeps_createRequestQueue {post : Handle → Resources → Prop} {socket : Handle}
    {limits : RequestLimits} {completionQueue : Handle}
    (permitted : resources.permits winsock (.rioCreateRequestQueue socket limits completionQueue))
    (onwards : ∀ handle, post handle
      { resources with
        requestQueues := ⟨handle, socket, limits, completionQueue⟩ :: resources.requestQueues }) :
    Keeps winsock expected post (createRequestQueue socket limits completionQueue) resources := by
  rw [createRequestQueue, keeps_bind]
  refine keeps_ask.mpr ⟨permitted, fun requestQueue _ => ?_⟩
  cases requestQueue with
  | none => exact fun _ => rfl
  | some handle => exact onwards handle

def memoryContract (api : MemoryApi) : Contract Unit ApiCall ApiAnswer where
  permits _ _ := True
  allows _ request answer :=
    match request, answer with
    | .getSystemInfo, granularity => granularity = api.dwAllocationGranularity
    | .virtualAllocExNuma size, allocated => allocated = api.virtualAllocExNuma size
    | .rioRegisterBuffer pointer size, bufferId => bufferId = api.rioRegisterBuffer pointer size
    | _, _ => True
  next _ _ _ := ()

section
variable {api : MemoryApi} {messageSize totalMessages : UInt32}

theorem allocateBufferSpace_agrees {halt : ProcessEnd → Unit → Prop}
    {post : BufferSpace → Unit → Prop}
    (failing : ∀ error, RioClient.allocateBufferSpace api messageSize totalMessages =
      .error error → halt (.errorExit error) ())
    (onwards : ∀ space, RioClient.allocateBufferSpace api messageSize totalMessages = .ok space →
      post space ()) :
    (memoryContract api).Ensures halt post
      (RioSession.allocateBufferSpace messageSize totalMessages) () := by
  rw [RioSession.allocateBufferSpace, ensures_bind]
  refine ⟨trivial, fun granularity sameGranularity => ⟨trivial, fun allocated answered => ?_⟩⟩
  obtain rfl : granularity = api.dwAllocationGranularity := sameGranularity
  let size := actualSize (RioClient.granularity api) messageSize totalMessages
  let fitting := (size / messageSize.toUInt64).toUInt32
  have space : api.virtualAllocExNuma size.toUInt32 = allocated := Eq.symm answered
  cases allocated with
  | none =>
      refine failing ⟨"VirtualAlloc".toList⟩ ?_
      simp only [RioClient.allocateBufferSpace, size, space]
  | some pBuffer =>
      refine onwards ⟨pBuffer, size.toUInt32,
        if fitting < totalMessages then fitting else totalMessages⟩ ?_
      simp only [RioClient.allocateBufferSpace, size, fitting, space]

/-- As a program over its calls the function returns the same, or fails with the same. -/
theorem allocateAndRegisterBuffer_agrees :
    (memoryContract api).Ensures
      (fun ended _ => ∃ error, ended = .errorExit error ∧
        RioClient.allocateAndRegisterBuffer api messageSize totalMessages = .error error)
      (fun buffer _ =>
        RioClient.allocateAndRegisterBuffer api messageSize totalMessages = .ok buffer)
      (RioSession.allocateAndRegisterBuffer messageSize totalMessages) () := by
  rw [RioSession.allocateAndRegisterBuffer, ensures_bind, RioClient.allocateAndRegisterBuffer]
  refine allocateBufferSpace_agrees (fun error failed => ?_) fun space made => ?_
  · rw [failed]
    exact ⟨error, rfl, rfl⟩
  · rw [made, ensures_bind]
    refine ⟨trivial, fun registered answered => ?_⟩
    have identified : api.rioRegisterBuffer space.pBuffer space.bufferSize = registered :=
      Eq.symm answered
    simp only [bind, Except.bind, identified]
    cases registered with
    | none => exact ⟨_, rfl, rfl⟩
    | some bufferId =>
        by_cases same : space.receiveBuffersAllocated = totalMessages
        · simp only [same, ne_eq, not_true_eq_false, ↓reduceIte]
          exact rfl
        · simp only [same, ne_eq, not_false_eq_true, ↓reduceIte]
          exact ⟨_, rfl, rfl⟩

end

theorem le_sizeLimit {granularity : Nat} (positive : 0 < granularity)
    (small : granularity < 2 ^ 32) : 2 ^ 31 ≤ sizeLimit granularity := by
  have parts := Nat.div_add_mod' (2 ^ 32 - 1) granularity
  have rest := Nat.mod_lt (2 ^ 32 - 1) positive
  have whole : granularity ≤ (2 ^ 32 - 1) / granularity * granularity :=
    Nat.le_mul_of_pos_left granularity (Nat.div_pos (by omega) positive)
  rw [sizeLimit]
  omega

theorem keeps_allocateBufferSpace {post : BufferSpace → Resources → Prop}
    {messageSize totalMessages : UInt32}
    (onwards : ∀ (granularity : UInt32) (pBuffer : Handle), 0 < granularity.toNat →
      (∀ region ∈ resources.regions, region.1 ≠ pBuffer) →
      let size := actualSize granularity.toUInt64 messageSize totalMessages
      let fitting := (size / messageSize.toUInt64).toUInt32
      post ⟨pBuffer, size.toUInt32, if fitting < totalMessages then fitting else totalMessages⟩
        { resources with regions := (pBuffer, size.toUInt32) :: resources.regions }) :
    Keeps winsock expected post
      (RioSession.allocateBufferSpace messageSize totalMessages) resources := by
  rw [RioSession.allocateBufferSpace, keeps_bind]
  refine ⟨trivial, fun granularity positive => ⟨trivial, fun allocated fresh => ?_⟩⟩
  cases allocated with
  | none => exact fun _ => rfl
  | some pBuffer => exact onwards granularity pBuffer positive fresh

theorem keeps_allocateAndRegisterBuffer {post : RegisteredBuffer → Resources → Prop}
    {messageSize totalMessages : UInt32} (table : resources.rioFuncTable = true)
    (positive : 0 < messageSize.toNat)
    (fits : expected → messageSize.toNat * totalMessages.toNat ≤ 2 ^ 31)
    (onwards : ∀ buffer : RegisteredBuffer,
      (∀ region ∈ resources.regions, region.1 ≠ buffer.bufferPointer) →
      (∀ other ∈ resources.buffers, other.bufferId ≠ buffer.bufferId) →
      messageSize.toNat * totalMessages.toNat ≤ buffer.bufferSize.toNat →
      post buffer
        { resources with
          regions := (buffer.bufferPointer, buffer.bufferSize) :: resources.regions
          buffers := buffer :: resources.buffers }) :
    Keeps winsock expected post
      (RioSession.allocateAndRegisterBuffer messageSize totalMessages) resources := by
  rw [RioSession.allocateAndRegisterBuffer, keeps_bind]
  refine keeps_allocateBufferSpace fun granularity pBuffer granular fresh => ?_
  rw [keeps_bind]
  refine keeps_ask.mpr ⟨⟨table, _, List.mem_cons_self, rfl, UInt32.le_refl _⟩,
    fun registered newId => ?_⟩
  cases registered with
  | none => exact fun _ => rfl
  | some bufferId =>
      have unit : 0 < granularity.toUInt64.toNat := UInt32.toNat_toUInt64 _ ▸ granular
      have size := @toNat_actualSize_lt _ messageSize totalMessages unit
      have counts := @receiveBuffersAllocated_eq_iff messageSize totalMessages _ positive size
      have limit := @product_le_actualSize_iff granularity.toUInt64 messageSize totalMessages unit
      dsimp only at counts ⊢
      by_cases room : messageSize.toNat * totalMessages.toNat ≤
          (actualSize granularity.toUInt64 messageSize totalMessages).toNat
      · rw [if_neg (Decidable.not_not.mpr (counts.mpr room))]
        refine onwards ⟨pBuffer, bufferId, _⟩ fresh newId ?_
        rw [UInt64.toNat_toUInt32, Nat.mod_eq_of_lt size]
        exact room
      · rw [if_pos (mt counts.mp room)]
        intro asExpected
        have large := le_sizeLimit unit (UInt32.toNat_toUInt64 granularity ▸ granularity.toNat_lt)
        exact absurd (limit.mpr (Nat.le_trans (fits asExpected) large)) room

namespace Resources

def opened (hIOCP : Option Handle) (socket : SocketState) (failed : Bool) : Resources where
  wsaStartups := 1
  ports := hIOCP.toList
  sockets := [socket]
  failed := failed

def constructed (port : Handle) (socket : SocketState) (queue : CompletionQueueState)
    (requestQueue : RequestQueueState) (rioBuff mcAddrBuff : RegisteredBuffer) (failed : Bool) :
    Resources where
  wsaStartups := 1
  rioFuncTable := true
  ports := [port]
  sockets := [socket]
  completionQueues := [queue]
  requestQueues := [requestQueue]
  regions := [(mcAddrBuff.bufferPointer, mcAddrBuff.bufferSize),
    (rioBuff.bufferPointer, rioBuff.bufferSize)]
  buffers := [mcAddrBuff, rioBuff]
  failed := failed

theorem changeSocket_opened {hIOCP : Option Handle} {socket : SocketState} {failed : Bool}
    {change : SocketState → SocketState} :
    (opened hIOCP socket failed).changeSocket socket.handle change =
      opened hIOCP (change socket) failed := by
  simp [changeSocket, opened]

section
variable {hIOCP : Option Handle} {socket : SocketState} {failed : Bool}

theorem next_bind {sinPort : UInt16} {sinAddr : UInt32} :
    (opened hIOCP socket failed).next (.bind socket.handle sinPort sinAddr) true =
      opened hIOCP { socket with bound := some (sinPort, sinAddr) } failed :=
  changeSocket_opened

theorem next_addMembership {multiaddr iaddr : UInt32} :
    (opened hIOCP socket failed).next (.addMembership socket.handle multiaddr iaddr) 0 =
      opened hIOCP { socket with memberships := socket.memberships ++ [(multiaddr, iaddr)] }
        failed :=
  changeSocket_opened

theorem next_setMulticastIf {iaddr : UInt32} :
    (opened hIOCP socket failed).next (.setMulticastIf socket.handle iaddr) 0 =
      opened hIOCP { socket with multicastIf := some iaddr } failed :=
  changeSocket_opened

theorem live_opened : (opened hIOCP socket failed).LiveSocket socket.handle :=
  ⟨socket, List.mem_singleton_self socket, rfl⟩

end

end Resources

open Resources (opened constructed live_opened)

theorem keeps_construct {post : Handle × Option Handle → Resources → Prop}
    (onwards : ∀ handle hIOCP failed,
      post (handle, hIOCP) (opened hIOCP ⟨handle, none, none, []⟩ failed)) :
    Keeps winsock expected post RioSession.construct { wsaStartups := 1 } := by
  rw [RioSession.construct, keeps_bind]
  refine keeps_createSocket Nat.zero_lt_one fun handle => ?_
  rw [keeps_bind]
  refine keeps_ask.mpr ⟨trivial, fun hIOCP _ => ?_⟩
  cases hIOCP with
  | none => exact onwards handle none true
  | some port => exact onwards handle (some port) false

section
variable {hIOCP : Option Handle} {socket : SocketState} {failed : Bool}

theorem keeps_bindSocket {post : Unit → Resources → Prop} {handle : Handle} {bindPort : UInt16}
    {bindAddr : Text} (named : socket.handle = handle) (unbound : socket.bound = none)
    (readable : expected → bindAddress winsock.toWinsock bindAddr ≠ none)
    (onwards : ∀ sinAddr, bindAddress winsock.toWinsock bindAddr = some sinAddr → post ()
      (opened hIOCP { socket with bound := some (htons bindPort, sinAddr) } failed)) :
    Keeps winsock expected post (bindSocket winsock.toWinsock handle bindPort bindAddr)
      (opened hIOCP socket failed) := by
  subst named
  rw [bindSocket]
  cases address : bindAddress winsock.toWinsock bindAddr with
  | none => exact fun asExpected => absurd address (readable asExpected)
  | some sinAddr =>
      refine keeps_bind.mpr (keeps_ask.mpr ⟨⟨socket, List.mem_singleton_self _, rfl, unbound⟩,
        fun succeeded _ => ?_⟩)
      cases succeeded with
      | false => exact fun _ => rfl
      | true =>
          rw [Resources.next_bind]
          exact onwards sinAddr address

theorem keeps_joinGroup {post : Int32 → Resources → Prop} {grpaddr iaddr : UInt32}
    (joined : ∀ failed, post 0 (opened hIOCP
      { socket with memberships := socket.memberships ++ [(grpaddr, iaddr)] } failed))
    (refused : post (-1) (opened hIOCP socket true)) :
    Keeps winsock expected post (RioConsumer.joinGroup socket.handle grpaddr iaddr)
      (opened hIOCP socket failed) := by
  have added (failed : Bool) : Keeps winsock expected post
      (ask (.addMembership socket.handle grpaddr iaddr)) (opened hIOCP socket failed) := by
    refine keeps_ask.mpr ⟨live_opened, fun r allowed => ?_⟩
    obtain rfl | rfl := allowed
    · rw [Resources.next_addMembership]
      exact joined failed
    · exact refused
  rw [RioConsumer.joinGroup]
  refine keeps_bind.mpr (keeps_ask.mpr ⟨live_opened, fun r allowed => ?_⟩)
  obtain rfl | rfl := allowed
  · exact added failed
  · exact added true

theorem keeps_joinGroups {post : Unit → Resources → Prop} {handle : Handle} {ifIndex : Text}
    {mcastAddrs : List Ipv4Addr} (named : socket.handle = handle)
    (standard : winsock.toWinsock.Standard)
    (inetAddr : ∀ host, winsock.inetAddr (dottedQuad host) = htonl host)
    (unjoined : socket.memberships = [])
    (onwards : ∀ failed, post () (opened hIOCP
      { socket with memberships := mcastAddrs.map fun mcAddr =>
          (mcAddr.ipNetOrder, winsock.inetAddr (cStr ifIndex)) } failed)) :
    Keeps winsock expected post
      (RioConsumer.joinGroups winsock handle ifIndex mcastAddrs)
      (opened hIOCP socket failed) := by
  subst named
  let Joined (before : List Ipv4Addr) (resources : Resources) : Prop := ∃ failed, resources =
    opened hIOCP { socket with memberships := before.map fun mcAddr =>
      (mcAddr.ipNetOrder, winsock.inetAddr (cStr ifIndex)) } failed
  have initially : Joined [] (opened hIOCP socket failed) := by
    refine ⟨failed, ?_⟩
    rw [List.map_nil, ← unjoined]
  refine (Ensures.forM ?_ initially).mono ?_
  · rintro before mcAddr _ ⟨failed, rfl⟩
    have number : winsock.inetAddr (cStr (mcAddr.str winsock.toWinsock)) = mcAddr.ipNetOrder := by
      rw [Ipv4Addr.str, standard.ntop, cStr_dottedQuad, inetAddr, htonl_ntohl, Ipv4Addr.ipNetOrder]
    rw [number]
    refine keeps_bind.mpr (keeps_joinGroup (fun failed => ?_) fun _ => rfl)
    refine ⟨failed, ?_⟩
    simp
  · rintro _ _ ⟨failed, rfl⟩
    exact onwards failed

theorem keeps_sendOnInterface {post : Unit → Resources → Prop} {handle : Handle} {iaddr : Text}
    (named : socket.handle = handle) (onwards : post () (opened hIOCP
      { socket with multicastIf := some (winsock.inetAddr (cStr iaddr)) } failed)) :
    Keeps winsock expected post (RioProducer.sendOnInterface winsock handle iaddr)
      (opened hIOCP socket failed) := by
  subst named
  rw [RioProducer.sendOnInterface]
  refine keeps_bind.mpr (keeps_ask.mpr ⟨live_opened, fun r allowed => ?_⟩)
  obtain rfl | rfl := allowed
  · rw [Resources.next_setMulticastIf]
    exact onwards
  · exact fun _ => rfl

end

end

end RioClient
