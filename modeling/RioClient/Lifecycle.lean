import RioClient.AcceptedArgs
import RioClient.AdapterChoice
import RioClient.CommandLine
import RioClient.DescriptorLayout
import RioClient.LifecycleSteps

/-!
The process from `main` to its end, whatever Windows answers: no call misuses
what the process holds, `Start` finds all it relies on, and a process that
returns 0 has released everything but the completion port.
-/

namespace RioClient

open CallPrograms Contract RioSession
open Resources (opened constructed live_opened)

theorem fillDescriptors_inside {bufferId : BufferId} {length count : UInt32}
    {descriptor : RioBuf} {size : Nat} (fits : length.toNat * count.toNat ≤ size)
    (small : size < 2 ^ 32)
    (member : descriptor ∈ fillDescriptors bufferId length count.toNat 0) :
    descriptor.bufferId = bufferId ∧
      descriptor.offset.toNat + descriptor.length.toNat ≤ size := by
  obtain ⟨index, bound, found⟩ := List.mem_iff_getElem.mp member
  rw [length_fillDescriptors] at bound
  have listed := @getElem?_fillDescriptors bufferId length 0 count.toNat index bound
  rw [List.getElem?_eq_getElem (by rwa [length_fillDescriptors]), found, Option.some.injEq]
    at listed
  subst listed
  have whole : (index + 1) * length.toNat ≤ size :=
    Nat.le_trans (Nat.mul_le_mul_right _ bound) (Nat.mul_comm _ _ ▸ fits)
  rw [Nat.add_mul, Nat.one_mul] at whole
  refine ⟨rfl, ?_⟩
  rw [UInt32.zero_add, toNat_ofNat_mul (by omega)]
  exact whole

section
variable {winsock : WinsockAddresses} {expected : Prop}

theorem keeps_queues {hIOCP : Option Handle} {socket : SocketState} {failed : Bool}
    {handle : Handle} {limits : RequestLimits}
    {cqSize dataLength dataCount addressLength addressCount : UInt32}
    {post : RioSession → Resources → Prop}
    {next : Handle → Handle → RegisteredBuffer → RegisteredBuffer → ApiProgram RioSession}
    (named : socket.handle = handle)
    (single : limits.maxReceiveDataBuffers = 1 ∧ limits.maxSendDataBuffers = 1)
    (capacity : limits.maxOutstandingReceive.toNat + limits.maxOutstandingSend.toNat ≤
      cqSize.toNat)
    (dataPositive : 0 < dataLength.toNat) (addressPositive : 0 < addressLength.toNat)
    (dataFits : expected → dataLength.toNat * dataCount.toNat ≤ 2 ^ 31)
    (addressFits : expected → addressLength.toNat * addressCount.toNat ≤ 2 ^ 31)
    (onwards : ∀ port completionQueue requestQueue (rioBuff mcAddrBuff : RegisteredBuffer),
      hIOCP = some port →
      rioBuff.bufferPointer ≠ mcAddrBuff.bufferPointer → rioBuff.bufferId ≠ mcAddrBuff.bufferId →
      dataLength.toNat * dataCount.toNat ≤ rioBuff.bufferSize.toNat →
      addressLength.toNat * addressCount.toNat ≤ mcAddrBuff.bufferSize.toNat →
      Keeps winsock expected post (next completionQueue requestQueue rioBuff mcAddrBuff)
        (constructed port socket ⟨completionQueue, cqSize, hIOCP⟩
          ⟨requestQueue, handle, limits, completionQueue⟩ rioBuff mcAddrBuff failed)) :
    Keeps winsock expected post (do
      initializeRio handle
      let completionQueue ← createCompletionQueue hIOCP cqSize
      let requestQueue ← createRequestQueue handle limits completionQueue
      let rioBuff ← RioSession.allocateAndRegisterBuffer dataLength dataCount
      let mcAddrBuff ← RioSession.allocateAndRegisterBuffer addressLength addressCount
      next completionQueue requestQueue rioBuff mcAddrBuff) (opened hIOCP socket failed) := by
  subst named
  refine keeps_bind.mpr (keeps_initializeRio live_opened ?_)
  refine keeps_bind.mpr (keeps_createCompletionQueue rfl fun completionQueue made => ?_)
  obtain ⟨port, rfl⟩ := Option.ne_none_iff_exists'.mp made
  refine keeps_bind.mpr (keeps_createRequestQueue ⟨rfl,
    ⟨socket, List.mem_singleton_self socket, rfl⟩, nofun, single.1, single.2,
    ⟨completionQueue, cqSize, some port⟩, List.mem_cons_self, rfl, capacity⟩
    fun requestQueue => ?_)
  refine keeps_bind.mpr (keeps_allocateAndRegisterBuffer rfl dataPositive dataFits
    fun rioBuff _ _ dataInside => ?_)
  refine keeps_bind.mpr (keeps_allocateAndRegisterBuffer rfl addressPositive addressFits
    fun mcAddrBuff newRegion newId addressInside => ?_)
  exact onwards port completionQueue requestQueue rioBuff mcAddrBuff rfl
    (newRegion _ List.mem_cons_self) (newId _ List.mem_cons_self) dataInside addressInside

structure Constructed (winsock : WinsockAddresses) (args : Args) (session : RioSession)
    (resources : Resources) : Prop where
  args : session.args = args
  ready : resources.Ready winsock session
  held : ∃ port socket queue failed, socket.handle = session.socketHandle ∧
    queue.handle = session.completionQueue ∧ resources = constructed port socket queue
      ⟨session.requestQueue, session.socketHandle, session.limits, session.completionQueue⟩
      session.rioBuff session.mcAddrBuff failed
  apart : session.rioBuff.bufferPointer ≠ session.mcAddrBuff.bufferPointer ∧
    session.rioBuff.bufferId ≠ session.mcAddrBuff.bufferId

theorem constructed_of_windows {args : Args} {session : RioSession} {port : Handle}
    {socket : SocketState} {cqSize dataCount addressCount : UInt32} {failed : Bool}
    (sameArgs : session.args = args) (sameSocket : session.socketHandle = socket.handle)
    (configured : socket.Configured winsock args) (hasPort : session.hIOCP = some port)
    (capacity : session.limits.maxOutstandingReceive.toNat +
      session.limits.maxOutstandingSend.toNat ≤ cqSize.toNat)
    (pointers : session.rioBuff.bufferPointer ≠ session.mcAddrBuff.bufferPointer)
    (ids : session.rioBuff.bufferId ≠ session.mcAddrBuff.bufferId)
    (dataInside : expectedDataSize.toNat * dataCount.toNat ≤ session.rioBuff.bufferSize.toNat)
    (addressInside : addrSize.toNat * addressCount.toNat ≤ session.mcAddrBuff.bufferSize.toNat)
    (dataDescr : ∀ descriptor ∈ session.rioBuffDescr,
      descriptor ∈ fillDescriptors .rioBuff expectedDataSize dataCount.toNat 0)
    (addressDescr : session.mcAddrDescr =
      fillDescriptors .mcAddrBuff addrSize addressCount.toNat 0) :
    Constructed winsock args session (constructed port socket
      ⟨session.completionQueue, cqSize, session.hIOCP⟩
      ⟨session.requestQueue, socket.handle, session.limits, session.completionQueue⟩
      session.rioBuff session.mcAddrBuff failed) := by
  subst sameArgs
  refine ⟨rfl, ?_, ⟨port, socket, _, failed, sameSocket.symm, rfl, by rw [sameSocket]⟩,
    pointers, ids⟩
  refine
    { socket := ⟨socket, List.mem_singleton_self _, sameSocket.symm, configured⟩
      requestQueue := by rw [sameSocket]; exact List.mem_singleton_self _
      completionQueue := ⟨_, List.mem_singleton_self _, rfl, rfl, capacity⟩
      port := ⟨port, List.mem_singleton_self _, hasPort⟩
      windows := ?_
      regions := ?_ }
  · intro descriptor member
    rcases List.mem_append.mp member with data | address
    · obtain ⟨named, inside⟩ := fillDescriptors_inside dataInside
        session.rioBuff.bufferSize.toNat_lt (dataDescr descriptor data)
      rw [named]
      exact ⟨List.mem_cons_of_mem _ List.mem_cons_self, inside⟩
    · obtain ⟨named, inside⟩ := fillDescriptors_inside addressInside
        session.mcAddrBuff.bufferSize.toNat_lt (addressDescr ▸ address)
      rw [named]
      exact ⟨List.mem_cons_self, inside⟩
  · intro buffer member
    rcases List.mem_cons.mp member with rfl | member
    · exact ⟨_, List.mem_cons_self, rfl, UInt32.le_refl _⟩
    · obtain rfl := List.mem_singleton.mp member
      exact ⟨_, List.mem_cons_of_mem _ List.mem_cons_self, rfl, UInt32.le_refl _⟩

theorem keeps_consumer {args : Args} (standard : winsock.toWinsock.Standard)
    (inetAddr : ∀ host, winsock.inetAddr (dottedQuad host) = htonl host)
    (consumer : args.command ≠ "producer".toList)
    (readable : expected → bindAddress winsock.toWinsock args.ifIndex ≠ none) :
    Keeps winsock expected (Constructed winsock args) (RioConsumer.construct winsock args)
      { wsaStartups := 1 } := by
  rw [RioConsumer.construct]
  refine keeps_bind.mpr (keeps_construct fun socketHandle hIOCP failed => ?_)
  refine keeps_bind.mpr (keeps_bindSocket rfl rfl readable fun sinAddr address => ?_)
  refine keeps_bind.mpr (keeps_joinGroups rfl standard inetAddr rfl fun failed => ?_)
  refine keeps_queues rfl ⟨rfl, rfl⟩ (Nat.le_refl _) (by decide) (by decide) (fun _ => by decide)
    (fun _ => by decide) fun port completionQueue requestQueue rioBuff mcAddrBuff made pointers
      ids dataInside addressInside => ?_
  refine constructed_of_windows rfl rfl ?_ made (Nat.le_refl _) pointers ids dataInside
    addressInside (fun _ member => member) rfl
  exact
    { bound := ⟨sinAddr, address, by rw [if_neg consumer]⟩
      multicastIf := by rw [if_neg consumer]
      memberships := by rw [if_neg consumer] }

theorem initMcAddrDescriptors_converts (standard : winsock.toWinsock.Standard)
    {mcastPort : UInt16} {groups : List Ipv4Addr} {offset : UInt32}
    {buffer : FlatMemory.Memory UInt8} :
    ∃ after, initMcAddrDescriptors winsock.toWinsock mcastPort groups offset buffer =
      .ok after := by
  induction groups generalizing offset buffer with
  | nil => exact ⟨buffer, rfl⟩
  | cons mcastAddr rest ih =>
      simp only [initMcAddrDescriptors, inetPton_str standard]
      exact ih

theorem keeps_producer {args : Args} (standard : winsock.toWinsock.Standard)
    (producer : args.command = "producer".toList)
    (readable : expected → bindAddress winsock.toWinsock args.ifIndex ≠ none)
    (sized : expected → ∃ producer : ProducerArgs, producer.toArgs = args) :
    Keeps winsock expected (Constructed winsock args) (RioProducer.construct winsock args)
      { wsaStartups := 1 } := by
  have size : expectedDataSize.toNat = 100 := rfl
  have addressSize : addrSize.toNat = 28 := rfl
  rw [RioProducer.construct]
  refine keeps_bind.mpr (keeps_construct fun socketHandle hIOCP failed => ?_)
  refine keeps_bind.mpr (keeps_bindSocket rfl rfl readable fun sinAddr address => ?_)
  refine keeps_bind.mpr (keeps_sendOnInterface rfl ?_)
  refine keeps_queues rfl ⟨rfl, rfl⟩ (Nat.le_of_eq (Nat.zero_add _)) (by decide) (by decide)
    (fun asExpected => ?_) (fun asExpected => ?_) fun port completionQueue requestQueue rioBuff
      mcAddrBuff made pointers ids dataInside addressInside => ?_
  · obtain ⟨limited, rfl⟩ := sized asExpected
    have rate := limited.rate_le
    rw [size, limited.toNat_packetRate]
    omega
  · obtain ⟨limited, rfl⟩ := sized asExpected
    have few := limited.numberOfMcGroups_le
    have count : (RioProducer.numberOfMcGroups limited.toArgs).toNat =
        limited.numberOfMcGroups := limited.toNat_numberOfMcGroups32
    rw [addressSize, count]
    omega
  · obtain ⟨after, filled⟩ := @initMcAddrDescriptors_converts winsock standard args.mcastPort
      (args.mcastAddrStr.take (RioProducer.numberOfMcGroups args).toNat) 0 fun _ => 0
    rw [filled]
    refine constructed_of_windows rfl rfl ?_ made (Nat.le_of_eq (Nat.zero_add _)) pointers ids
      dataInside addressInside (fun descriptor member => ?_) rfl
    · exact
        { bound := ⟨sinAddr, address, by rw [if_pos producer]⟩
          multicastIf := by rw [if_pos producer]
          memberships := by rw [if_pos producer] }
    · obtain ⟨window, filled, repeated⟩ := List.mem_flatMap.mp member
      exact List.eq_of_mem_replicate repeated ▸ filled

def Released (resources : Resources) : Prop :=
  ∃ port failed, resources = { rioFuncTable := true, ports := [port], failed := failed }

theorem keeps_closeSocket {post : Unit → Resources → Prop} {handle : Handle}
    {resources : Resources} (live : resources.LiveSocket handle)
    (onwards : post () (resources.next (.closesocket handle) true)) :
    Keeps winsock expected post (closeSocket handle) resources := by
  refine keeps_bind.mpr (keeps_ask.mpr ⟨live, fun succeeded _ => ?_⟩)
  cases succeeded with
  | false => exact fun _ => rfl
  | true => exact onwards

theorem keeps_release {post : Unit → Resources → Prop} {buffer : RegisteredBuffer}
    {resources : Resources}
    (deregisters : resources.permits winsock (.rioDeregisterBuffer buffer.bufferId))
    (frees : (resources.next (.rioDeregisterBuffer buffer.bufferId) ()).permits winsock
      (.virtualFreeEx buffer.bufferPointer))
    (onwards : post () ((resources.next (.rioDeregisterBuffer buffer.bufferId) ()).next
      (.virtualFreeEx buffer.bufferPointer) true)) :
    Keeps winsock expected post (releaseAndDeregisterBuffer buffer) resources := by
  refine keeps_bind.mpr (keeps_ask.mpr ⟨deregisters, fun _ _ => ?_⟩)
  refine keeps_bind.mpr (keeps_ask.mpr ⟨frees, fun succeeded _ => ?_⟩)
  cases succeeded with
  | false => exact fun _ => rfl
  | true => exact onwards

theorem keeps_cleanUpRio {args : Args} {session : RioSession} {resources : Resources}
    (built : Constructed winsock args session resources) :
    Keeps winsock expected (fun _ after => ∃ port failed, after =
      { wsaStartups := 1, rioFuncTable := true, ports := [port], failed := failed })
      session.cleanUpRio resources := by
  obtain ⟨port, socket, queue, failed, sameSocket, sameQueue, rfl⟩ := built.held
  obtain ⟨pointers, ids⟩ := built.apart
  rw [RioSession.cleanUpRio]
  refine keeps_bind.mpr (keeps_closeSocket ⟨socket, List.mem_singleton_self _, sameSocket⟩ ?_)
  have closed : (constructed port socket queue ⟨session.requestQueue, session.socketHandle,
      session.limits, session.completionQueue⟩ session.rioBuff session.mcAddrBuff failed).next
        (.closesocket session.socketHandle) true =
      { wsaStartups := 1
        rioFuncTable := true
        ports := [port]
        completionQueues := [queue]
        regions := [(session.mcAddrBuff.bufferPointer, session.mcAddrBuff.bufferSize),
          (session.rioBuff.bufferPointer, session.rioBuff.bufferSize)]
        buffers := [session.mcAddrBuff, session.rioBuff]
        failed := failed } := by
    simp [Resources.next, constructed, sameSocket]
  rw [closed]
  refine keeps_bind.mpr (keeps_ask.mpr ⟨⟨rfl, ⟨queue, List.mem_singleton_self _, sameQueue⟩, nofun⟩,
    fun _ _ => ?_⟩)
  refine keeps_bind.mpr (keeps_release
    ⟨rfl, ⟨_, List.mem_cons_of_mem _ List.mem_cons_self, rfl⟩, rfl⟩ ?_ ?_)
  · refine ⟨⟨(session.rioBuff.bufferPointer, session.rioBuff.bufferSize),
      List.mem_cons_of_mem _ List.mem_cons_self, rfl, UInt32.zero_le⟩, ?_⟩
    simp [Resources.next, ids.symm, pointers.symm]
  · refine keeps_release ⟨rfl, ⟨session.mcAddrBuff, ?_, rfl⟩, rfl⟩ ?_ ?_
    · simp [Resources.next, ids.symm]
    · refine ⟨⟨(session.mcAddrBuff.bufferPointer, session.mcAddrBuff.bufferSize), ?_, rfl,
        UInt32.zero_le⟩, ?_⟩
      · simp [Resources.next, pointers.symm]
      · simp [Resources.next]
    · refine ⟨port, failed, ?_⟩
      simp [Resources.next, sameQueue]

theorem keeps_constructSession {args : Args} (standard : winsock.toWinsock.Standard)
    (inetAddr : ∀ host, winsock.inetAddr (dottedQuad host) = htonl host)
    (readable : expected → bindAddress winsock.toWinsock args.ifIndex ≠ none)
    (sized : expected → ∃ producer : ProducerArgs, producer.toArgs = args) :
    Keeps winsock expected (Constructed winsock args) (constructSession winsock args)
      { wsaStartups := 1 } := by
  rw [constructSession]
  by_cases producer : args.command = "producer".toList
  · rw [if_pos producer]
    exact keeps_producer standard producer readable sized
  · rw [if_neg producer]
    exact keeps_consumer standard inetAddr producer readable

theorem keeps_initializeWSA {post : Unit → Resources → Prop}
    (onwards : post () { wsaStartups := 1 }) :
    Keeps winsock expected post initializeWSA {} := by
  rw [initializeWSA]
  refine keeps_bind.mpr (keeps_ask.mpr ⟨trivial, fun succeeded _ => ?_⟩)
  cases succeeded with
  | false => exact fun _ => rfl
  | true => exact onwards

theorem keeps_runSession {args : Args} (standard : winsock.toWinsock.Standard)
    (inetAddr : ∀ host, winsock.inetAddr (dottedQuad host) = htonl host)
    (readable : expected → bindAddress winsock.toWinsock args.ifIndex ≠ none)
    (sized : expected → ∃ producer : ProducerArgs, producer.toArgs = args) :
    Keeps winsock expected (fun status after => status = 0 ∧ Released after)
      (runSession winsock args) {} := by
  rw [runSession]
  refine keeps_bind.mpr (keeps_initializeWSA ?_)
  refine keeps_bind.mpr (keeps_ask.mpr ⟨trivial, fun _ _ => ?_⟩)
  refine keeps_bind.mpr ((keeps_constructSession standard inetAddr readable sized).mono
    fun session resources built => ?_)
  refine keeps_bind.mpr (keeps_bind.mpr (keeps_ask.mpr ⟨built.ready, fun ended _ => ?_⟩))
  cases ended with
  | some error => exact fun _ => rfl
  | none =>
      refine keeps_bind.mpr ((keeps_cleanUpRio built).mono ?_)
      rintro _ _ ⟨port, failed, rfl⟩
      exact keeps_bind.mpr (keeps_ask.mpr
        ⟨⟨Nat.zero_lt_one, rfl⟩, fun _ _ => ⟨rfl, port, failed, rfl⟩⟩)

end

structure Opens (argparse : Argparse) (winsock : WinsockAddresses) (adapters : AdapterApi)
    (argv : List Text) (args : Args) (ifIndex : Text) : Prop where
  parsed : OptionParser.parseArguments argparse winsock.toWinsock argv = .returned args
  accepted : ∃ line, check winsock.toWinsock (some args) = .ok (true, line)
  resolved : resolveIfIndex adapters args.ifIndex = .ok ifIndex

section
variable {argparse : Argparse} {winsock : WinsockAddresses} {adapters : AdapterApi}
  {argv : List Text} {args : Args} {ifIndex : Text}

theorem Opens.sized (standard : winsock.toWinsock.Standard)
    (opens : Opens argparse winsock adapters argv args ifIndex) (groups : args.mcastAddrStr ≠ []) :
    ∃ producer : ProducerArgs, producer.toArgs = { args with ifIndex } := by
  obtain ⟨line, accepted⟩ := opens.accepted
  have few : args.mcastAddrStr.length < 2 ^ 32 := by
    have parsed := opens.parsed
    rw [OptionParser.parseArguments] at parsed
    cases performed : (argparse.parseArgs argv).perform with
    | returned options =>
        simp only [performed] at parsed
        cases read : parseArguments winsock.toWinsock options with
        | error thrown => rw [read] at parsed; cases parsed
        | ok value =>
            rw [read] at parsed
            cases parsed
            obtain ⟨_, destinations, -⟩ := parseArguments_eq_ok read
            obtain ⟨range, listed, -⟩ := parseDestinations_eq_ok standard destinations
            rw [listed, range.length_elements]
            exact UInt32.toNat_lt _
    | exited status output => simp only [performed] at parsed; cases parsed
    | exitedInLibrary status => simp only [performed] at parsed; cases parsed
    | threw thrown => cases thrown <;> simp only [performed] at parsed <;> cases parsed
  obtain ⟨_, _, _, _, _, rateAccepted⟩ := (check_accepts_iff standard).mp accepted
  obtain ⟨rate, limit⟩ := (rate_accepted_iff few).mp rateAccepted
  exact ⟨⟨{ args with ifIndex }, rate, List.length_pos_iff.mpr groups, limit⟩, rfl⟩

theorem keeps_main (standard : winsock.toWinsock.Standard)
    (inetAddr : ∀ host, winsock.inetAddr (dottedQuad host) = htonl host) :
    Keeps winsock
      (∀ args ifIndex, Opens argparse winsock adapters argv args ifIndex →
        args.mcastAddrStr ≠ [] ∧ bindAddress winsock.toWinsock ifIndex ≠ none)
      (fun status after => status = 0 ∧ Released after ∨ (status = 1 ∨ status = -1) ∧ after = {})
      (main argparse winsock adapters argv) {} := by
  rw [main]
  cases parsed : OptionParser.parseArguments argparse winsock.toWinsock argv with
  | exited status output => exact rfl
  | exitedInLibrary status => exact rfl
  | threw thrown => exact rfl
  | returned args =>
      dsimp only
      cases checked : check winsock.toWinsock (some args) with
      | error thrown => exact rfl
      | ok verdict =>
          obtain ⟨accepted, line⟩ := verdict
          cases accepted with
          | false => exact .inr ⟨.inl rfl, rfl⟩
          | true =>
              dsimp only
              cases resolved : resolveIfIndex adapters args.ifIndex with
              | error thrown => exact .inr ⟨.inr rfl, rfl⟩
              | ok ifIndex =>
                  have opens : Opens argparse winsock adapters argv args ifIndex :=
                    ⟨parsed, ⟨line, checked⟩, resolved⟩
                  refine (keeps_runSession standard inetAddr
                    (fun asExpected => (asExpected args ifIndex opens).2)
                    fun asExpected => opens.sized standard (asExpected args ifIndex opens).1).mono ?_
                  exact fun _ _ => .inl

/-- At every moment of every run of the process: the next call is permitted; a
process that has returned 0 holds nothing but its completion port, and one that
ended before it opened a session holds nothing at all; `ErrorExit` follows a call
that failed, unless the arguments name no group or their interface has no address. -/
theorem main_lifecycle (standard : winsock.toWinsock.Standard)
    (inetAddr : ∀ host, winsock.inetAddr (dottedQuad host) = htonl host)
    {trace : List ((request : ApiCall) × ApiAnswer request)} {rest : ApiProgram Int32}
    (reached : (main argparse winsock adapters argv).Reaches trace rest)
    (allowed : (apiContract winsock).Allowed {} trace) :
    let resources := (apiContract winsock).after {} trace
    match rest with
    | .call request _ => resources.permits winsock request
    | .done status =>
        status = 0 ∧ Released resources ∨ (status = 1 ∨ status = -1) ∧ resources = {}
    | .stop (.errorExit _) => resources.failed = true ∨
        ∃ args ifIndex, Opens argparse winsock adapters argv args ifIndex ∧
          (args.mcastAddrStr = [] ∨ bindAddress winsock.toWinsock ifIndex = none)
    | .stop _ => resources = {} := by
  have kept := (keeps_main standard inetAddr).reaches reached allowed
  cases rest with
  | call request resume => exact kept.1
  | done status => exact kept
  | stop reason =>
      cases reason with
      | errorExit error =>
          by_cases asExpected : ∀ args ifIndex, Opens argparse winsock adapters argv args ifIndex →
              args.mcastAddrStr ≠ [] ∧ bindAddress winsock.toWinsock ifIndex ≠ none
          · exact .inl (kept asExpected)
          · simp only [not_forall, not_and_or, not_not] at asExpected
            obtain ⟨args, ifIndex, opens, odd⟩ := asExpected
            exact .inr ⟨args, ifIndex, opens, odd⟩
      | exited status output => exact kept
      | exitedInLibrary status => exact kept
      | terminated thrown => exact kept

end

def newHandle (held : List Handle) : Option Handle :=
  let handle := 65536 * UInt64.ofNat (held.length + 1)
  if handle ∈ held then none else some handle

theorem newHandle_not_mem {held : List Handle} {handle : Handle}
    (made : newHandle held = some handle) : handle ∉ held := by
  rw [newHandle] at made
  by_cases taken : 65536 * UInt64.ofNat (held.length + 1) ∈ held
  · rw [if_pos taken] at made
    cases made
  · rw [if_neg taken] at made
    exact Option.some.inj made ▸ taken

def grantingApi (resources : Resources) : (request : ApiCall) → ApiAnswer request
  | .wsaStartup | .bind .. | .wsaIoctl _ | .closesocket _ | .virtualFreeEx _ => true
  | .wsaSocket | .createIoCompletionPort | .rioCreateRequestQueue .. => some 1
  | .rioCreateCompletionQueue _ iocpHandle => iocpHandle
  | .virtualAllocExNuma _ => newHandle (resources.regions.map Prod.fst)
  | .rioRegisterBuffer .. => newHandle (resources.buffers.map RegisteredBuffer.bufferId)
  | .setReuseAddr _ | .addMembership .. | .setMulticastIf .. => 0
  | .getLargePageMinimum => 0
  | .getSystemInfo => 65536
  | .start _ => none
  | .setConsoleCtrlHandler | .rioCloseCompletionQueue _ | .rioDeregisterBuffer _
  | .wsaCleanup => ()

theorem grantingApi_allowed (resources : Resources) (request : ApiCall) :
    resources.allows request (grantingApi resources request) := by
  cases request with
  | virtualAllocExNuma size =>
      rw [grantingApi]
      cases made : newHandle (resources.regions.map Prod.fst) with
      | none => exact trivial
      | some pointer =>
          intro region member same
          exact newHandle_not_mem made (same ▸ List.mem_map_of_mem member)
  | rioRegisterBuffer pointer size =>
      rw [grantingApi]
      cases made : newHandle (resources.buffers.map RegisteredBuffer.bufferId) with
      | none => exact trivial
      | some bufferId =>
          intro buffer member same
          exact newHandle_not_mem made (same ▸ List.mem_map_of_mem member)
  | rioCreateCompletionQueue size iocpHandle =>
      cases iocpHandle with
      | none => exact trivial
      | some port => exact nofun
  | setReuseAddr socket => exact .inl rfl
  | addMembership socket multiaddr interface => exact .inl rfl
  | setMulticastIf socket interface => exact .inl rfl
  | getSystemInfo => exact (show (0 : UInt32) < 65536 by decide)
  | _ => exact trivial

def referenceAddresses : WinsockAddresses :=
  { referenceWinsock with inetAddr := fun text => (WinsockReference.inetPton text).getD 4294967295 }

theorem referenceAddresses_inetAddr (host : UInt32) :
    referenceAddresses.inetAddr (dottedQuad host) = htonl host := by
  have read := WinsockReference.inetPton_dottedQuad host
  exact congrArg (Option.getD · 4294967295) read

def twoGroupsArgv : List Text :=
  ["producer".toList, "--nic".toList, "Wi-Fi".toList, "--mcast_ip".toList,
    "239.5.69.2-239.5.69.3".toList]

def twoGroupsOptions : Options where
  command := "producer".toList
  nic := "Wi-Fi".toList
  mcastIp := "239.5.69.2-239.5.69.3".toList

def twoGroupsArgs : Args :=
  { twoGroupsOptions.toArgs [⟨htonl (WinsockReference.ofOctets 239 5 69 2)⟩,
      ⟨htonl (WinsockReference.ofOctets 239 5 69 3)⟩] with ifIndex := "192.168.0.7".toList }

theorem main_twoGroups :
    main OptionParser.referenceArgparse referenceAddresses officeApi twoGroupsArgv =
      runSession referenceAddresses twoGroupsArgs := by
  have read := @parseArguments_twoGroups twoGroupsOptions rfl
  have parsed : OptionParser.parseArguments OptionParser.referenceArgparse
      referenceAddresses.toWinsock twoGroupsArgv = .returned _ := congrArg Outcome.ofExcept read
  rw [main, parsed]
  rfl

theorem main_lifecycle_two_groups : ∃ trace,
    (main OptionParser.referenceArgparse referenceAddresses officeApi twoGroupsArgv).Reaches
      trace (.done 0) ∧
    (apiContract referenceAddresses).Allowed {} trace ∧
    Released ((apiContract referenceAddresses).after {} trace) := by
  let program := main OptionParser.referenceArgparse referenceAddresses officeApi twoGroupsArgv
  have granted : (program.play (apiContract referenceAddresses) grantingApi {}).2 = .done 0 := by
    rw [show program = _ from main_twoGroups]
    exact Program.eq_done_of_returned (by decide +kernel)
  have reached := program.reaches_play (apiContract referenceAddresses) grantingApi {}
  rw [granted] at reached
  have allowed := program.allowed_play (apiContract referenceAddresses) grantingApi
    grantingApi_allowed {}
  refine ⟨_, reached, allowed, ?_⟩
  rcases main_lifecycle referenceWinsock_standard referenceAddresses_inetAddr reached allowed with
    ⟨_, released⟩ | ⟨other, _⟩
  · exact released
  · exact absurd other (by decide)

end RioClient
