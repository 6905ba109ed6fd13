import RioClient.NetworkCore

/-!
`AllocateBufferSpace` and `AllocateAndRegisterBuffer` of `RioSession.cpp`, with
the widths of their intermediate sizes. Windows and RIO are parameters.
-/

namespace RioClient

def largePagesEnabled : Bool := false

/-- `none` is the null pointer of `VirtualAllocExNuma`, and `RIO_INVALID_BUFFERID`. -/
structure MemoryApi where
  dwAllocationGranularity : UInt32
  getLargePageMinimum : UInt64
  virtualAllocExNuma : UInt32 → Option UInt64
  rioRegisterBuffer : UInt64 → UInt32 → Option UInt64

/-- `ErrorExit` prints the function that failed and ends the process. -/
structure ErrorExit where
  pFunction : Text
deriving DecidableEq, Repr

def roundDown (value multiple : UInt64) : UInt64 := value / multiple * multiple

def roundUp (value multiple : UInt64) : UInt64 :=
  roundDown value multiple + (if value % multiple > 0 then multiple else 0)

structure BufferSpace where
  pBuffer : UInt64
  bufferSize : UInt32
  receiveBuffersAllocated : UInt32
deriving DecidableEq, Repr

def granularity (api : MemoryApi) : UInt64 :=
  let largePageMinimum := if largePagesEnabled then api.getLargePageMinimum else 0
  if largePageMinimum = 0 then api.dwAllocationGranularity.toUInt64 else largePageMinimum

/-- `actualSize`: the product has 32 bits, everything after it 64. -/
def actualSize (granularity : UInt64) (messageSize totalMessages : UInt32) : UInt64 :=
  let desiredSize := (messageSize * totalMessages).toUInt64
  let actualSize := roundUp desiredSize granularity
  if actualSize > 4294967295 then 4294967295 / granularity * granularity else actualSize

def allocateBufferSpace (api : MemoryApi) (messageSize totalMessages : UInt32) :
    Except ErrorExit BufferSpace :=
  let actualSize := actualSize (granularity api) messageSize totalMessages
  let fitting := (actualSize / messageSize.toUInt64).toUInt32
  let receiveBuffersAllocated := if fitting < totalMessages then fitting else totalMessages
  let bufferSize := actualSize.toUInt32
  match api.virtualAllocExNuma bufferSize with
  | none => .error ⟨"VirtualAlloc".toList⟩
  | some pBuffer => .ok ⟨pBuffer, bufferSize, receiveBuffersAllocated⟩

structure RegisteredBuffer where
  bufferPointer : UInt64
  bufferId : UInt64
  bufferSize : UInt32
deriving DecidableEq, Repr

def allocateAndRegisterBuffer (api : MemoryApi) (messageSize totalMessages : UInt32) :
    Except ErrorExit RegisteredBuffer := do
  let space ← allocateBufferSpace api messageSize totalMessages
  match api.rioRegisterBuffer space.pBuffer space.bufferSize with
  | none => throw ⟨"RIORegisterBuffer".toList⟩
  | some bufferId =>
      if space.receiveBuffersAllocated ≠ totalMessages then
        throw ⟨"RIORegisterBuffer".toList⟩
      return ⟨space.pBuffer, bufferId, space.bufferSize⟩

end RioClient
