import Mathlib.Algebra.Order.Floor.Div
import RioClient.BufferCore

/-!
The sizes of registered buffers. A size is accepted exactly when the whole
product fits into the largest multiple of the granularity below 2^32, so that a
product that wrapped in 32 bits is always rejected by the last comparison.
-/

namespace RioClient

section
variable {unit size limit : Nat}

theorem mul_ceilDiv_le_iff (positive : 0 < unit) :
    unit * (size ⌈/⌉ unit) ≤ limit ↔ size ≤ limit / unit * unit := by
  have floor : size ⌈/⌉ unit ≤ limit ⌊/⌋ unit ↔ unit * (size ⌈/⌉ unit) ≤ limit :=
    le_floorDiv_iff_smul_le positive
  have ceil : size ⌈/⌉ unit ≤ limit ⌊/⌋ unit ↔ size ≤ unit * (limit ⌊/⌋ unit) :=
    ceilDiv_le_iff_le_smul positive
  rw [← floor, ceil, Nat.floorDiv_eq_div, Nat.mul_comm]

theorem isLeast_mul_ceilDiv (positive : 0 < unit) :
    IsLeast {multiple | unit ∣ multiple ∧ size ≤ multiple} (unit * (size ⌈/⌉ unit)) := by
  constructor
  · exact ⟨Nat.dvd_mul_right _ _, le_smul_ceilDiv positive⟩
  · rintro _ ⟨⟨count, rfl⟩, large⟩
    exact Nat.mul_le_mul_left unit ((ceilDiv_le_iff_le_smul positive).mpr large)

theorem ceilDiv_eq (positive : 0 < unit) :
    size ⌈/⌉ unit = size / unit + if size % unit > 0 then 1 else 0 := by
  have parts := Nat.div_add_mod size unit
  have below := Nat.mod_lt size positive
  apply Nat.le_antisymm
  · refine (ceilDiv_le_iff_le_smul positive).mpr ?_
    rw [smul_eq_mul, Nat.mul_add]
    split <;> omega
  · split
    · rename_i rest
      by_contra small
      have whole : size ⌈/⌉ unit ≤ size / unit := by omega
      have covered := (ceilDiv_le_iff_le_smul positive).mp whole
      rw [smul_eq_mul] at covered
      omega
    · have ordered : size ⌊/⌋ unit ≤ size ⌈/⌉ unit := floorDiv_le_ceilDiv
      exact ordered

end

section
variable {multiple : UInt64} {value : UInt64}

theorem toNat_roundUp (positive : 0 < multiple.toNat) (small : value.toNat < 2 ^ 32) :
    (roundUp value multiple).toNat = multiple.toNat * (value.toNat ⌈/⌉ multiple.toNat) := by
  have bound := multiple.toNat_lt
  have down : (roundDown value multiple).toNat = value.toNat / multiple.toNat * multiple.toNat := by
    have below := Nat.div_mul_le_self value.toNat multiple.toNat
    rw [roundDown, UInt64.toNat_mul, UInt64.toNat_div, Nat.mod_eq_of_lt (by omega)]
  have room : value.toNat / multiple.toNat * multiple.toNat + multiple.toNat < 2 ^ 64 := by
    by_cases large : multiple.toNat ≤ value.toNat
    · have below := Nat.div_mul_le_self value.toNat multiple.toNat
      omega
    · rw [Nat.div_eq_of_lt (Nat.not_le.mp large)]
      omega
  have rest : value % multiple > 0 ↔ value.toNat % multiple.toNat > 0 := by
    rw [gt_iff_lt, UInt64.lt_iff_toNat_lt, UInt64.toNat_mod]
    rfl
  rw [ceilDiv_eq positive, Nat.mul_add, roundUp]
  by_cases some : value.toNat % multiple.toNat > 0
  · rw [if_pos (rest.mpr some), if_pos some, UInt64.toNat_add, down, Nat.mod_eq_of_lt room,
      Nat.mul_one, Nat.mul_comm]
  · rw [if_neg (rest.not.mpr some), if_neg some, UInt64.add_zero, down, Nat.mul_zero,
      Nat.add_zero, Nat.mul_comm]

end

section
variable {api : MemoryApi} {granularity : UInt64} {messageSize totalMessages : UInt32}

def sizeLimit (granularity : Nat) : Nat := (2 ^ 32 - 1) / granularity * granularity

theorem sizeLimit_lt (granularity : Nat) : sizeLimit granularity < 2 ^ 32 :=
  Nat.lt_of_le_of_lt (Nat.div_mul_le_self _ _) (by decide)

theorem toNat_actualSize (positive : 0 < granularity.toNat) :
    (actualSize granularity messageSize totalMessages).toNat =
      let desired := messageSize.toNat * totalMessages.toNat % 2 ^ 32
      if desired ≤ sizeLimit granularity.toNat then
        granularity.toNat * (desired ⌈/⌉ granularity.toNat)
      else sizeLimit granularity.toNat := by
  have desired : (messageSize * totalMessages).toUInt64.toNat =
      messageSize.toNat * totalMessages.toNat % 2 ^ 32 := by
    rw [UInt32.toNat_toUInt64, UInt32.toNat_mul]
  have small : messageSize.toNat * totalMessages.toNat % 2 ^ 32 < 2 ^ 32 :=
    Nat.mod_lt _ (by decide)
  have rounded := @toNat_roundUp granularity (messageSize * totalMessages).toUInt64 positive
    (desired ▸ small)
  have clamp : (4294967295 / granularity * granularity).toNat = sizeLimit granularity.toNat := by
    have below := sizeLimit_lt granularity.toNat
    rw [sizeLimit] at below
    rw [UInt64.toNat_mul, UInt64.toNat_div, show (4294967295 : UInt64).toNat = 2 ^ 32 - 1 from rfl,
      Nat.mod_eq_of_lt (by omega), sizeLimit]
  have fits := @mul_ceilDiv_le_iff granularity.toNat
    (messageSize.toNat * totalMessages.toNat % 2 ^ 32) (2 ^ 32 - 1) positive
  rw [desired] at rounded
  simp only [actualSize]
  rw [← sizeLimit] at fits
  by_cases inside :
      messageSize.toNat * totalMessages.toNat % 2 ^ 32 ≤ sizeLimit granularity.toNat
  · have below : ¬roundUp (messageSize * totalMessages).toUInt64 granularity > 4294967295 := by
      rw [gt_iff_lt, UInt64.not_lt, UInt64.le_iff_toNat_le, rounded]
      exact fits.mpr inside
    rw [if_neg below, if_pos inside, rounded]
  · have above : roundUp (messageSize * totalMessages).toUInt64 granularity > 4294967295 := by
      rw [gt_iff_lt, UInt64.lt_iff_toNat_lt, rounded]
      exact Nat.lt_of_not_le (fits.not.mpr inside)
    rw [if_pos above, if_neg inside, clamp]

theorem toNat_granularity (api : MemoryApi) :
    (RioClient.granularity api).toNat = api.dwAllocationGranularity.toNat :=
  UInt32.toNat_toUInt64 _

/-- The comparison of the counts asks whether the exact product fits. -/
theorem receiveBuffersAllocated_eq_iff {size : UInt64} (positive : 0 < messageSize.toNat)
    (small : size.toNat < 2 ^ 32) :
    (let fitting := (size / messageSize.toUInt64).toUInt32
      if fitting < totalMessages then fitting else totalMessages) = totalMessages ↔
      messageSize.toNat * totalMessages.toNat ≤ size.toNat := by
  have below := Nat.div_le_self size.toNat messageSize.toNat
  have count : (size / messageSize.toUInt64).toUInt32.toNat = size.toNat / messageSize.toNat := by
    rw [UInt64.toNat_toUInt32, UInt64.toNat_div, UInt32.toNat_toUInt64, Nat.mod_eq_of_lt (by omega)]
  have fits : ¬(size / messageSize.toUInt64).toUInt32 < totalMessages ↔
      messageSize.toNat * totalMessages.toNat ≤ size.toNat := by
    rw [UInt32.not_lt, UInt32.le_iff_toNat_le, count, Nat.le_div_iff_mul_le positive, Nat.mul_comm]
  rw [← fits]
  dsimp only
  split
  · rename_i fewer
    exact iff_of_false (UInt32.ne_of_lt fewer) (Classical.not_not.mpr fewer)
  · rename_i enough
    exact iff_of_true rfl enough

theorem toNat_actualSize_lt (positive : 0 < granularity.toNat) :
    (actualSize granularity messageSize totalMessages).toNat < 2 ^ 32 := by
  have fits := @mul_ceilDiv_le_iff granularity.toNat
    (messageSize.toNat * totalMessages.toNat % 2 ^ 32) (2 ^ 32 - 1) positive
  rw [toNat_actualSize positive]
  dsimp only
  split
  · rename_i inside
    have size := fits.mpr inside
    omega
  · exact sizeLimit_lt _

theorem product_le_actualSize_iff (positive : 0 < granularity.toNat) :
    messageSize.toNat * totalMessages.toNat ≤
        (actualSize granularity messageSize totalMessages).toNat ↔
      messageSize.toNat * totalMessages.toNat ≤ sizeLimit granularity.toNat := by
  have limit := sizeLimit_lt granularity.toNat
  have size := @toNat_actualSize_lt granularity messageSize totalMessages positive
  by_cases wraps : 2 ^ 32 ≤ messageSize.toNat * totalMessages.toNat
  · -- both sizes stay below 2^32, and the exact product does not
    exact iff_of_false (by omega) (by omega)
  · rw [toNat_actualSize positive, Nat.mod_eq_of_lt (Nat.lt_of_not_le wraps)]
    dsimp only
    split
    · rename_i inside
      exact iff_of_true (le_smul_ceilDiv positive) inside
    · rfl

theorem allocateBufferSpace_eq_ok {space : BufferSpace}
    (allocated : allocateBufferSpace api messageSize totalMessages = .ok space) :
    let size := actualSize (RioClient.granularity api) messageSize totalMessages
    let fitting := (size / messageSize.toUInt64).toUInt32
    space.bufferSize = size.toUInt32 ∧
      space.receiveBuffersAllocated =
        if fitting < totalMessages then fitting else totalMessages := by
  simp only [allocateBufferSpace] at allocated
  split at allocated
  · cases allocated
  · cases allocated
    exact ⟨rfl, rfl⟩

theorem allocateAndRegisterBuffer_eq_ok_iff {space : BufferSpace} {bufferId : UInt64}
    (allocated : allocateBufferSpace api messageSize totalMessages = .ok space)
    (registered : api.rioRegisterBuffer space.pBuffer space.bufferSize = some bufferId)
    {buffer : RegisteredBuffer} :
    allocateAndRegisterBuffer api messageSize totalMessages = .ok buffer ↔
      space.receiveBuffersAllocated = totalMessages ∧
        buffer = ⟨space.pBuffer, bufferId, space.bufferSize⟩ := by
  have returned : allocateAndRegisterBuffer api messageSize totalMessages =
      if space.receiveBuffersAllocated ≠ totalMessages then
        .error ⟨"RIORegisterBuffer".toList⟩
      else .ok ⟨space.pBuffer, bufferId, space.bufferSize⟩ := by
    rw [allocateAndRegisterBuffer, allocated]
    simp only [bind, Except.bind, registered]
    split <;> rfl
  rw [returned]
  split
  · rename_i short
    exact iff_of_false nofun fun whole => short whole.1
  · rename_i whole
    rw [Except.ok.injEq, eq_comm]
    exact ⟨fun same => ⟨Classical.not_not.mp whole, same⟩, And.right⟩

theorem product_le_bufferSize (positive : 1 ≤ messageSize.toNat)
    (granular : 1 ≤ api.dwAllocationGranularity.toNat) {buffer : RegisteredBuffer}
    (returned : allocateAndRegisterBuffer api messageSize totalMessages = .ok buffer) :
    messageSize.toNat * totalMessages.toNat ≤ buffer.bufferSize.toNat := by
  have unitPositive : 0 < (RioClient.granularity api).toNat := toNat_granularity api ▸ granular
  have small := @toNat_actualSize_lt _ messageSize totalMessages unitPositive
  cases allocated : allocateBufferSpace api messageSize totalMessages with
  | error failed =>
      rw [allocateAndRegisterBuffer, allocated] at returned
      cases returned
  | ok space =>
      cases registered : api.rioRegisterBuffer space.pBuffer space.bufferSize with
      | none =>
          simp only [allocateAndRegisterBuffer, allocated, bind, Except.bind, registered]
            at returned
          cases returned
      | some bufferId =>
          obtain ⟨whole, rfl⟩ :=
            (allocateAndRegisterBuffer_eq_ok_iff allocated registered).mp returned
          obtain ⟨size, count⟩ := allocateBufferSpace_eq_ok allocated
          dsimp only at count ⊢
          rw [size, UInt64.toNat_toUInt32, Nat.mod_eq_of_lt small,
            ← receiveBuffersAllocated_eq_iff positive small]
          exact count ▸ whole

/-- Once Windows has given the space and RIO has registered it, the buffer is
returned exactly when all messages fit in multiples of the granularity below
2^32, and its size is then the least one. A product that wraps is never accepted. -/
theorem allocateAndRegisterBuffer_sound (positive : 1 ≤ messageSize.toNat)
    (granular : 1 ≤ api.dwAllocationGranularity.toNat) {space : BufferSpace} {bufferId : UInt64}
    (allocated : allocateBufferSpace api messageSize totalMessages = .ok space)
    (registered : api.rioRegisterBuffer space.pBuffer space.bufferSize = some bufferId) :
    ((∃ buffer, allocateAndRegisterBuffer api messageSize totalMessages = .ok buffer) ↔
      messageSize.toNat * totalMessages.toNat ≤ sizeLimit api.dwAllocationGranularity.toNat) ∧
    (∀ buffer, allocateAndRegisterBuffer api messageSize totalMessages = .ok buffer →
      IsLeast {size | api.dwAllocationGranularity.toNat ∣ size ∧
          messageSize.toNat * totalMessages.toNat ≤ size} buffer.bufferSize.toNat) ∧
    (2 ^ 32 ≤ messageSize.toNat * totalMessages.toNat → ∀ buffer,
      allocateAndRegisterBuffer api messageSize totalMessages ≠ .ok buffer) := by
  have unit := toNat_granularity api
  have unitPositive : 0 < (RioClient.granularity api).toNat := unit ▸ granular
  have small := @toNat_actualSize_lt _ messageSize totalMessages unitPositive
  have fits := @product_le_actualSize_iff _ messageSize totalMessages unitPositive
  obtain ⟨size, count⟩ := allocateBufferSpace_eq_ok allocated
  have returns : (∃ buffer, allocateAndRegisterBuffer api messageSize totalMessages =
      .ok buffer) ↔
      messageSize.toNat * totalMessages.toNat ≤ sizeLimit api.dwAllocationGranularity.toNat := by
    rw [← unit, ← fits, ← receiveBuffersAllocated_eq_iff positive small, ← count]
    simp only [allocateAndRegisterBuffer_eq_ok_iff allocated registered, exists_and_left,
      exists_eq, and_true]
  refine ⟨returns, ?_, ?_⟩
  · intro buffer returned
    have whole := returns.mp ⟨buffer, returned⟩
    have limit := sizeLimit_lt api.dwAllocationGranularity.toNat
    obtain ⟨-, rfl⟩ := (allocateAndRegisterBuffer_eq_ok_iff allocated registered).mp returned
    rw [size, UInt64.toNat_toUInt32, Nat.mod_eq_of_lt small, toNat_actualSize unitPositive,
      Nat.mod_eq_of_lt (Nat.lt_of_le_of_lt whole limit), unit]
    dsimp only
    rw [if_pos whole]
    exact isLeast_mul_ceilDiv granular
  · intro wraps buffer returned
    have whole := returns.mp ⟨buffer, returned⟩
    exact absurd (Nat.lt_of_le_of_lt whole (sizeLimit_lt _)) (Nat.not_lt.mpr wraps)

end

def generousMemory : MemoryApi where
  dwAllocationGranularity := 65536
  getLargePageMinimum := 2097152
  virtualAllocExNuma _ := some 65536
  rioRegisterBuffer _ _ := some 1

theorem allocateAndRegisterBuffer_sound_pending_recvs :
    ∃ buffer, allocateAndRegisterBuffer generousMemory 100 1500000 = .ok buffer ∧
      IsLeast {size | 65536 ∣ size ∧ 100 * 1500000 ≤ size} buffer.bufferSize.toNat := by
  obtain ⟨space, allocated⟩ :
      ∃ space, allocateBufferSpace generousMemory 100 1500000 = .ok space := ⟨_, rfl⟩
  obtain ⟨returns, least, -⟩ := @allocateAndRegisterBuffer_sound generousMemory 100 1500000
    (by decide) (by decide) space 1 allocated rfl
  obtain ⟨buffer, returned⟩ := returns.mpr (by decide)
  exact ⟨buffer, returned, least buffer returned⟩

end RioClient
