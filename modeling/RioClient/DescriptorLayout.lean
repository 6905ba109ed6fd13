import RioClient.BufferSizes
import RioClient.ConsumerCore
import RioClient.ProducerRuns

/-!
Where the descriptors of both sessions point. A consumer's windows lie side by
side; the producer fills its data descriptors in a loop over two indexes, and those
of one packet name the same window.
-/

namespace RioClient

namespace RioBuf

def Covers (descriptor : RioBuf) (byte : Nat) : Prop :=
  descriptor.offset.toNat ≤ byte ∧ byte < descriptor.offset.toNat + descriptor.length.toNat

def Overlaps (left right : RioBuf) : Prop := ∃ byte, left.Covers byte ∧ right.Covers byte

end RioBuf

/-- Descriptor `index` names window number `slot index` of a buffer divided into
windows of one length, and no offset up to its end has wrapped. -/
def Tiled (descriptors : List RioBuf) (length : UInt32) (slot : Nat → Nat) : Prop :=
  ∀ index descriptor, descriptors[index]? = some descriptor →
    descriptor.offset.toNat = slot index * length.toNat ∧ descriptor.length = length ∧
      slot index * length.toNat + length.toNat < 2 ^ 32

def LieIn (descriptors : List RioBuf) (bufferSize : UInt32) : Prop :=
  ∀ descriptor ∈ descriptors,
    descriptor.offset.toNat + descriptor.length.toNat ≤ bufferSize.toNat

theorem window_end_le {slot count length : Nat} (bound : slot < count) :
    slot * length + length ≤ count * length := by
  rw [← Nat.succ_mul]
  exact Nat.mul_le_mul_right length bound

section
variable {descriptors : List RioBuf} {length : UInt32} {slot : Nat → Nat}

theorem Tiled.lieIn {count : Nat} {bufferSize : UInt32} (tiled : Tiled descriptors length slot)
    (bound : ∀ index < descriptors.length, slot index < count)
    (room : length.toNat * count ≤ bufferSize.toNat) : LieIn descriptors bufferSize := by
  intro descriptor member
  obtain ⟨index, inside, rfl⟩ := List.mem_iff_getElem.mp member
  obtain ⟨offset, width, -⟩ := tiled index _ (List.getElem?_eq_getElem inside)
  rw [offset, width]
  rw [Nat.mul_comm] at room
  exact Nat.le_trans (window_end_le (bound index inside)) room

theorem Tiled.overlaps_iff (positive : 0 < length.toNat) (tiled : Tiled descriptors length slot)
    {first second : Nat} {left right : RioBuf} (leftIs : descriptors[first]? = some left)
    (rightIs : descriptors[second]? = some right) :
    left.Overlaps right ↔ slot first = slot second := by
  obtain ⟨leftOffset, leftWidth, -⟩ := tiled first left leftIs
  obtain ⟨rightOffset, rightWidth, -⟩ := tiled second right rightIs
  have leftBefore := @window_end_le (slot first) (slot second) length.toNat
  have rightBefore := @window_end_le (slot second) (slot first) length.toNat
  constructor
  · rintro ⟨byte, ⟨leftStart, leftEnd⟩, ⟨rightStart, rightEnd⟩⟩
    rw [leftOffset, leftWidth] at *
    rw [rightOffset, rightWidth] at *
    rcases Nat.lt_trichotomy (slot first) (slot second) with before | same | behind
    · have apart := leftBefore before
      omega
    · exact same
    · have apart := rightBefore behind
      omega
  · intro same
    refine ⟨slot first * length.toNat, ⟨?_, ?_⟩, ⟨?_, ?_⟩⟩
    · rw [leftOffset]
    · rw [leftOffset, leftWidth]
      omega
    · rw [rightOffset, same]
    · rw [rightOffset, rightWidth, same]
      omega

theorem Tiled.apart (positive : 0 < length.toNat) (tiled : Tiled descriptors length id) :
    descriptors.Pairwise fun left right => ¬left.Overlaps right := by
  rw [List.pairwise_iff_getElem]
  intro first second firstInside secondInside order shared
  have same := (tiled.overlaps_iff positive (List.getElem?_eq_getElem firstInside)
    (List.getElem?_eq_getElem secondInside)).mp shared
  exact Nat.ne_of_lt order same

end

theorem tiled_fillDescriptors {bufferId : BufferId} {length : UInt32} {count : Nat}
    (fits : count * length.toNat < 2 ^ 32) :
    Tiled (fillDescriptors bufferId length count 0) length id := by
  intro index descriptor found
  have inside : index < count := by
    obtain ⟨inside, -⟩ := List.getElem?_eq_some_iff.mp found
    rwa [length_fillDescriptors] at inside
  have window := @window_end_le index count length.toNat inside
  rw [getElem?_fillDescriptors inside] at found
  cases found
  refine ⟨?_, rfl, ?_⟩
  · dsimp only
    rw [UInt32.zero_add, toNat_ofNat_mul (by omega), id]
  · rw [id]
    omega

theorem lieIn_fillDescriptors {bufferId : BufferId} {length bufferSize : UInt32} {count : Nat}
    (fits : count * length.toNat < 2 ^ 32) (room : length.toNat * count ≤ bufferSize.toNat) :
    LieIn (fillDescriptors bufferId length count 0) bufferSize := by
  apply (tiled_fillDescriptors fits).lieIn _ room
  intro index inside
  rwa [length_fillDescriptors] at inside

theorem tiled_flatMap {descriptors : List RioBuf} {length : UInt32} {copies : Nat}
    (positive : 0 < copies) (tiled : Tiled descriptors length id) :
    Tiled (descriptors.flatMap (List.replicate copies)) length (· / copies) := by
  intro index descriptor found
  rw [getElem?_flatMap_replicate positive] at found
  exact tiled (index / copies) descriptor found

/-! The loop of `PostFirstSend` over packets and groups, as the stores it makes. -/

def groupWrites (numberOfMcGroups i offset : UInt32) : List (UInt32 × RioBuf) :=
  (List.range numberOfMcGroups.toNat).map fun j =>
    (numberOfMcGroups * i + UInt32.ofNat j, ⟨.rioBuff, offset, expectedDataSize⟩)

def firstSendWrites (numberOfMcGroups : UInt32) : Nat → UInt32 → UInt32 → List (UInt32 × RioBuf)
  | 0, _, _ => []
  | count + 1, i, offset =>
      groupWrites numberOfMcGroups i offset ++
        firstSendWrites numberOfMcGroups count (i + 1) (offset + expectedDataSize)

section
variable {groups : UInt32} {count packet : Nat}

theorem indexes_groupWrites (offset : UInt32)
    (fits : groups.toNat * (packet + 1) ≤ 1000000) :
    (groupWrites groups (UInt32.ofNat packet) offset).map (fun write => write.1.toNat) =
      List.range' (groups.toNat * packet) groups.toNat := by
  rw [Nat.mul_succ] at fits
  have product : (groups * UInt32.ofNat packet).toNat = groups.toNat * packet := by
    rw [UInt32.mul_comm, toNat_ofNat_mul (by rw [Nat.mul_comm]; omega), Nat.mul_comm]
  rw [groupWrites, List.map_map, List.range'_eq_map_range]
  refine List.map_congr_left fun j member => ?_
  have inside := List.mem_range.mp member
  have small : (UInt32.ofNat j).toNat = j :=
    UInt32.toNat_ofNat_of_lt' (Nat.lt_trans inside groups.toNat_lt)
  rw [Function.comp_apply, UInt32.toNat_add, product, small, Nat.mod_eq_of_lt (by omega)]

theorem indexes_firstSendWrites (offset : UInt32)
    (fits : groups.toNat * (packet + count) ≤ 1000000) :
    (firstSendWrites groups count (UInt32.ofNat packet) offset).map
        (fun write => write.1.toNat) =
      List.range' (groups.toNat * packet) (groups.toNat * count) := by
  induction count generalizing packet offset with
  | zero => rfl
  | succ count ih =>
      have next : UInt32.ofNat packet + 1 = UInt32.ofNat (packet + 1) :=
        (UInt32.ofNat_add packet 1).symm
      have shifted : packet + 1 + count = packet + (count + 1) := by omega
      have first : groups.toNat * (packet + 1) ≤ 1000000 :=
        Nat.le_trans (Nat.mul_le_mul_left _ (by omega)) fits
      have rest := @ih (packet + 1) (offset + expectedDataSize) (by rwa [shifted])
      rw [firstSendWrites, List.map_append, indexes_groupWrites offset first, next, rest,
        Nat.mul_succ, List.range'_append_1, Nat.mul_succ, Nat.add_comm]

theorem values_firstSendWrites (i offset : UInt32) :
    (firstSendWrites groups count i offset).map Prod.snd =
      (fillDescriptors .rioBuff expectedDataSize count offset).flatMap
        (List.replicate groups.toNat) := by
  induction count generalizing i offset with
  | zero => rfl
  | succ count ih =>
      have same : (groupWrites groups i offset).map Prod.snd =
          List.replicate groups.toNat ⟨.rioBuff, offset, expectedDataSize⟩ := by
        rw [groupWrites, List.map_map]
        simp [Function.comp_def]
      rw [firstSendWrites, List.map_append, same, ih, fillDescriptors, List.flatMap_cons]

end

def storeAll (writes : List (UInt32 × RioBuf)) (descriptors : List RioBuf) : List RioBuf :=
  writes.foldl (fun descriptors write => descriptors.set write.1.toNat write.2) descriptors

/-- Stores to consecutive indexes behind `front` replace what stood there. -/
theorem storeAll_append {writes : List (UInt32 × RioBuf)} (front old : List RioBuf)
    (indexes : writes.map (fun write => write.1.toNat) = List.range' front.length old.length) :
    storeAll writes (front ++ old) = front ++ writes.map Prod.snd := by
  induction writes generalizing front old with
  | nil =>
      cases old with
      | nil => rfl
      | cons descriptor old => cases indexes
  | cons write writes ih =>
      cases old with
      | nil => cases indexes
      | cons descriptor old =>
          rw [List.map_cons, List.length_cons, List.range'_succ, List.cons.injEq] at indexes
          have stored : (front ++ descriptor :: old).set write.1.toNat write.2 =
              (front ++ [write.2]) ++ old := by
            rw [indexes.1, List.set_append_right _ _ (Nat.le_refl _), Nat.sub_self,
              List.set_cons_zero, List.append_assoc, List.singleton_append]
          have rest := ih (front ++ [write.2]) old (by simpa using indexes.2)
          rw [storeAll, List.foldl_cons, stored, ← storeAll, rest, List.map_cons,
            List.append_assoc, List.singleton_append]

structure ConsumerLayout (api : MemoryApi) (maxOutstandingReceive : UInt32) : Prop where
  dataCount : (rioBuffDescr maxOutstandingReceive).length = maxOutstandingReceive.toNat
  addressCount : (mcAddrDescr maxOutstandingReceive).length = maxOutstandingReceive.toNat
  dataInBuffer : ∀ buffer,
    allocateAndRegisterBuffer api expectedDataSize maxOutstandingReceive = .ok buffer →
      LieIn (rioBuffDescr maxOutstandingReceive) buffer.bufferSize
  addressesInBuffer : ∀ buffer,
    allocateAndRegisterBuffer api addrSize maxOutstandingReceive = .ok buffer →
      LieIn (mcAddrDescr maxOutstandingReceive) buffer.bufferSize
  dataOffsets : Tiled (rioBuffDescr maxOutstandingReceive) expectedDataSize id
  addressOffsets : Tiled (mcAddrDescr maxOutstandingReceive) addrSize id
  dataApart : (rioBuffDescr maxOutstandingReceive).Pairwise
    fun left right => ¬left.Overlaps right
  addressesApart : (mcAddrDescr maxOutstandingReceive).Pairwise
    fun left right => ¬left.Overlaps right

namespace ProducerArgs

def numberOfMcGroups32 (args : ProducerArgs) : UInt32 := UInt32.ofNat args.numberOfMcGroups

def descriptorWrites (args : ProducerArgs) : List (UInt32 × RioBuf) :=
  firstSendWrites args.numberOfMcGroups32 args.rate 0 0

variable (args : ProducerArgs)

theorem toNat_packetRate : args.packetRate.toUInt32.toNat = args.rate := by
  have positive := args.rate_pos
  have signed : (0 : Int32) ≤ args.packetRate := by
    rw [Int32.le_iff_toInt_le, show (0 : Int32).toInt = 0 from rfl]
    omega
  rw [Int32.toNat_toUInt32_of_le signed, rate, Int32.toNat_toInt]

theorem numberOfMcGroups_le : args.numberOfMcGroups ≤ 1000000 :=
  Nat.le_trans (Nat.le_mul_of_pos_left _ args.rate_positive) args.maxOutstandingSend_le

theorem toNat_numberOfMcGroups32 : args.numberOfMcGroups32.toNat = args.numberOfMcGroups :=
  UInt32.toNat_ofNat_of_lt' (Nat.lt_of_le_of_lt args.numberOfMcGroups_le (by decide))

theorem indexes_descriptorWrites : args.descriptorWrites.map (fun write => write.1.toNat) =
    List.range (args.rate * args.numberOfMcGroups) := by
  have limit : args.numberOfMcGroups32.toNat * (0 + args.rate) ≤ 1000000 := by
    rw [args.toNat_numberOfMcGroups32, Nat.zero_add, Nat.mul_comm]
    exact args.maxOutstandingSend_le
  have written := @indexes_firstSendWrites args.numberOfMcGroups32 args.rate 0 0 limit
  rwa [args.toNat_numberOfMcGroups32, Nat.mul_zero, Nat.mul_comm, ← List.range_eq_range']
    at written

theorem values_descriptorWrites : args.descriptorWrites.map Prod.snd = args.rioBuffDescr := by
  rw [descriptorWrites, values_firstSendWrites, args.toNat_numberOfMcGroups32, rioBuffDescr]

theorem length_rioBuffDescr :
    args.rioBuffDescr.length = args.rate * args.numberOfMcGroups := by
  have lengths := congrArg List.length args.indexes_descriptorWrites
  rwa [List.length_map, List.length_range, ← List.length_map Prod.snd,
    args.values_descriptorWrites] at lengths

/-- Whatever the array held before, the stores of the two loops leave the descriptors in it. -/
theorem storeAll_descriptorWrites {descriptors : List RioBuf}
    (length : descriptors.length = args.maxOutstandingSend) :
    storeAll args.descriptorWrites descriptors = args.rioBuffDescr := by
  have indexes : args.descriptorWrites.map (fun write => write.1.toNat) =
      List.range' ([] : List RioBuf).length descriptors.length := by
    rw [args.indexes_descriptorWrites, List.range_eq_range', List.length_nil, length]
    rfl
  have stored := storeAll_append [] descriptors indexes
  rwa [List.nil_append, List.nil_append, args.values_descriptorWrites] at stored

end ProducerArgs

structure ProducerLayout (api : MemoryApi) (args : ProducerArgs) : Prop where
  dataCount : args.rioBuffDescr.length = args.rate * args.numberOfMcGroups
  addressCount : args.mcAddrDescr.length = args.numberOfMcGroups
  dataInBuffer : ∀ buffer,
    allocateAndRegisterBuffer api expectedDataSize args.packetRate.toUInt32 = .ok buffer →
      LieIn args.rioBuffDescr buffer.bufferSize
  addressesInBuffer : ∀ buffer,
    allocateAndRegisterBuffer api addrSize args.numberOfMcGroups32 = .ok buffer →
      LieIn args.mcAddrDescr buffer.bufferSize
  dataOffsets : Tiled args.rioBuffDescr expectedDataSize (· / args.numberOfMcGroups)
  addressOffsets : Tiled args.mcAddrDescr addrSize id
  indexes : args.descriptorWrites.map (fun write => write.1.toNat) =
    List.range (args.rate * args.numberOfMcGroups)
  filled : ∀ descriptors : List RioBuf, descriptors.length = args.maxOutstandingSend →
    storeAll args.descriptorWrites descriptors = args.rioBuffDescr
  overlaps_iff : ∀ first second left right, args.rioBuffDescr[first]? = some left →
    args.rioBuffDescr[second]? = some right →
      (left.Overlaps right ↔ first / args.numberOfMcGroups = second / args.numberOfMcGroups)

section
variable {api : MemoryApi}

theorem consumerLayout (granular : 1 ≤ api.dwAllocationGranularity.toNat)
    {maxOutstandingReceive : UInt32}
    (addressable : maxOutstandingReceive.toNat * max expectedDataSize.toNat addrSize.toNat <
      2 ^ 32) : ConsumerLayout api maxOutstandingReceive := by
  have data : expectedDataSize.toNat = 100 := rfl
  have address : addrSize.toNat = 28 := rfl
  rw [data, address, show max 100 28 = 100 from rfl] at addressable
  have dataFits : maxOutstandingReceive.toNat * expectedDataSize.toNat < 2 ^ 32 := by
    rw [data]
    omega
  have addressFits : maxOutstandingReceive.toNat * addrSize.toNat < 2 ^ 32 := by
    rw [address]
    omega
  constructor
  case dataCount => exact length_fillDescriptors _ _ _ _
  case addressCount => exact length_fillDescriptors _ _ _ _
  case dataInBuffer =>
    intro buffer returned
    exact lieIn_fillDescriptors dataFits (product_le_bufferSize (by decide) granular returned)
  case addressesInBuffer =>
    intro buffer returned
    exact lieIn_fillDescriptors addressFits (product_le_bufferSize (by decide) granular returned)
  case dataOffsets => exact tiled_fillDescriptors dataFits
  case addressOffsets => exact tiled_fillDescriptors addressFits
  case dataApart => exact (tiled_fillDescriptors dataFits).apart (by decide)
  case addressesApart => exact (tiled_fillDescriptors addressFits).apart (by decide)

theorem producerLayout (granular : 1 ≤ api.dwAllocationGranularity.toNat) (args : ProducerArgs) :
    ProducerLayout api args := by
  have data : expectedDataSize.toNat = 100 := rfl
  have address : addrSize.toNat = 28 := rfl
  have rateLimit := args.rate_le
  have groupsLimit := args.numberOfMcGroups_le
  have dataFits : args.rate * expectedDataSize.toNat < 2 ^ 32 := by
    rw [data]
    omega
  have addressFits : args.numberOfMcGroups * addrSize.toNat < 2 ^ 32 := by
    rw [address]
    omega
  have dataTiled : Tiled args.rioBuffDescr expectedDataSize (· / args.numberOfMcGroups) :=
    tiled_flatMap args.numberOfMcGroups_pos (tiled_fillDescriptors dataFits)
  constructor
  case dataCount => exact args.length_rioBuffDescr
  case addressCount => exact length_fillDescriptors _ _ _ _
  case dataInBuffer =>
    intro buffer returned
    have room := product_le_bufferSize (by decide) granular returned
    rw [args.toNat_packetRate] at room
    apply dataTiled.lieIn _ room
    intro index inside
    rw [args.length_rioBuffDescr] at inside
    exact (Nat.div_lt_iff_lt_mul args.numberOfMcGroups_pos).mpr inside
  case addressesInBuffer =>
    intro buffer returned
    have room := product_le_bufferSize (by decide) granular returned
    rw [args.toNat_numberOfMcGroups32] at room
    exact lieIn_fillDescriptors addressFits room
  case dataOffsets => exact dataTiled
  case addressOffsets => exact tiled_fillDescriptors addressFits
  case indexes => exact args.indexes_descriptorWrites
  case filled => exact fun _ => args.storeAll_descriptorWrites
  case overlaps_iff =>
    intro first second left right leftIs rightIs
    exact dataTiled.overlaps_iff (by decide) leftIs rightIs

/-- The descriptors of both sessions lie in their buffers, for every ring size
that 32-bit offsets can address and all arguments that `Check` lets through. -/
theorem descriptor_layout (granular : 1 ≤ api.dwAllocationGranularity.toNat)
    {maxOutstandingReceive : UInt32}
    (addressable : maxOutstandingReceive.toNat * max expectedDataSize.toNat addrSize.toNat <
      2 ^ 32) (args : ProducerArgs) :
    ConsumerLayout api maxOutstandingReceive ∧ ProducerLayout api args :=
  ⟨consumerLayout granular addressable, producerLayout granular args⟩

end

theorem descriptor_layout_pending_recvs :
    ConsumerLayout generousMemory 1500000 ∧ ProducerLayout generousMemory twoGroupArgs :=
  descriptor_layout (by decide) (by decide) twoGroupArgs

end RioClient
