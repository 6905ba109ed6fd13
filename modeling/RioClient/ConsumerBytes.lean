import RioClient.ConsumerAttribution
import RioClient.ConsumerBytesCore
import RioClient.ProducerBytes

/-!
The byte level refines the consumer: the windows of its two buffers lie side by
side, so a datagram written into one of them is read there and nowhere else.
-/

namespace RioClient

open FlatMemory

theorem FitsBuffers.addresses {maxOutstandingReceive : UInt32}
    (fits : FitsBuffers maxOutstandingReceive) :
    maxOutstandingReceive.toNat * addrSize.toNat ≤ 2 ^ 32 :=
  Nat.le_trans (Nat.mul_le_mul_left _ (by decide : addrSize.toNat ≤ expectedDataSize.toNat)) fits

theorem exists_slot {bufferId : BufferId} {length : UInt32} {count : Nat}
    (positive : 0 < length.toNat) (fits : count * length.toNat ≤ 2 ^ 32) (index : Nat) :
    ∃ slot, (offsetOf (fillDescriptors bufferId length count 0) index).toNat =
      slot * length.toNat := by
  by_cases bound : index < count
  · have below : index * length.toNat < 2 ^ 32 :=
      Nat.lt_of_lt_of_le (Nat.mul_lt_mul_of_pos_right bound positive) fits
    refine ⟨index, ?_⟩
    rw [offsetOf_fillDescriptors bound, UInt32.zero_add, toNat_ofNat_mul below]
  · have none : (fillDescriptors bufferId length count 0)[index]? = none := by
      apply List.getElem?_eq_none
      rw [length_fillDescriptors]
      omega
    refine ⟨0, ?_⟩
    rw [offsetOf, none, Nat.zero_mul]
    rfl

theorem window_other_slot {memory : Memory UInt8} {length slot other size : Nat}
    {bytes : List UInt8} (apart : slot ≠ other) (fits : bytes.length ≤ length)
    (inside : size ≤ length) :
    window (overwrite memory (slot * length) bytes) (other * length) size =
      window memory (other * length) size := by
  apply window_overwrite_outside
  rcases Nat.lt_or_gt_of_ne apart with before | behind
  · have next := Nat.mul_le_mul_right length (Nat.succ_le_of_lt before)
    rw [Nat.succ_mul] at next
    omega
  · have next := Nat.mul_le_mul_right length (Nat.succ_le_of_lt behind)
    rw [Nat.succ_mul] at next
    omega

def HoldsWindows {Value : Type} (read : Memory UInt8 → Nat → Value) (descriptors : List RioBuf)
    (records : UInt32 → Value) (buffer : Memory UInt8) : Prop :=
  ∀ index, records (offsetOf descriptors index) =
    read buffer (offsetOf descriptors index).toNat

theorem HoldsWindows.write {Value : Type} {read : Memory UInt8 → Nat → Value} {size : Nat}
    (congruent : ∀ {first second : Memory UInt8} {position other : Nat},
      window first position size = window second other size →
        read first position = read second other)
    {bufferId : BufferId} {length : UInt32} {count : Nat} (positive : 0 < length.toNat)
    (fits : count * length.toNat ≤ 2 ^ 32) (inside : size ≤ length.toNat)
    {records : UInt32 → Value} {buffer : Memory UInt8} {bytes : List UInt8}
    (holds : HoldsWindows read (fillDescriptors bufferId length count 0) records buffer)
    (short : bytes.length ≤ length.toNat) (index : Nat) {offset : UInt32}
    (offsetIs : offsetOf (fillDescriptors bufferId length count 0) index = offset) :
    HoldsWindows read (fillDescriptors bufferId length count 0)
      (Function.update records offset
        (read (overwrite buffer offset.toNat bytes) offset.toNat))
      (overwrite buffer offset.toNat bytes) := by
  intro other
  by_cases same : offsetOf (fillDescriptors bufferId length count 0) other = offset
  · rw [same, Function.update_self]
  · obtain ⟨slot, slotIs⟩ := @exists_slot bufferId length count positive fits index
    obtain ⟨otherSlot, otherIs⟩ := @exists_slot bufferId length count positive fits other
    rw [offsetIs] at slotIs
    have apart : slot ≠ otherSlot := by
      intro equal
      apply same
      rw [← UInt32.toNat_inj, otherIs, slotIs, equal]
    rw [Function.update_of_ne same, holds other]
    apply congruent
    rw [slotIs, otherIs]
    exact (window_other_slot apart short inside).symm

namespace Consumer

variable {args : Args} {maxOutstandingReceive : UInt32}

def withBuffers (rioBuff : UInt32 → ProtocolHeader) (mcAddrBuff : UInt32 → SockaddrInet)
    (c : Consumer) : Consumer := { c with rioBuff, mcAddrBuff }

structure SameWindows (maxOutstandingReceive : UInt32) (rioBuff others : UInt32 → ProtocolHeader)
    (mcAddrBuff otherAddrs : UInt32 → SockaddrInet) : Prop where
  data : ∀ index, rioBuff (offsetOf (rioBuffDescr maxOutstandingReceive) index) =
    others (offsetOf (rioBuffDescr maxOutstandingReceive) index)
  addresses : ∀ index, mcAddrBuff (offsetOf (mcAddrDescr maxOutstandingReceive) index) =
    otherAddrs (offsetOf (mcAddrDescr maxOutstandingReceive) index)

variable {rioBuff others : UInt32 → ProtocolHeader} {mcAddrBuff otherAddrs : UInt32 → SockaddrInet}

theorem handleCompletion_withBuffers
    (same : SameWindows maxOutstandingReceive rioBuff others mcAddrBuff otherAddrs)
    (result : Completion) (c : Consumer) :
    (c.withBuffers rioBuff mcAddrBuff).handleCompletion maxOutstandingReceive result =
      ((c.withBuffers others otherAddrs).handleCompletion maxOutstandingReceive
        result).withBuffers rioBuff mcAddrBuff := by
  simp only [handleCompletion, withBuffers]
  split
  · rw [same.data, same.addresses]
  · rfl

/-- The loop reads the buffers only where the descriptors point, and never writes them. -/
theorem step_withBuffers
    (same : SameWindows maxOutstandingReceive rioBuff others mcAddrBuff otherAddrs)
    (c : Consumer) {event : ConsumerEvent} (loop : ∀ datagram, event ≠ .datagram datagram) :
    (c.withBuffers rioBuff mcAddrBuff).step args maxOutstandingReceive event =
      ((c.withBuffers others otherAddrs).step args maxOutstandingReceive event).map
        (withBuffers rioBuff mcAddrBuff) := by
  cases event with
  | datagram datagram => exact absurd rfl (loop datagram)
  | shouldStop exitSignal now =>
      simp only [step, checkStop, withBuffers]
      cases c.control <;> rfl
  | notify =>
      simp only [step, notifyCompletionQueue, withBuffers]
      cases c.control with
      | notify =>
          by_cases wanted : c.shouldNotify = true
          · simp only [wanted, if_true]
            cases c.completions.notify <;> rfl
          · simp [wanted, withBuffers]
      | _ => rfl
  | completionStatus dequeued =>
      simp only [step, getQueuedCompletionStatus, withBuffers]
      cases c.control with
      | wait =>
          cases dequeued with
          | true => cases c.completions.takePacket <;> rfl
          | false => by_cases empty : c.completions.portPackets = 0 <;> simp [empty, withBuffers]
      | _ => rfl
  | dequeue count now =>
      simp only [step, dequeueCompletion, withBuffers]
      cases c.control with
      | dequeue =>
          by_cases dequeues : c.completions.Dequeues maxRioResults count
          · by_cases zero : count = 0
            · simp [zero, withBuffers]
            · simp only [dequeues, zero, if_true, if_false]
              rfl
          · simp [dequeues]
      | _ => rfl
  | corruptQueue =>
      simp only [step, dequeueCorrupt, withBuffers]
      cases c.control <;> rfl
  | handle =>
      simp only [step, handleNext]
      have control (rioBuff : UInt32 → ProtocolHeader) (mcAddrBuff : UInt32 → SockaddrInet) :
          (c.withBuffers rioBuff mcAddrBuff).control = c.control := rfl
      rw [control, control]
      cases c.control with
      | handling results =>
          cases results with
          | nil => rfl
          | cons result rest =>
              simp only [handleCompletion_withBuffers same, Option.map_some]
              cases rest <;> rfl
      | _ => rfl

end Consumer

namespace ByteConsumer

inductive Represents (maxOutstandingReceive : UInt32) (b : ByteConsumer) : Consumer → Prop
  | intro {rioBuff : UInt32 → ProtocolHeader} {mcAddrBuff : UInt32 → SockaddrInet} :
      HoldsWindows ProtocolHeader.read (rioBuffDescr maxOutstandingReceive) rioBuff b.payload →
      HoldsWindows SockaddrInet.read (mcAddrDescr maxOutstandingReceive) mcAddrBuff b.addresses →
      Represents maxOutstandingReceive b (b.session.withBuffers rioBuff mcAddrBuff)

variable {args : Args} {maxOutstandingReceive : UInt32} {b : ByteConsumer} {c : Consumer}
  {packet : WirePacket}

structure Describes (packet : WirePacket) (datagram : Datagram) : Prop where
  bytesTransferred : datagram.bytesTransferred.toNat = packet.payload.length
  destination : datagram.destination = packet.destination
  header : ProtocolHeader.size ≤ packet.payload.length → datagram.header = packet.header

inductive Translates : ByteConsumerEvent → ConsumerEvent → Prop
  | datagram {packet datagram} : Describes packet datagram →
      Translates (.datagram packet) (.datagram datagram)
  | loop {event} : (∀ datagram, event ≠ .datagram datagram) → Translates (.loop event) event

theorem describes_datagramIn (receive : Receive) (payload addresses : Memory UInt8)
    (short : packet.payload.length ≤ expectedDataSize.toNat)
    (whole : packet.address.length = addrSize.toNat) :
    Describes packet (datagramIn maxOutstandingReceive receive packet.payload.length
      (overwrite payload (offsetOf (rioBuffDescr maxOutstandingReceive)
        receive.descriptor).toNat packet.payload)
      (overwrite addresses (offsetOf (mcAddrDescr maxOutstandingReceive)
        receive.slot).toNat packet.address)) where
  bytesTransferred := by
    have size : expectedDataSize.toNat = 100 := rfl
    refine UInt32.toNat_ofNat_of_lt' ?_
    rw [show UInt32.size = 4294967296 from rfl]
    omega
  destination := by
    have inside : SockaddrInet.size ≤ packet.address.length := by
      rw [whole]
      decide
    apply SockaddrInet.read_congr
    rw [window_overwrite inside, window_overwrite inside]
  header := by
    intro inside
    apply ProtocolHeader.read_congr
    rw [window_overwrite inside, window_overwrite inside]

theorem Represents.receive (fits : FitsBuffers maxOutstandingReceive)
    (represents : Represents maxOutstandingReceive b c) {next : ByteConsumer}
    (taken : b.receiveDatagram maxOutstandingReceive packet = some next) :
    ∃ datagram after, Describes packet datagram ∧
      c.receiveDatagram maxOutstandingReceive datagram = some after ∧
      Represents maxOutstandingReceive next after := by
  cases represents with
  | @intro rioBuff mcAddrBuff data addresses =>
      simp only [receiveDatagram] at taken
      split at taken
      · simp at taken
      · rename_i receive posted postedEq
        split at taken
        · rename_i sizes
          obtain ⟨short, whole⟩ := sizes
          cases taken
          have dataAfter := data.write ProtocolHeader.read_congr (by decide) fits (by decide) short
            receive.descriptor rfl
          have addressesAfter := addresses.write SockaddrInet.read_congr (by decide)
            fits.addresses (by decide) (Nat.le_of_eq whole) receive.slot rfl
          have described := @describes_datagramIn maxOutstandingReceive packet receive b.payload
            b.addresses short whole
          refine ⟨_, _, described, ?_, .intro dataAfter addressesAfter⟩
          simp only [Consumer.receiveDatagram, Consumer.withBuffers, postedEq]
          rfl
        · simp at taken

theorem Represents.loop (represents : Represents maxOutstandingReceive b c)
    {event : ConsumerEvent} (loop : ∀ datagram, event ≠ .datagram datagram)
    {session : Consumer}
    (taken : b.cast.step args maxOutstandingReceive event = some session) :
    ∃ after, c.step args maxOutstandingReceive event = some after ∧
      Represents maxOutstandingReceive { b with session } after := by
  cases represents with
  | @intro rioBuff mcAddrBuff data addresses =>
      refine ⟨session.withBuffers rioBuff mcAddrBuff, ?_, ?_⟩
      · have same : Consumer.SameWindows maxOutstandingReceive rioBuff
            (fun offset => ProtocolHeader.read b.payload offset.toNat) mcAddrBuff
            (fun offset => SockaddrInet.read b.addresses offset.toNat) := ⟨data, addresses⟩
        rw [Consumer.step_withBuffers same b.session loop]
        exact congrArg (Option.map (Consumer.withBuffers rioBuff mcAddrBuff)) taken
      · exact @intro maxOutstandingReceive { b with session } rioBuff mcAddrBuff data addresses

theorem Represents.step (fits : FitsBuffers maxOutstandingReceive)
    (represents : Represents maxOutstandingReceive b c) {event : ByteConsumerEvent}
    {next : ByteConsumer} (taken : b.step args maxOutstandingReceive event = some next) :
    ∃ label after, Translates event label ∧
      c.step args maxOutstandingReceive label = some after ∧
      Represents maxOutstandingReceive next after := by
  cases event with
  | datagram packet =>
      obtain ⟨datagram, after, describes, received, still⟩ := represents.receive fits taken
      exact ⟨.datagram datagram, after, .datagram describes, received, still⟩
  | loop event =>
      have others (loop : ∀ datagram, event ≠ .datagram datagram)
          (taken : (b.cast.step args maxOutstandingReceive event).map
            (fun session => { b with session }) = some next) :
          ∃ label after, Translates (.loop event) label ∧
            c.step args maxOutstandingReceive label = some after ∧
            Represents maxOutstandingReceive next after := by
        obtain ⟨session, stepped, rfl⟩ := Option.map_eq_some_iff.mp taken
        obtain ⟨after, followed, still⟩ := represents.loop loop stepped
        exact ⟨event, after, .loop loop, followed, still⟩
      cases event with
      | datagram datagram => simp [ByteConsumer.step] at taken
      | shouldStop | notify | completionStatus | dequeue | corruptQueue | handle =>
          exact others (by simp) taken

theorem Represents.start (args : Args) (maxOutstandingReceive : UInt32) (now : Int) :
    Represents maxOutstandingReceive (ByteConsumer.start args maxOutstandingReceive now)
      (Consumer.start args maxOutstandingReceive now) := by
  have data : HoldsWindows ProtocolHeader.read (rioBuffDescr maxOutstandingReceive)
      (fun _ => {}) fun _ => 0 :=
    fun _ => (ProtocolHeader.read_zeroes _).symm
  have addresses : HoldsWindows SockaddrInet.read (mcAddrDescr maxOutstandingReceive)
      (fun _ => {}) fun _ => 0 :=
    fun _ => (SockaddrInet.read_zeroes _).symm
  exact @intro maxOutstandingReceive (ByteConsumer.start args maxOutstandingReceive now) _ _ data
    addresses

end ByteConsumer

end RioClient
