import RioClient.PartialRun
import RioClient.ProducerBytes

/-!
Every run of the producer on bytes is a run of the producer on records, with the
same sends, counters and statistics.
-/

namespace RioClient

open FlatMemory ProducerArgs

namespace Producer

variable {args : ProducerArgs}

def withBuffers (rioBuff : UInt32 → ProtocolHeader) (mcAddrBuff : UInt32 → SockaddrInet)
    (p : Producer) : Producer := { p with rioBuff, mcAddrBuff }

/-- Whatever the loop does between two completions leaves the buffers alone. -/
theorem step_withBuffers (rioBuff : UInt32 → ProtocolHeader)
    (mcAddrBuff : UInt32 → SockaddrInet) (p : Producer) {event : ProducerEvent}
    (other : ∀ now, event ≠ .handle now) :
    (p.withBuffers rioBuff mcAddrBuff).step args event =
      (p.step args event).map (withBuffers rioBuff mcAddrBuff) := by
  cases event with
  | complete k =>
      simp only [step, completeSend, withBuffers, Option.map_map]
      rfl
  | shouldStop exitSignal now =>
      simp only [step, checkStop, withBuffers]
      cases p.control <;> rfl
  | notify =>
      simp only [step, notifyCompletionQueue, withBuffers]
      cases p.control with
      | notify => cases p.completions.notify <;> rfl
      | _ => rfl
  | completionStatus =>
      simp only [step, getQueuedCompletionStatus, withBuffers]
      cases p.control with
      | wait => cases p.completions.takePacket <;> rfl
      | _ => rfl
  | dequeue count =>
      simp only [step, dequeueCompletion, withBuffers]
      cases p.control with
      | dequeue =>
          by_cases dequeues : p.completions.Dequeues args.maxOutstandingSend count
          · by_cases zero : count = 0 <;> simp [dequeues, zero, withBuffers]
          · simp [dequeues]
      | _ => rfl
  | corruptQueue =>
      simp only [step, dequeueCorrupt, withBuffers]
      cases p.control <;> rfl
  | handle now => exact absurd rfl (other now)

end Producer

theorem exists_packetOffset (args : ProducerArgs) (descriptor : Nat) :
    ∃ packet < args.rate, offsetOf args.rioBuffDescr descriptor = packetOffset packet := by
  by_cases bound : descriptor < args.maxOutstandingSend
  · exact ⟨descriptor / args.numberOfMcGroups,
      (Nat.div_lt_iff_lt_mul args.numberOfMcGroups_pos).mpr bound, offsetOf_rioBuffDescr args bound⟩
  · have length : args.rioBuffDescr.length = args.maxOutstandingSend := by
      simp [ProducerArgs.rioBuffDescr, length_fillDescriptors, maxOutstandingSend]
    have none : args.rioBuffDescr[descriptor]? = none := List.getElem?_eq_none (by omega)
    refine ⟨0, args.rate_positive, ?_⟩
    rw [offsetOf, none]
    rfl

/-- The bytes hold what the records hold, and all else is the same. -/
inductive Represents (args : ProducerArgs) (b : ByteProducer) : Producer → Prop
  | intro {rioBuff : UInt32 → ProtocolHeader} {mcAddrBuff : UInt32 → SockaddrInet} :
      HoldsPackets args.rate rioBuff b.payload →
      (∀ group < args.numberOfMcGroups, mcAddrBuff (offsetOf args.mcAddrDescr group) =
        SockaddrInet.read b.addresses (offsetOf args.mcAddrDescr group).toNat) →
      Represents args b (b.session.withBuffers rioBuff mcAddrBuff)

namespace Represents

variable {args : ProducerArgs} {b : ByteProducer} {p : Producer}

theorem session (represents : Represents args b p) :
    p = b.session.withBuffers p.rioBuff p.mcAddrBuff := by
  cases represents with
  | intro packets groups => rfl

theorem send (represents : Represents args b p) (descriptor : Nat) {address : Nat}
    (group : address < args.numberOfMcGroups) :
    Represents args (b.send args descriptor address) (p.send args descriptor address) := by
  cases represents with
  | @intro rioBuff mcAddrBuff packets groups =>
      obtain ⟨packet, inside, offset⟩ := exists_packetOffset args descriptor
      have header := packets packet inside
      rw [← offset] at header
      have same : (b.session.withBuffers rioBuff mcAddrBuff).send args descriptor address =
          (b.send args descriptor address).session.withBuffers rioBuff mcAddrBuff := by
        simp only [ByteProducer.send, ByteProducer.cast, Producer.send, Producer.withBuffers]
        rw [header, groups address group]
      rw [same]
      exact .intro packets groups

theorem changed (represents : Represents args b p) (change : Producer → Producer)
    (apart : ∀ p rioBuff mcAddrBuff, change (p.withBuffers rioBuff mcAddrBuff) =
      (change p).withBuffers rioBuff mcAddrBuff) :
    Represents args { b with session := change b.session } (change p) := by
  cases represents with
  | @intro rioBuff mcAddrBuff packets groups =>
      rw [apart]
      exact @intro args { b with session := change b.session } rioBuff mcAddrBuff packets groups

theorem sends (represents : Represents args b p) {indices : List Nat} :
    Represents args
      (indices.foldl (fun b i => b.send args i (i % args.numberOfMcGroups)) b)
      (indices.foldl (fun p i => p.send args i (i % args.numberOfMcGroups)) p) := by
  induction indices generalizing b p with
  | nil => exact represents
  | cons i indices ih =>
      exact ih (represents.send i (Nat.mod_lt _ args.numberOfMcGroups_pos))

theorem handleCompletion (represents : Represents args b p) (now : UInt64) (i : Nat)
    (result : Send) :
    Represents args (b.handleCompletion args now i result)
      (p.handleCompletion args now i result) := by
  cases represents with
  | @intro rioBuff mcAddrBuff packets groups =>
      obtain ⟨packet, inside, offset⟩ := exists_packetOffset args result.descriptor
      have stamped := packets.stamp args.rate_le inside b.session.sequenceNumber now
      rw [← offset] at stamped
      have written := @intro args { b with payload := _ } _ _ stamped groups
      have sent := written.send result.descriptor (Nat.mod_lt i args.numberOfMcGroups_pos)
      let groupCounter := (b.session.groupCounter + 1) % args.numberOfMcGroups
      let sequenceNumber :=
        if groupCounter = 0 then b.session.sequenceNumber + 1 else b.session.sequenceNumber
      exact sent.changed (fun p => { p with groupCounter, sequenceNumber }) fun _ _ _ => rfl

theorem handleNext (represents : Represents args b p) {now : UInt64} {next : ByteProducer}
    (taken : b.handleNext args now = some next) :
    ∃ after, p.handleNext args now = some after ∧ Represents args next after := by
  have handled := represents.handleCompletion now
  cases represents with
  | intro packets groups =>
      simp only [ByteProducer.handleNext] at taken
      split at taken
      · rename_i i result rest handling
        cases taken
        have after := (handled i result).changed (fun p => { p with
          control := if rest.isEmpty then .loopHead else .handling (i + 1) rest
          batches := if i = 0 then p.batches ++ [rest.length + 1] else p.batches })
          fun _ _ _ => rfl
        refine ⟨_, ?_, after⟩
        simp only [Producer.handleNext, Producer.withBuffers, handling]
        rfl
      · simp at taken

theorem step (represents : Represents args b p) {event : ProducerEvent} {next : ByteProducer}
    (taken : b.step args event = some next) :
    ∃ after, p.step args event = some after ∧ Represents args next after := by
  have others (other : ∀ now, event ≠ .handle now)
      (taken : (b.session.step args event).map (fun session => { b with session }) = some next) :
      ∃ after, p.step args event = some after ∧ Represents args next after := by
    obtain ⟨session, stepped, rfl⟩ := Option.map_eq_some_iff.mp taken
    cases represents with
    | @intro rioBuff mcAddrBuff packets groups =>
        refine ⟨session.withBuffers rioBuff mcAddrBuff, ?_, ?_⟩
        · rw [Producer.step_withBuffers _ _ _ other, stepped]
          rfl
        · exact @intro args { b with session } rioBuff mcAddrBuff packets groups
  cases event with
  | handle now => exact represents.handleNext taken
  | complete | shouldStop | notify | completionStatus | dequeue | corruptQueue =>
      exact others (by simp) taken

theorem enabled (represents : Represents args b p) {event : ProducerEvent} {after : Producer}
    (taken : p.step args event = some after) : ∃ next, b.step args event = some next := by
  cases represents with
  | intro packets groups =>
      have others (other : ∀ now, event ≠ .handle now) :
          ∃ session, b.session.step args event = some session := by
        rw [Producer.step_withBuffers _ _ _ other] at taken
        obtain ⟨session, stepped, -⟩ := Option.map_eq_some_iff.mp taken
        exact ⟨session, stepped⟩
      cases event with
      | handle now =>
          simp only [Producer.step, Producer.handleNext, Producer.withBuffers] at taken
          split at taken
          · rename_i handling
            simp only [ByteProducer.step, ByteProducer.handleNext, handling]
            exact ⟨_, rfl⟩
          · simp at taken
      | complete | shouldStop | notify | completionStatus | dequeue | corruptQueue =>
          obtain ⟨session, stepped⟩ := others (by simp)
          exact ⟨{ b with session }, Option.map_eq_some_iff.mpr ⟨session, stepped, rfl⟩⟩

theorem step_back (represents : Represents args b p) {event : ProducerEvent} {after : Producer}
    (taken : p.step args event = some after) :
    ∃ next, b.step args event = some next ∧ Represents args next after := by
  obtain ⟨next, stepped⟩ := represents.enabled taken
  obtain ⟨other, followed, still⟩ := represents.step stepped
  rw [taken, Option.some.injEq] at followed
  subst followed
  exact ⟨next, stepped, still⟩

theorem run (represents : Represents args b p) {events : List ProducerEvent}
    {finish : ByteProducer} (reached : PartialRun.run (ByteProducer.step args) b events =
      some finish) :
    ∃ after, PartialRun.run (Producer.step args) p events = some after ∧
      Represents args finish after :=
  @PartialRun.run_related _ _ (ByteProducer.step args) _ (Producer.step args) (Represents args)
    (fun _ _ _ _ still taken => still.step taken) _ _ _ _ represents reached

theorem run_back (represents : Represents args b p) {events : List ProducerEvent}
    {finish : Producer} (reached : PartialRun.run (Producer.step args) p events = some finish) :
    ∃ after, PartialRun.run (ByteProducer.step args) b events = some after ∧
      Represents args after finish :=
  @PartialRun.run_related _ _ (Producer.step args) _ (ByteProducer.step args)
    (fun p b => Represents args b p) (fun _ _ _ _ still taken => still.step_back taken)
    _ _ _ _ represents reached

end Represents

end RioClient
