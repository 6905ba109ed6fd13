import RioClient.ConsumerBytesCore
import RioClient.OrderedNetwork
import RioClient.ProducerBytesCore

/-!
A producer and a consumer with the network between them. RIO reads the packets
from the producer's buffer in posting order and completes no send before its
packet has gone out; the network may lose packets and keeps the order within a
group; what arrives is written to the consumer's buffers.
-/

namespace RioClient

open OrderedNetwork

/-- A packet under way, and the number of the send it was read for. -/
structure Carriage where
  number : Nat
  packet : WirePacket
deriving DecidableEq, Repr

def Carriage.group (carriage : Carriage) : UInt32 := carriage.packet.destination.sinAddr

inductive LinkEvent
  | producer (event : ProducerEvent)
  | transmit
  | lose (position : Nat)
  | deliver (position : Nat)
  | consumer (event : ConsumerEvent)
deriving DecidableEq, Repr

structure Link where
  producer : ByteProducer
  network : Network Carriage := {}
  consumer : ByteConsumer

def ByteProducer.packetOf (args : ProducerArgs) (send : Send) (b : ByteProducer) : WirePacket where
  payload := namedBytes b.payload args.rioBuffDescr send.descriptor
  address := namedBytes b.addresses args.mcAddrDescr send.address

namespace Link

def Allows (link : Link) : ProducerEvent → Prop
  | .complete k => k = 0 ∧
      link.producer.session.sent.length - link.producer.session.posted.length <
        link.network.transmitted.length
  | _ => True

instance decidableAllows (link : Link) : (event : ProducerEvent) → Decidable (link.Allows event)
  | .complete _ => instDecidableAnd
  | .shouldStop .. | .notify | .completionStatus | .dequeue _ | .corruptQueue | .handle _ =>
      instDecidableTrue

def transmitNext (args : ProducerArgs) (link : Link) : Option Link :=
  let number := link.network.transmitted.length
  link.producer.session.sent[number]?.map fun send =>
    { link with
      network := link.network.transmit ⟨number, link.producer.packetOf args send⟩ }

/-- Without a posted receive nothing can be delivered; the packet may then be lost. -/
def deliverAt (receiverArgs : Args) (maxOutstandingReceive : UInt32) (position : Nat)
    (link : Link) : Option Link :=
  match link.network.deliver Carriage.group position with
  | none => none
  | some (carriage, network) =>
      (link.consumer.step receiverArgs maxOutstandingReceive (.datagram carriage.packet)).map
        fun consumer => { link with network, consumer }

def step (args : ProducerArgs) (receiverArgs : Args) (maxOutstandingReceive : UInt32)
    (link : Link) : LinkEvent → Option Link
  | .producer event =>
      if link.Allows event then
        (link.producer.step args event).map fun producer => { link with producer }
      else none
  | .transmit => link.transmitNext args
  | .lose position => (link.network.lose position).map fun network => { link with network }
  | .deliver position => link.deliverAt receiverArgs maxOutstandingReceive position
  | .consumer event =>
      (link.consumer.step receiverArgs maxOutstandingReceive (.loop event)).map
        fun consumer => { link with consumer }

end Link

inductive LinkStep (args : ProducerArgs) (receiverArgs : Args) (maxOutstandingReceive : UInt32)
    (link : Link) : LinkEvent → Link → Prop
  | producer {event producer} : link.Allows event →
      link.producer.step args event = some producer →
      LinkStep args receiverArgs maxOutstandingReceive link (.producer event)
        { link with producer }
  | transmit {send} :
      link.producer.session.sent[link.network.transmitted.length]? = some send →
      LinkStep args receiverArgs maxOutstandingReceive link .transmit { link with
        network := link.network.transmit
          ⟨link.network.transmitted.length, link.producer.packetOf args send⟩ }
  | lose {position network} : link.network.lose position = some network →
      LinkStep args receiverArgs maxOutstandingReceive link (.lose position)
        { link with network }
  | deliver {position carriage network consumer} :
      link.network.deliver Carriage.group position = some (carriage, network) →
      link.consumer.step receiverArgs maxOutstandingReceive (.datagram carriage.packet) =
        some consumer →
      LinkStep args receiverArgs maxOutstandingReceive link (.deliver position)
        { link with network, consumer }
  | consumer {event consumer} :
      link.consumer.step receiverArgs maxOutstandingReceive (.loop event) = some consumer →
      LinkStep args receiverArgs maxOutstandingReceive link (.consumer event)
        { link with consumer }

theorem Link.step_cases {args : ProducerArgs} {receiverArgs : Args}
    {maxOutstandingReceive : UInt32} {link next : Link} {event : LinkEvent}
    (taken : link.step args receiverArgs maxOutstandingReceive event = some next) :
    LinkStep args receiverArgs maxOutstandingReceive link event next := by
  cases event with
  | producer event =>
      simp only [step] at taken
      split at taken
      · rename_i allowed
        obtain ⟨producer, stepped, rfl⟩ := Option.map_eq_some_iff.mp taken
        exact .producer allowed stepped
      · simp at taken
  | transmit =>
      obtain ⟨send, found, rfl⟩ := Option.map_eq_some_iff.mp taken
      exact .transmit found
  | lose position =>
      obtain ⟨network, lost, rfl⟩ := Option.map_eq_some_iff.mp taken
      exact .lose lost
  | deliver position =>
      simp only [step, deliverAt] at taken
      split at taken
      · simp at taken
      · rename_i carriage network delivered
        obtain ⟨consumer, received, rfl⟩ := Option.map_eq_some_iff.mp taken
        exact .deliver delivered received
  | consumer event =>
      obtain ⟨consumer, stepped, rfl⟩ := Option.map_eq_some_iff.mp taken
      exact .consumer stepped

end RioClient
