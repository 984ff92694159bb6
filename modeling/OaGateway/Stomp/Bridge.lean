import OaGateway.Core.Concurrent
import OaGateway.Stomp.Broker

/-! An engine, a STOMP adapter and a broker at work on one message, with any
other traffic around it. -/
namespace OaGateway.Stomp

open Lib OaGateway.Core

def drained (world : World) (channel : Nat) : World :=
  { world with channels := Function.update world.channels channel (world.channels channel).receive }

theorem channels_drained (world : World) (channel : Nat) :
    (drained world channel).channels channel = (world.channels channel).receive :=
  Function.update_self ..

/-- One adapter, its channel on the engine and its connection to the broker. -/
structure Link where
  crates : Crates
  adapter : StompAdapter
  tx : Sender
  connId : Nat

structure Bridge where
  world : World
  broker : BrokerState
  /-- Frames the adapter wrote and the broker has not read. -/
  toBroker : List Frame
  /-- Frames the broker wrote and the adapter has not read. -/
  toAdapter : List Frame
  /-- What the adapter's task has still to publish for the frame it handles. -/
  pending : List Envelope
  publishing : Option Nat

def Bridge.Idle (bridge : Bridge) : Prop := bridge.pending = [] ∧ bridge.publishing = none

def writtenTo (connId : Nat) (written : List (Nat × Frame)) : List Frame :=
  (written.filter fun entry => entry.1 == connId).map Prod.snd

inductive BridgeEvent where
  | engine (event : Event)
  | forward
  | dispatch
  | peer (connId : Nat) (frame : Frame)
  | read (ids : MessageId × MessageId)
  | publish
  | resume

/-- Engine steps around the message: publishes take their course, others
publish other payloads, and other readers read or go away. -/
def Surrounding (link : Link) (payload : Bytes) : Event → Prop
  | .call _ => False
  | .begin envelope => envelope.payload ≠ payload
  | .receive channel | .close channel => channel ≠ link.tx.channel
  | _ => True

/-- One step while the message with this payload is under way. -/
inductive BridgeStep (link : Link) (payload : Bytes) (bridge : Bridge) :
    BridgeEvent → Bridge → Prop where
  | engine (event : Event) (world : World) (around : Surrounding link payload event)
      (step : Step bridge.world event world) :
      BridgeStep link payload bridge (.engine event) { bridge with world }
  | forward (delivery : Delivery) (rest : List Delivery) (idle : bridge.Idle)
      (queued : (bridge.world.channels link.tx.channel).queue = delivery :: rest) :
      BridgeStep link payload bridge .forward
        { bridge with
          world := drained bridge.world link.tx.channel
          toBroker := bridge.toBroker ++ (forwardOutbound link.adapter delivery.envelope).toList }
  | dispatch (frame : Frame) (rest : List Frame) (broker : BrokerState)
      (written : List (Nat × Frame)) (sent : bridge.toBroker = frame :: rest)
      (handled : bridge.broker.dispatch link.connId frame = some (broker, written)) :
      BridgeStep link payload bridge .dispatch
        { bridge with
          broker
          toBroker := rest
          toAdapter := bridge.toAdapter ++ writtenTo link.connId written }
  | peer (connId : Nat) (frame : Frame) (broker : BrokerState) (written : List (Nat × Frame))
      (other : connId ≠ link.connId) (unrelated : frame.body ≠ payload)
      (handled : bridge.broker.dispatch connId frame = some (broker, written)) :
      BridgeStep link payload bridge (.peer connId frame)
        { bridge with broker, toAdapter := bridge.toAdapter ++ writtenTo link.connId written }
  | read (ids : MessageId × MessageId) (frame : Frame) (rest : List Frame)
      (envelopes : List Envelope) (idle : bridge.Idle) (waiting : bridge.toAdapter = frame :: rest)
      (handled : handleFrame link.crates link.adapter ids frame = .ok envelopes) :
      BridgeStep link payload bridge (.read ids)
        { bridge with toAdapter := rest, pending := envelopes }
  | skip (ids : MessageId × MessageId) (frame : Frame) (rest : List Frame) (error : String)
      (idle : bridge.Idle) (waiting : bridge.toAdapter = frame :: rest)
      (failed : handleFrame link.crates link.adapter ids frame = .error error) :
      BridgeStep link payload bridge (.read ids) { bridge with toAdapter := rest }
  | publish (envelope : Envelope) (rest : List Envelope) (world : World)
      (next : bridge.pending = envelope :: rest) (free : bridge.publishing = none)
      (step : Step bridge.world (.begin envelope) world) :
      BridgeStep link payload bridge .publish
        { bridge with world, pending := rest, publishing := some bridge.world.publishes.length }
  | resume (id : Nat) (envelope : Envelope) (outcome : PublishOutcome)
      (busy : bridge.publishing = some id)
      (done : bridge.world.publishes[id]? = some ⟨envelope, .done outcome⟩) :
      BridgeStep link payload bridge .resume { bridge with publishing := none }

section Return
variable {crates : Crates} {adapter : StompAdapter}

def sent (adapter : StompAdapter) (envelope : Envelope) : Frame :=
  sendFrame (adapter.map.toStomp envelope.route.topic) (outboundHeaders adapter envelope)
    envelope.payload

/-- The route a `SEND` is published on when it comes back. -/
def returnRoute (crates : Crates) (adapter : StompAdapter) (envelope : Envelope) : RouteKey :=
  inboundRoute envelope.route.topic
    (((sent adapter envelope).header hdrTypeHint).or (sniffTypeHint crates envelope.payload))

theorem returnRoute_of_hint {envelope : Envelope} {hint : String}
    (typed : envelope.route.typeHint = some hint) (present : hint ≠ "") :
    returnRoute crates adapter envelope = envelope.route := by
  obtain ⟨id, ⟨topic, typeHint⟩, headers, contentType, payload⟩ := envelope
  cases typed
  have found : (sent adapter ⟨id, ⟨topic, some hint⟩, headers, contentType, payload⟩).header
    hdrTypeHint =
      some hint := rfl
  rw [returnRoute, found]
  simp [inboundRoute, present, RouteKey.typed]

/-- The broker keeps the headers it does not write itself. -/
theorem header_messageFor {name : String} (frame : Frame) (dest : String) (mid : Nat) (sub : Sub)
    (kept : name ≠ "destination" ∧ name ≠ "subscription" ∧ name ≠ "message-id") :
    (BrokerState.messageFor frame dest mid sub).header name = frame.header name := by
  obtain ⟨destination, subscription, messageId⟩ := kept
  have skip : ("destination" == name) = false ∧ ("subscription" == name) = false ∧
      ("message-id" == name) = false := by
    simp [destination.symm, subscription.symm, messageId.symm]
  have same : (fun header : String × String =>
      decide ((header.1 != "destination") = true ∧ (header.1 == name) = true)) =
        fun header => header.1 == name := by
    funext header
    by_cases hit : header.1 = name
    · simp [hit, destination]
    · simp [hit]
  simp only [Frame.header, BrokerState.messageFor, List.cons_append, List.nil_append,
    List.find?_cons, skip, List.find?_filter, same]

theorem isEchoOf_withHeader {name : String} (other : hdrOrigin ≠ name) (envelope : Envelope)
    (value : String) (id : AdapterId) : (envelope.withHeader name value).isEchoOf id =
      envelope.isEchoOf id := by
  simp [Envelope.isEchoOf, Envelope.origin, Envelope.withHeader, other]

theorem stampInbound_spec (frame : Frame) (dest : String) (envelope : Envelope) :
    (stampInbound adapter frame dest envelope).payload = envelope.payload ∧
      (stampInbound adapter frame dest envelope).route = envelope.route ∧
      (stampInbound adapter frame dest envelope).isEchoOf adapter.id = true := by
  have origin : ((envelope.withOrigin adapter.id).withHeader hdrStompDest dest).isEchoOf
      adapter.id = true := by
    rw [isEchoOf_withHeader (by decide), Envelope.isEchoOf_withOrigin, decide_eq_true rfl]
  rw [stampInbound]
  cases frame.header "message-id" with
  | none => exact ⟨rfl, rfl, origin⟩
  | some id => exact ⟨rfl, rfl, by rw [isEchoOf_withHeader (by decide), origin]⟩

theorem handleFrame_return (plain : adapter.config.unwrapMaPayloads = false)
    (ids : MessageId × MessageId) (envelope : Envelope) (dest : String) (mid : Nat) (sub : Sub) :
    ∃ returned, handleFrame crates adapter ids
      (BrokerState.messageFor (sent adapter envelope) dest mid sub) =
        .ok [returned] ∧ returned.payload = envelope.payload ∧
      returned.route = returnRoute crates adapter envelope ∧
          returned.isEchoOf adapter.id = true := by
  have topic : (BrokerState.messageFor (sent adapter envelope) dest mid sub).header hdrTopic =
      some envelope.route.topic := by
    rw [header_messageFor _ _ _ _ (by decide)]
    rfl
  have destination : (BrokerState.messageFor (sent adapter envelope) dest mid sub).header
    "destination" =
      some dest := rfl
  have hint := @header_messageFor hdrTypeHint (sent adapter envelope) dest mid sub (by decide)
  let returned :=
    (Envelope.new ids.1 (returnRoute crates adapter envelope) envelope.payload).withContentType
    (sniffContentType envelope.payload
      ((BrokerState.messageFor (sent adapter envelope) dest mid sub).header "content-type"))
  refine ⟨stampInbound adapter (BrokerState.messageFor (sent adapter envelope) dest mid sub)
    dest returned, ?_, stampInbound_spec _ dest returned⟩
  have command : (BrokerState.messageFor (sent adapter envelope) dest mid sub).command =
    "MESSAGE" := rfl
  rw [handleFrame, if_pos command, inboundPublish, destination]
  simp only [topic, plain, Option.some_or, Bool.false_and, hint]
  rfl

end Return

end OaGateway.Stomp
