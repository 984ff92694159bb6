import OaGateway.Core.Bridging
import OaGateway.Dds.Adapter
import OaGateway.Lib.Collect

/-! The rest of the DDS edge: samples on the wire, one poll of the readers, and
the way from the engine to the domain. -/
namespace OaGateway.Dds

open Lib OaGateway.Core

/-- The on-wire sample: one type that carries either kind of wrapper. -/
structure MaDataPayload where
  kind : String
  messageType : String
  encoded : Bytes
  originatorUuid : String
  rxPayloadId : String
  commandId : String
  destinationRouting : String

def nonempty (text : String) : Option String := if text = "" then none else some text

namespace MaDataPayload

def fromSample (sample : DdsSample) : MaDataPayload where
  kind := match sample.info.kind with
    | .rx => "rx"
    | .tx => "tx"
  messageType := sample.info.messageTypeEnum
  encoded := sample.encoded
  originatorUuid := sample.info.originatorUuid.getD ""
  rxPayloadId := sample.info.rxPayloadId.getD ""
  commandId := sample.info.commandId.getD ""
  destinationRouting := sample.info.destinationRouting.getD ""

def kindOf (kind : String) : Except String Agra.WrapperKind :=
  if kind = "rx" then .ok .rx
  else if kind = "tx" then .ok .tx
  else .error ("unknown wrapper kind " ++ kind)

def intoSample (payload : MaDataPayload) : Except String DdsSample :=
  match kindOf payload.kind with
  | .error message => .error message
  | .ok kind =>
    .ok {
      info :=
        { kind
          messageTypeEnum := payload.messageType
          originatorUuid := nonempty payload.originatorUuid
          rxPayloadId := nonempty payload.rxPayloadId
          commandId := nonempty payload.commandId
          destinationRouting := nonempty payload.destinationRouting }
      encoded := payload.encoded }

end MaDataPayload

/-- One sample a reader takes: whether this participant wrote it itself, what
came over the wire, and the ids the adapter draws for it. -/
structure Taken where
  own : Bool
  value : MaDataPayload
  ids : MessageId × MessageId

structure Arrival where
  topic : String
  sample : DdsSample
  ids : MessageId × MessageId

/-- Samples of this participant are passed over. -/
def decodeTaken (topic : String) (taken : Taken) : Except String (List Arrival) :=
  if taken.own then .ok []
  else match taken.value.intoSample with
    | .ok sample => .ok [⟨topic, sample, taken.ids⟩]
    | .error message => .error (topic ++ ": " ++ message)

/-- The provider's `poll_inbound`: every reader in turn, with what it takes. -/
def pollReaders (readers : List (String × List Taken)) : Except String (List Arrival) :=
  (collect (fun reader : String × List Taken =>
    (collect (decodeTaken reader.1) reader.2).map List.flatten) readers).map List.flatten

section
variable (crates : Crates) (adapter : DdsAdapter)

/-- The loop of the adapter's `poll_inbound`: what it has published by the time
it returns, and what it returns. -/
def publishArrivals : List Arrival → List Envelope × Except String Unit
  | [] => ([], .ok ())
  | arrival :: rest =>
    match inboundPublish crates adapter arrival.ids arrival.topic arrival.sample with
    | .error message => ([], .error message)
    | .ok envelopes =>
      let later := publishArrivals rest
      (envelopes ++ later.1, later.2)

def pollInbound (readers : List (String × List Taken)) : List Envelope × Except String Unit :=
  match pollReaders readers with
  | .error message => ([], .error message)
  | .ok arrivals => publishArrivals crates adapter arrivals

end

/-- One round of `element_to_enum`: what is written so far, and the character
before this one. -/
def enumStep (state : List Char × Option Char) (c : Char) : List Char × Option Char :=
  if c = '_' then (state.1 ++ ['_'], some '_')
  else
    let parted := c.isUpper && state.2.any Char.isLower && state.1.getLast? != some '_'
    ((if parted then state.1 ++ ['_'] else state.1) ++ [c.toUpper], some c)

/-- An element's name as a message type: `PositionReport` is `POSITION_REPORT`. -/
def elementToEnum (name : String) : String := .ofList (name.toList.foldl enumStep ([], none)).1

/-- An adapter with the topics it bridges. -/
structure DdsBridge extends DdsAdapter where
  topics : List String
  suppressEcho : Bool

section
variable (crates : Crates) (bridge : DdsBridge)

/-- The sample an envelope is written as: a wrapper's own parts, or the payload
under the type its route names. -/
def sampleFromEnvelope (ids : MessageId × MessageId) (envelope : Envelope) :
    Except String DdsSample :=
  if (Agra.wrapperKind crates envelope.payload).isSome then
    match Agra.unwrap crates ids envelope.route.topic envelope.payload with
    | .error error => .error error.display
    | .ok peeled => .ok ⟨peeled.info, peeled.inner.payload⟩
  else
    let hint := envelope.route.typeHint.getD envelope.route.topic
    .ok ⟨⟨.rx, elementToEnum hint, none, none, none, none⟩, envelope.payload⟩

/-- What one delivery makes the adapter write, and where: nothing for an echo
or a topic it does not bridge. -/
def forwardOutbound (ids : MessageId × MessageId) (envelope : Envelope) :
    Except String (Option (String × DdsSample)) :=
  if bridge.suppressEcho && envelope.isEchoOf bridge.id then .ok none
  else if !bridge.topics.contains envelope.route.topic then .ok none
  else match sampleFromEnvelope crates ids envelope with
    | .error message => .error message
    | .ok sample => .ok (some (envelope.route.topic, sample))

end

end OaGateway.Dds
