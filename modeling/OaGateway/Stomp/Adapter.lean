import OaGateway.Agra.Wrapper
import OaGateway.Core.Engine

/-! The STOMP edge: frames, the map between destinations and routes, and the
two directions a message crosses. -/
namespace OaGateway.Stomp

open Lib OaGateway.Core

/-- Headers are a list: duplicates are kept, and the first of a name counts. -/
structure Frame where
  command : String
  headers : List (String × String)
  body : Bytes
deriving DecidableEq

namespace Frame

def new (command : String) : Frame := ⟨command, [], []⟩

def withHeader (frame : Frame) (name value : String) : Frame :=
  { frame with headers := frame.headers ++ [(name, value)] }

def header (frame : Frame) (name : String) : Option String :=
  (frame.headers.find? fun header => header.1 == name).map Prod.snd

end Frame

/-- What stands before a topic in a destination. -/
structure DestinationMap where
  lead : String
deriving DecidableEq

namespace DestinationMap

/-- A missing trailing slash is added. -/
def new (lead : String) : DestinationMap :=
  if lead.toList.getLast? = some '/' then ⟨lead⟩ else ⟨lead ++ "/"⟩

/-- A topic loses its leading slashes. -/
def toStomp (map : DestinationMap) (topic : String) : String :=
  map.lead ++ .ofList (topic.toList.dropWhile (· == '/'))

/-- The topic of a destination that starts as the map says and goes on. -/
def fromStomp (map : DestinationMap) (dest : String) : Option String :=
  if map.lead.toList.isPrefixOf dest.toList then
    match dest.toList.drop map.lead.toList.length with
    | [] => none
    | rest => some (.ofList rest)
  else none

end DestinationMap

def hdrStompDest : String := "stomp.destination"

def hdrStompMessageId : String := "stomp.message-id"

/-- An empty hint counts as none. -/
def inboundRoute (topic : String) : Option String → RouteKey
  | some hint => if hint = "" then .wildcard topic else .typed topic hint
  | none => .wildcard topic

structure StompConfig where
  destinationLead : String
  topics : List String
  unwrapMaPayloads : Bool
  suppressEcho : Bool

structure StompAdapter where
  id : AdapterId
  config : StompConfig

def StompAdapter.map (adapter : StompAdapter) : DestinationMap :=
  .new adapter.config.destinationLead

section
variable (crates : Crates)

/-- Best-effort type of a body: the only member of a JSON object, or the local
name of an XML root. -/
def sniffTypeHint (payload : Bytes) : Option String :=
  (fromUtf8 payload).bind fun text => Agra.elementOf crates (Agra.trimStartText text)

/-- The header's type before any `;`, unless that is empty; else a sniff. -/
def sniffContentType (payload : Bytes) (header : Option String) : ContentType :=
  let mime := header.map fun value => trimText (.ofList (value.toList.takeWhile (· != ';')))
  match mime.filter (· ≠ "") with
  | some mime => ⟨mime⟩
  | none => Agra.sniffContentType payload

/-- The headers an inbound envelope carries away from its frame. -/
def stampInbound (adapter : StompAdapter) (frame : Frame) (dest : String)
    (envelope : Envelope) : Envelope :=
  let envelope := (envelope.withOrigin adapter.id).withHeader hdrStompDest dest
  match frame.header "message-id" with
  | some id => envelope.withHeader hdrStompMessageId id
  | none => envelope

/-- What one `MESSAGE` publishes, in order. -/
def inboundPublish (adapter : StompAdapter) (ids : MessageId × MessageId) (frame : Frame) :
    Except String (List Envelope) :=
  match frame.header "destination" with
  | none => .error "MESSAGE missing destination"
  | some dest =>
    match (frame.header hdrTopic).or (adapter.map.fromStomp dest) with
    | none => .error ("destination " ++ dest ++ " is outside " ++ adapter.map.lead)
    | some topic =>
      if adapter.config.unwrapMaPayloads && (Agra.wrapperKind crates frame.body).isSome then
        match Agra.unwrap crates ids topic frame.body with
        | .error error => .error error.display
        | .ok peeled =>
          .ok [stampInbound adapter frame dest peeled.wrapper,
            stampInbound adapter frame dest peeled.inner]
      else
        let typeHint := (frame.header hdrTypeHint).or (sniffTypeHint crates frame.body)
        let contentType := sniffContentType frame.body (frame.header "content-type")
        let envelope :=
          (Envelope.new ids.1 (inboundRoute topic typeHint) frame.body).withContentType contentType
        .ok [stampInbound adapter frame dest envelope]

/-- What an inbound frame publishes: only a `MESSAGE` does, and a frame that
cannot be read is dropped. -/
def handleFrame (adapter : StompAdapter) (ids : MessageId × MessageId) (frame : Frame) :
    Except String (List Envelope) :=
  if frame.command = "MESSAGE" then inboundPublish crates adapter ids frame
  else if frame.command = "ERROR" then
    let text := (frame.header "message").getD ((fromUtf8 frame.body).getD "broker ERROR")
    .error ("broker ERROR: " ++ text)
  else .ok []

end

def sendFrame (destination : String) (headers : List (String × String)) (body : Bytes) : Frame where
  command := "SEND"
  headers := ("destination", destination) :: headers
  body := body

def subscribeFrame (id destination : String) : Frame :=
  (((Frame.new "SUBSCRIBE").withHeader "id" id).withHeader "destination" destination).withHeader
    "ack" "auto"

/-- Whether an envelope's header goes out on the wire. -/
def copied (name : String) : Bool :=
  name != hdrOrigin && name != hdrStompDest && !"stomp.".toList.isPrefixOf name.toList

/-- The headers of a `SEND` besides its destination. -/
def outboundHeaders (adapter : StompAdapter) (envelope : Envelope) : List (String × String) :=
  [("content-type", envelope.contentType.value), (hdrOrigin, adapter.id.value),
      (hdrTopic, envelope.route.topic), (hdrId, envelope.id.uuid)] ++
    (envelope.route.typeHint.map fun hint => (hdrTypeHint, hint)).toList ++
    envelope.headers.entries.filter fun header => copied header.1

/-- The `SEND` for one delivery, unless that is an echo. -/
def forwardOutbound (adapter : StompAdapter) (envelope : Envelope) : Option Frame :=
  if adapter.config.suppressEcho && envelope.isEchoOf adapter.id then none
  else
    some (sendFrame (adapter.map.toStomp envelope.route.topic) (outboundHeaders adapter envelope)
      envelope.payload)

/-- What a session says to the broker at its start: one `SUBSCRIBE` for each topic. -/
def subscribeFrames (adapter : StompAdapter) : List Frame :=
  adapter.config.topics.zipIdx.map fun topic =>
    subscribeFrame ("sub-" ++ toString topic.2) (adapter.map.toStomp topic.1)

end OaGateway.Stomp
