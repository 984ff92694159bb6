import OaGateway.Agra.Nesting
import OaGateway.Core.Envelope
import OaGateway.Crates
import OaGateway.Lib.Text

/-! Offboard payload envelopes: a wrapper document that carries another message
as hexBinary, and how it is turned inside out. -/
namespace OaGateway.Agra

open Lib Lib.Json OaGateway.Core

def rxElement : String := "MA_RxDataPayload"

def txElement : String := "MA_TxDataPayloadCommand"

inductive WrapperKind where
  /-- From offboard. -/
  | rx
  /-- To offboard. -/
  | tx
deriving DecidableEq, Repr

namespace WrapperKind

def elementName : WrapperKind → String
  | rx => rxElement
  | tx => txElement

def fromElement (name : String) : Option WrapperKind :=
  if name = rxElement then some rx else if name = txElement then some tx else none

end WrapperKind

inductive AgraError where
  | notAWrapper
  | json (message : String)
  | missingField (field : String)
  | badHex (message : String)
  | payloadTooLarge
deriving DecidableEq, Repr

/-- Largest payload an `EncodedPayload` may decode to. -/
def maxDecodedPayload : Nat := 8 * 1024 * 1024

def AgraError.display : AgraError → String
  | notAWrapper => "not an MA Rx/Tx data-payload wrapper"
  | json message => "invalid OMS JSON: " ++ message
  | missingField field => "wrapper missing MessageData." ++ field
  | badHex message => "EncodedPayload is not hexBinary: " ++ message
  | payloadTooLarge => "EncodedPayload decodes to more than " ++
    toString maxDecodedPayload ++ " bytes"

/-- What is lifted off the wrapper. -/
structure WrapperMeta where
  kind : WrapperKind
  messageTypeEnum : String
  originatorUuid : Option String
  rxPayloadId : Option String
  commandId : Option String
  destinationRouting : Option String
deriving DecidableEq, Repr

structure Unwrapped where
  wrapper : Envelope
  inner : Envelope
  info : WrapperMeta

section Hex

/-- `u8::is_ascii_whitespace`. -/
def isAsciiWhitespace (b : UInt8) : Bool := b == 32 || b == 9 || b == 10 || b == 12 || b == 13

/-- The value of a hexadecimal digit. -/
def nibble (b : UInt8) : Option UInt8 :=
  if 48 ≤ b && b ≤ 57 then some (b - 48)
  else if 97 ≤ b && b ≤ 102 then some (b - 97 + 10)
  else if 65 ≤ b && b ≤ 70 then some (b - 65 + 10)
  else none

def hexDigits (alpha : Char) (value : Nat) : List Char :=
  let digit (n : Nat) : Char := if n < 10 then Char.ofNat (48 + n)
    else Char.ofNat (alpha.toNat + (n - 10))
  if value < 16 then [digit value] else [digit (value / 16), digit (value % 16)]

/-- How `char::from(byte)` prints under `{:?}`. -/
def charDebug (b : UInt8) : String :=
  let c := Char.ofNat b.toNat
  let escaped : String :=
    if b == 0 then "\\0" else if b == 9 then "\\t" else if b == 10 then "\\n"
      else if b == 13 then "\\r"
    else if b == 39 then "\\'" else if b == 92 then "\\\\"
    else if b < 32 || (127 ≤ b && b ≤ 160) || b == 173 then
      "\\u\x7b" ++ .ofList (hexDigits 'a' b.toNat) ++ "\x7d"
    else .ofList [c]
  "'" ++ escaped ++ "'"

/-- The digits one by one, `high` being the half byte still open. -/
def decodeLoop : Bytes → Option UInt8 → Bytes → Except AgraError Bytes
  | [], none, out => .ok out
  | [], some _, _ => .error (.badHex "odd number of digits")
  | b :: rest, high, out =>
    if isAsciiWhitespace b then decodeLoop rest high out
    else match nibble b with
      | none => .error (.badHex ("invalid character " ++ charDebug b))
      | some low =>
        match high with
        | none => decodeLoop rest (some low) out
        | some hi => decodeLoop rest none (out ++ [(hi <<< 4) ||| low])

/-- Decode hexBinary, white space allowed anywhere. -/
def decodeHex (text : String) : Except AgraError Bytes :=
  let bytes := utf8 text
  if bytes.length / 2 > maxDecodedPayload &&
      (bytes.filter fun b => !isAsciiWhitespace b).length / 2 > maxDecodedPayload then
    .error .payloadTooLarge
  else decodeLoop bytes none []

end Hex

def startsWith (c : Char) (text : String) : Bool := text.toList.head? == some c

/-- `str::trim_start`. -/
def trimStartText (text : String) : String := .ofList (trimStart text.toList)

def sniffContentType (bytes : Bytes) : ContentType :=
  match (fromUtf8 bytes).map trimStartText with
  | some text =>
    if startsWith '{' text then .json else if startsWith '<' text then .xml else .octetStream
  | none => .octetStream

section
variable (crates : Crates)

/-- Local name of the document element, if there is one. -/
def xmlRootLocalName (xml : String) : Option String :=
  (parseChecked (fun text => (crates.xmlParse text).toOption) xml).map Xml.Node.localName

/-- The only member of a JSON object. -/
def singleMember (text : String) : Option String :=
  match ((crates.jsonParse text).toOption).bind Value.asObject with
  | some [(name, _)] => some name
  | _ => none

/-- The element name of a JSON or XML text, whichever it starts like. -/
def elementOf (text : String) : Option String :=
  if startsWith '{' text then singleMember crates text
  else if startsWith '<' text then xmlRootLocalName crates text
  else none

/-- Whether a payload is a wrapper, and which. -/
def wrapperKind (payload : Bytes) : Option WrapperKind :=
  (fromUtf8 payload).bind fun text => (elementOf crates (trimStartText text)).bind
    WrapperKind.fromElement

def typeHintFromInner (bytes : Bytes) (enumName : String) : String :=
  ((fromUtf8 bytes).bind fun text => elementOf crates (trimText text)).getD enumName

def hdrWrapper : String := "agra.wrapper"

def hdrMessageType : String := "agra.message_type"

def hdrOriginator : String := "agra.originator_uuid"

def hdrRxId : String := "agra.rx_payload_id"

def hdrCommandId : String := "agra.command_id"

def hdrDestRouting : String := "agra.destination_routing"

def hdrInnerCt : String := "agra.inner_content_type"

def withOptional (envelope : Envelope) (key : String) : Option String → Envelope
  | some value => envelope.withHeader key value
  | none => envelope

def innerEnvelope (id : MessageId) (topic : String) (bytes : Bytes) (contentType : ContentType)
    (hint : String) (info : WrapperMeta) : Envelope :=
  let base := ((((Envelope.new id (.typed topic hint) bytes).withContentType contentType).withHeader
    hdrWrapper info.kind.elementName).withHeader hdrMessageType info.messageTypeEnum).withHeader
    hdrInnerCt contentType.value
  withOptional (withOptional (withOptional (withOptional base hdrOriginator info.originatorUuid)
    hdrRxId info.rxPayloadId) hdrCommandId info.commandId) hdrDestRouting info.destinationRouting

/-- Both envelopes, once the fields and the decoded payload are known. The ids
the code draws at random are arguments. -/
def assemble (ids : MessageId × MessageId) (topic : String) (wrapper : Bytes)
    (contentType : ContentType) (info : WrapperMeta) (innerBytes : Bytes) : Unwrapped where
  wrapper := (Envelope.new ids.1 (.typed topic info.kind.elementName) wrapper).withContentType
    contentType
  inner := innerEnvelope ids.2 topic innerBytes (sniffContentType innerBytes)
    (typeHintFromInner crates innerBytes info.messageTypeEnum) info
  info

/-- A JSON object with its members in key order. -/
def objectOf (members : List (String × Value)) : Value :=
  .object (members.foldl (fun map member => insertEntry member.1 member.2 map) [])

def minimalWrapperJson (info : WrapperMeta) (inner : Bytes) : String :=
  let uuid (value : String) : Value := .object [("UUID", .string value)]
  let optional (key : String) (make : String → Value) (value : Option String) :
    List (String × Value) :=
    (value.map fun text => (key, make text)).toList
  let data := objectOf ([("MessageType", .string info.messageTypeEnum),
      ("EncodedPayload", .string (crates.hexUpper inner))] ++
    optional "DataPayloadOriginatorID" uuid info.originatorUuid ++
    optional "RxDataPayloadID" uuid info.rxPayloadId ++
    optional "CommandID" uuid info.commandId ++
    optional "DestinationRouting" .string info.destinationRouting)
  crates.jsonPrint (.object [(info.kind.elementName, .object [("MessageData", data)])])

/-- Both envelopes of a wrapper that arrived as its parts. -/
def unwrappedFromParts (ids : MessageId × MessageId) (topic : String) (info : WrapperMeta)
    (encoded : Bytes) : Except AgraError Unwrapped :=
  if encoded.length > maxDecodedPayload then .error .payloadTooLarge
  else .ok (assemble crates ids topic (utf8 (minimalWrapperJson crates info encoded))
    .json info encoded)

def jsonStr (data : Value) (field : String) : Except AgraError String :=
  match (data.get field).bind Value.asStr with
  | some text => .ok text
  | none => .error (.missingField field)

/-- The UUID nested in a member. -/
def pointerUuid (data : Value) (field : String) : Option String :=
  ((data.get field).bind fun value => value.get "UUID").bind Value.asStr

def unwrapJson (ids : MessageId × MessageId) (topic text : String) : Except AgraError Unwrapped :=
  match crates.jsonParse text with
  | .error message => .error (.json message)
  | .ok root =>
    match root.asObject with
    | none => .error (.json "root must be an object")
    | some [(name, body)] =>
      match WrapperKind.fromElement name with
      | none => .error .notAWrapper
      | some kind =>
        match body.get "MessageData" with
        | none => .error (.missingField "MessageData")
        | some data => do
          let messageType ← jsonStr data "MessageType"
          let hexPayload ← jsonStr data "EncodedPayload"
          let innerBytes ← decodeHex hexPayload
          let info : WrapperMeta :=
            { kind
              messageTypeEnum := messageType
              originatorUuid := pointerUuid data "DataPayloadOriginatorID"
              rxPayloadId := pointerUuid data "RxDataPayloadID"
              commandId := pointerUuid data "CommandID"
              destinationRouting := (data.get "DestinationRouting").bind Value.asStr }
          return assemble crates ids topic (utf8 text) .json info innerBytes
    | some _ => .error .notAWrapper

/-- The first element of this name at or below `node`. -/
def firstNamed (node : Xml.Node) (name : String) : Option Xml.Node :=
  node.descendants.find? fun other => other.isElement && other.localName == name

def localText (node : Xml.Node) (name : String) : Option String :=
  (firstNamed node name).bind Xml.Node.textOf

def nestedUuid (node : Xml.Node) (parent : String) : Option String :=
  (firstNamed node parent).bind fun found => localText found "UUID"

/-- `ok_or(AgraError::MissingField(field))`. -/
def required (field : String) : Option String → Except AgraError String
  | some text => .ok text
  | none => .error (.missingField field)

def unwrapXml (ids : MessageId × MessageId) (topic text : String) : Except AgraError Unwrapped :=
  match parseChecked (fun text => (crates.xmlParse text).toOption) text with
  | none => .error .notAWrapper
  | some root =>
    match WrapperKind.fromElement root.localName with
    | none => .error .notAWrapper
    | some kind => do
      let messageType ← required "MessageType" (localText root "MessageType")
      let hexPayload ← required "EncodedPayload" (localText root "EncodedPayload")
      let innerBytes ← decodeHex (trimText hexPayload)
      let info : WrapperMeta :=
        { kind
          messageTypeEnum := messageType
          originatorUuid := nestedUuid root "DataPayloadOriginatorID"
          rxPayloadId := nestedUuid root "RxDataPayloadID"
          commandId := nestedUuid root "CommandID"
          destinationRouting := localText root "DestinationRouting" }
      return assemble crates ids topic (utf8 text) .xml info innerBytes

/-- Unwrap a JSON or XML wrapper. -/
def unwrap (ids : MessageId × MessageId) (topic : String) (payload : Bytes) :
    Except AgraError Unwrapped :=
  match fromUtf8 payload with
  | none => .error (.json "wrapper payload is not UTF-8")
  | some text =>
    let trimmed := trimText text
    if startsWith '{' trimmed then unwrapJson crates ids topic trimmed
    else if startsWith '<' trimmed then unwrapXml crates ids topic trimmed
    else .error .notAWrapper

end

end OaGateway.Agra
