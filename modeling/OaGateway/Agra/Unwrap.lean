import OaGateway.Agra.Wrapper
import OaGateway.Lib.Collect

/-! What a successful unwrap has found, whichever format the wrapper came in. -/
namespace OaGateway.Agra

open Lib Lib.Json OaGateway.Core

/-- What is lifted off the `MessageData` of a JSON wrapper. -/
def jsonInfo (kind : WrapperKind) (messageType : String) (data : Value) : WrapperMeta where
  kind
  messageTypeEnum := messageType
  originatorUuid := pointerUuid data "DataPayloadOriginatorID"
  rxPayloadId := pointerUuid data "RxDataPayloadID"
  commandId := pointerUuid data "CommandID"
  destinationRouting := (data.get "DestinationRouting").bind Value.asStr

/-- What is lifted off an XML wrapper. -/
def xmlInfo (kind : WrapperKind) (messageType : String) (root : Xml.Node) : WrapperMeta where
  kind
  messageTypeEnum := messageType
  originatorUuid := nestedUuid root "DataPayloadOriginatorID"
  rxPayloadId := nestedUuid root "RxDataPayloadID"
  commandId := nestedUuid root "CommandID"
  destinationRouting := localText root "DestinationRouting"

/-- The member of `MessageData` that holds a text. -/
def memberText (data : Value) (field : String) : Option String := (data.get field).bind Value.asStr

/-- The `MessageData` a wrapper's parts make, the payload being in hex already. -/
def partsData (info : WrapperMeta) (encoded : String) : Value :=
  let uuid (value : String) : Value := .object [("UUID", .string value)]
  let optional (key : String) (make : String → Value) (value : Option String) :
    List (String × Value) :=
    (value.map fun text => (key, make text)).toList
  objectOf ([("MessageType", .string info.messageTypeEnum),
      ("EncodedPayload", .string encoded)] ++
    optional "DataPayloadOriginatorID" uuid info.originatorUuid ++
    optional "RxDataPayloadID" uuid info.rxPayloadId ++
    optional "CommandID" uuid info.commandId ++
    optional "DestinationRouting" .string info.destinationRouting)

/-- The document they make. -/
def partsValue (info : WrapperMeta) (encoded : String) : Value :=
  .object [(info.kind.elementName, .object [("MessageData", partsData info encoded)])]

section
variable {crates : Crates} {ids : MessageId × MessageId} {topic text : String} {peeled : Unwrapped}

theorem minimalWrapperJson_eq (info : WrapperMeta) (inner : Bytes) :
    minimalWrapperJson crates info inner =
      crates.jsonPrint (partsValue info (crates.hexUpper inner)) := rfl

theorem elementName_of_fromElement (wrapper : WrapperKind.fromElement name = some kind) :
    name = kind.elementName := by
  rw [WrapperKind.fromElement] at wrapper
  split at wrapper
  · rename_i same
    cases wrapper
    exact same
  · split at wrapper
    · rename_i same
      cases wrapper
      exact same
    · cases wrapper

theorem jsonStr_eq_ok {data : Value} {field value : String} :
    jsonStr data field = .ok value ↔ memberText data field = some value := by
  rw [jsonStr, memberText]
  cases (data.get field).bind Value.asStr <;> simp

theorem required_eq_ok {field value : String} {found : Option String} :
    required field found = .ok value ↔ found = some value := by
  cases found <;> simp [required]

theorem unwrapJson_eq_ok :
    unwrapJson crates ids topic text = .ok peeled ↔
      ∃ name body kind data messageType hex bytes,
        crates.jsonParse text = .ok (.object [(name, body)]) ∧
        WrapperKind.fromElement name = some kind ∧ body.get "MessageData" = some data ∧
        memberText data "MessageType" = some messageType ∧
        memberText data "EncodedPayload" = some hex ∧ decodeHex hex = .ok bytes ∧
            peeled = assemble crates ids topic (utf8 text) .json
            (jsonInfo kind messageType data) bytes := by
  constructor
  · intro run
    rw [unwrapJson] at run
    split at run
    · cases run
    rename_i root parsed
    split at run
    · cases run
    · rename_i name body single
      obtain rfl : root = .object [(name, body)] := by
        cases root <;> simp_all [Value.asObject]
      split at run
      · cases run
      rename_i kind named
      split at run
      · cases run
      rename_i data held
      obtain ⟨messageType, typed, run⟩ := bind_eq_ok.mp run
      obtain ⟨hex, encoded, run⟩ := bind_eq_ok.mp run
      obtain ⟨bytes, decoded, run⟩ := bind_eq_ok.mp run
      exact ⟨name, body, kind, data, messageType, hex, bytes, parsed, named, held,
        jsonStr_eq_ok.mp typed, jsonStr_eq_ok.mp encoded, decoded, (Except.ok.inj run).symm⟩
    · cases run
  · rintro ⟨name, body, kind, data, messageType, hex, bytes, parsed, named, held, typed,
      encoded, decoded, rfl⟩
    have typed := jsonStr_eq_ok.mpr typed
    have encoded := jsonStr_eq_ok.mpr encoded
    simp only [unwrapJson, parsed, Value.asObject, named, held]
    exact bind_eq_ok.mpr ⟨_, typed, bind_eq_ok.mpr ⟨_, encoded, bind_eq_ok.mpr ⟨_, decoded, rfl⟩⟩⟩

theorem unwrapXml_eq_ok :
    unwrapXml crates ids topic text = .ok peeled ↔
      ∃ root kind messageType hex bytes,
        parseChecked (fun text => (crates.xmlParse text).toOption) text = some root ∧
        WrapperKind.fromElement root.localName = some kind ∧
        localText root "MessageType" = some messageType ∧
        localText root "EncodedPayload" = some hex ∧ decodeHex (trimText hex) = .ok bytes ∧
            peeled = assemble crates ids topic (utf8 text) .xml
            (xmlInfo kind messageType root) bytes := by
  constructor
  · intro run
    rw [unwrapXml] at run
    split at run
    · cases run
    rename_i root parsed
    split at run
    · cases run
    rename_i kind named
    obtain ⟨messageType, typed, run⟩ := bind_eq_ok.mp run
    obtain ⟨hex, encoded, run⟩ := bind_eq_ok.mp run
    obtain ⟨bytes, decoded, run⟩ := bind_eq_ok.mp run
    exact ⟨root, kind, messageType, hex, bytes, parsed, named, required_eq_ok.mp typed,
      required_eq_ok.mp encoded, decoded, (Except.ok.inj run).symm⟩
  · rintro ⟨root, kind, messageType, hex, bytes, parsed, named, typed, encoded, decoded, rfl⟩
    have typed := (@required_eq_ok "MessageType" _ _).mpr typed
    have encoded := (@required_eq_ok "EncodedPayload" _ _).mpr encoded
    simp only [unwrapXml, parsed, named]
    exact bind_eq_ok.mpr ⟨_, typed, bind_eq_ok.mpr ⟨_, encoded, bind_eq_ok.mpr ⟨_, decoded, rfl⟩⟩⟩

/-- Both envelopes are assembled from what was found, on the topic asked for. -/
theorem unwrap_inv {payload : Bytes} (run : unwrap crates ids topic payload = .ok peeled) :
    ∃ text contentType, contentType ∈ [ContentType.json, .xml, .octetStream] ∧
      ∃ info bytes, peeled = assemble crates ids topic (utf8 text) contentType info bytes := by
  rw [unwrap] at run
  split at run
  · cases run
  · simp only at run
    split at run
    · obtain ⟨_, _, _, _, _, _, _, -, -, -, -, -, -, rfl⟩ := unwrapJson_eq_ok.mp run
      exact ⟨_, _, by simp, _, _, rfl⟩
    · split at run
      · obtain ⟨_, _, _, _, _, -, -, -, -, -, rfl⟩ := unwrapXml_eq_ok.mp run
        exact ⟨_, _, by simp, _, _, rfl⟩
      · cases run

/-- Optional headers change nothing but the headers. -/
theorem withOptional_spec (envelope : Envelope) (key : String) (value : Option String) :
    (withOptional envelope key value).route = envelope.route ∧
      (withOptional envelope key value).payload = envelope.payload ∧
      (withOptional envelope key value).contentType = envelope.contentType := by
  cases value <;> exact ⟨rfl, rfl, rfl⟩

theorem innerEnvelope_spec (id : MessageId) (topic : String) (bytes : Bytes)
    (contentType : ContentType) (hint : String) (info : WrapperMeta) :
    (innerEnvelope id topic bytes contentType hint info).route = .typed topic hint ∧
      (innerEnvelope id topic bytes contentType hint info).payload = bytes ∧
      (innerEnvelope id topic bytes contentType hint info).contentType = contentType := by
  simp [innerEnvelope, withOptional_spec, Envelope.withHeader, Envelope.withContentType,
    Envelope.new]

/-- Both halves of a wrapper are published on its topic. -/
theorem topic_of_unwrap {payload : Bytes} (run : unwrap crates ids topic payload = .ok peeled) :
    peeled.wrapper.route.topic = topic ∧ peeled.inner.route.topic = topic := by
  obtain ⟨text, contentType, -, info, bytes, rfl⟩ := unwrap_inv run
  exact ⟨rfl, by simp [assemble, innerEnvelope_spec, RouteKey.typed]⟩

end

end OaGateway.Agra
