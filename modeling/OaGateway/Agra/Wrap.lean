import OaGateway.Agra.Hex
import OaGateway.Agra.Unwrap
import OaGateway.Lib.Printed
import OaGateway.Lib.Reread

/-! Wrappers the gateway builds, from structured parts and from a request, and what
an unwrap finds in them. -/
namespace OaGateway.Agra

open Lib Lib.Json OaGateway.Core

/-- Classification and header, supplied by the caller. -/
structure WrapShell where
  securityInformation : Value
  messageHeader : Value

/-- What a wrapper is built from around an inner payload. -/
structure WrapRequest where
  topic : String
  kind : WrapperKind
  inner : Bytes
  messageTypeEnum : String
  shell : WrapShell
  destinationRouting : String
  originatorUuid : Option String
  specificDestinationUuids : List String
  timestamp : String
  priority : UInt16
  precedence : UInt16

def uuidObject (uuid : String) : Value := .object [("UUID", .string uuid)]

/-- `uuid::Uuid::nil()`. -/
def nilUuid : String := "00000000-0000-0000-0000-000000000000"

def WrapRequest.ranking (request : WrapRequest) : Value :=
  objectOf [("Priority", .number (.ofU64 request.priority.toNat)),
    ("PrecedenceWithinPriority", .number (.ofU64 request.precedence.toNat))]

/-- The members of `MessageData`, in the order they are put in. `hex` is the inner
payload in hex, `drawn` the identifier the code draws at random. -/
def WrapRequest.members (request : WrapRequest) (hex drawn : String) : List (String × Value) :=
  let encoded := Value.string hex
  let destinations := request.specificDestinationUuids.map uuidObject
  (match request.kind with
    | .rx => [("RxDataPayloadID", uuidObject drawn),
        ("DataPayloadOriginatorID", uuidObject (request.originatorUuid.getD nilUuid)),
        ("EncodedPayload", encoded), ("Timestamp", .string request.timestamp),
        ("MessageType", .string request.messageTypeEnum),
        ("DestinationRouting", .string request.destinationRouting)]
    | .tx => [("CommandID", uuidObject drawn), ("CommandState", .string "NEW"),
      ("EncodedPayload", encoded),
        ("MessageType", .string request.messageTypeEnum), ("Priority", request.ranking),
        ("Timestamp", .string request.timestamp),
          ("DestinationRouting", .string request.destinationRouting)]) ++
    (if request.kind = .rx then [("Priority", request.ranking)] else []) ++
    (if destinations.isEmpty then [] else [("SpecificDestinationID", .array destinations)])

/-- The document `wrap` prints. -/
def WrapRequest.document (request : WrapRequest) (hex drawn : String) : Value :=
  .object [(request.kind.elementName,
    objectOf [("SecurityInformation", request.shell.securityInformation),
      ("MessageHeader", request.shell.messageHeader),
      ("MessageData", objectOf (request.members hex drawn))])]

/-- Wrap an inner payload as hexBinary. A `Value` always prints. -/
def wrap (crates : Crates) (id : MessageId) (drawn : String) (request : WrapRequest) :
    Except AgraError Envelope :=
  .ok ((Envelope.new id (.typed request.topic request.kind.elementName)
    (utf8 (crates.jsonPrint
      (request.document (crates.hexUpper request.inner) drawn)))).withContentType .json)

/-- The levels of arrays and objects `serde_json` reads. -/
def jsonDepth : Nat := 127

section Members

theorem fromElement_elementName (kind : WrapperKind) : WrapperKind.fromElement kind.elementName =
    some kind := by
  cases kind <;> decide

/-- Of members of one name the last one counts. -/
theorem get_objectOf (members : List (String × Value)) (key : String) :
    (objectOf members).get key = (members.reverse.find? fun member => member.1 == key).map
      Prod.snd := by
  induction members using List.reverseRecOn with
  | nil => rfl
  | append_singleton front member ih =>
    have split : (objectOf (front ++ [member])).get key =
        if key = member.1 then some member.2 else (objectOf front).get key := by
      simp only [objectOf, Value.get, Value.asObject, Option.bind_some, List.foldl_append,
        List.foldl_cons, List.foldl_nil]
      exact OrdMap.find_insertEntry member.1 key member.2 _
    rw [split, List.reverse_append, List.reverse_singleton, List.singleton_append, List.find?_cons]
    by_cases same : member.1 = key
    · simp [same]
    · have other : (member.1 == key) = false := beq_eq_false_iff_ne.mpr same
      rw [if_neg (Ne.symm same), other, ih]

theorem find_optional (name key : String) (make : String → Value) (value : Option String) :
    (((value.map fun text => (name, make text)).toList.reverse.find? fun member =>
      member.1 == key).map Prod.snd) =
      if name = key then value.map make else none := by
  cases value with
  | none => simp
  | some text => by_cases same : name = key <;> simp [same]

/-- Every part of a wrapper is found again. -/
theorem partsData_spec (info : WrapperMeta) (encoded : String) :
    memberText (partsData info encoded) "MessageType" = some info.messageTypeEnum ∧
      memberText (partsData info encoded) "EncodedPayload" = some encoded ∧
      jsonInfo info.kind info.messageTypeEnum (partsData info encoded) = info := by
  have text (value : Option String) : (value.map Value.string).bind Value.asStr = value := by
    cases value <;> rfl
  have uuid (value : Option String) :
    ((value.map fun uuid => Value.object [("UUID", .string uuid)]).bind
      fun found => found.get "UUID").bind Value.asStr = value := by
    cases value <;> rfl
  simp only [memberText, jsonInfo, pointerUuid, partsData, get_objectOf, List.reverse_append,
    List.find?_append, Option.map_or, find_optional]
  refine ⟨?_, ?_, ?_⟩
  · simp [Value.asStr]
  · simp [Value.asStr]
  · simp [text, uuid]

/-- What a request puts into `MessageData`. -/
theorem members_spec (request : WrapRequest) (hex drawn : String) :
    memberText (objectOf (request.members hex drawn)) "MessageType" = some request.messageTypeEnum ∧
      memberText (objectOf (request.members hex drawn)) "EncodedPayload" = some hex ∧
      memberText (objectOf (request.members hex drawn)) "DestinationRouting" =
        some request.destinationRouting ∧
      (request.kind = .rx → pointerUuid (objectOf (request.members hex drawn))
        "DataPayloadOriginatorID" = some (request.originatorUuid.getD nilUuid)) := by
  simp only [memberText, pointerUuid, get_objectOf, WrapRequest.members, List.reverse_append,
    List.find?_append]
  cases request.kind with
  | rx =>
    cases request.specificDestinationUuids with
    | nil => simp [Value.asStr, uuidObject, Value.get, Value.asObject]
    | cons first rest => simp [Value.asStr, uuidObject, Value.get, Value.asObject]
  | tx =>
    cases request.specificDestinationUuids with
    | nil => simp [Value.asStr]
    | cons first rest => simp [Value.asStr]

theorem within_objectOf {members : List (String × Value)} {levels : Nat}
    (each : ∀ member ∈ members, member.2.within levels = true) :
    (objectOf members).within (levels + 1) = true := by
  have kept : ∀ map : List (String × Value), (∀ member ∈ map, member.2.within levels = true) →
      ∀ member ∈ members.foldl (fun map member => insertEntry member.1 member.2 map) map,
        member.2.within levels = true := by
    induction members with
    | nil => exact fun map known => known
    | cons first rest ih =>
      intro map known
      refine ih (fun member inside => each member (.tail _ inside)) _ fun member inside => ?_
      rcases mem_insertEntry inside with rfl | earlier
      · exact each first (.head _)
      · exact known member earlier
  rw [objectOf, Value.within, List.all_eq_true]
  exact kept [] (by simp)

/-- A shell that fits into the document. -/
def WrapShell.Shallow (shell : WrapShell) : Prop :=
  shell.securityInformation.within (jsonDepth - 2) = true ∧
    shell.messageHeader.within (jsonDepth - 2) = true

theorem within_members (request : WrapRequest) (hex drawn : String) (levels : Nat) :
    ∀ member ∈ request.members hex drawn, member.2.within (levels + 2) = true := by
  have uuid (uuid : String) : (uuidObject uuid).within (levels + 1) = true := by
    simp [uuidObject, Value.within]
  have deeper (uuid : String) : (uuidObject uuid).within (levels + 2) = true := by
    simp [uuidObject, Value.within]
  have ranking : request.ranking.within (levels + 2) = true :=
    within_objectOf (by simp [Value.within])
  have destinations : (Value.array (request.specificDestinationUuids.map uuidObject)).within
      (levels + 2) = true := by
    simp [Value.within, uuid]
  intro member inside
  rw [WrapRequest.members] at inside
  rcases List.mem_append.mp inside with front | last
  · rcases List.mem_append.mp front with front | rank
    · cases kind : request.kind with
      | rx =>
        simp only [kind, List.mem_cons, List.not_mem_nil, or_false] at front
        rcases front with rfl | rfl | rfl | rfl | rfl | rfl <;> simp [deeper, Value.within]
      | tx =>
        simp only [kind, List.mem_cons, List.not_mem_nil, or_false] at front
        rcases front with rfl | rfl | rfl | rfl | rfl | rfl | rfl <;>
          simp [deeper, ranking, Value.within]
    · split at rank
      · cases List.mem_singleton.mp rank
        exact ranking
      · cases rank
  · split at last
    · cases last
    · cases List.mem_singleton.mp last
      exact destinations

theorem within_document {request : WrapRequest} (shallow : request.shell.Shallow)
    (hex drawn : String) : (request.document hex drawn).within jsonDepth = true := by
  have data : (objectOf (request.members hex drawn)).within (122 + 3) = true :=
    within_objectOf (within_members request hex drawn 122)
  have body : (objectOf [("SecurityInformation", request.shell.securityInformation),
      ("MessageHeader", request.shell.messageHeader),
        ("MessageData", objectOf (request.members hex drawn))]).within
        (125 + 1) = true := by
    refine within_objectOf fun member inside => ?_
    simp only [List.mem_cons, List.not_mem_nil, or_false] at inside
    rcases inside with rfl | rfl | rfl
    · exact shallow.1
    · exact shallow.2
    · exact data
  rw [WrapRequest.document, jsonDepth, Value.within]
  simpa using body

theorem within_partsValue (info : WrapperMeta) (encoded : String) :
    (partsValue info encoded).within jsonDepth = true := by
  have data : (partsData info encoded).within (123 + 2) = true := by
    refine within_objectOf fun member inside => ?_
    simp only [List.mem_append, List.mem_cons, List.not_mem_nil, or_false, Option.mem_toList,
      Option.map_eq_some_iff] at inside
    rcases inside with ((((rfl | rfl) | ⟨_, -, rfl⟩) | ⟨_, -, rfl⟩) | ⟨_, -, rfl⟩) | ⟨_, -, rfl⟩ <;>
      simp [Value.within]
  rw [partsValue, jsonDepth, Value.within]
  simpa [Value.within] using data

end Members

/-- How `serde_json` prints and reads a value that is an object: with no white
space around it, and what does not nest too deep is read again. -/
structure JsonText (crates : Crates) (value : Value) : Prop where
  braced : startsWith '{' (crates.jsonPrint value) = true
  trimmed : trimText (crates.jsonPrint value) = crates.jsonPrint value
  again : value.within jsonDepth = true →
    ∃ reading, crates.jsonParse (crates.jsonPrint value) = .ok reading ∧ Reread value reading

section Printed
variable {crates : Crates} {body data : Value} {kind : WrapperKind}

theorem reread_single {reading : Value} (same : Reread (.object [(name, body)]) reading) :
    ∃ other, reading = .object [(name, other)] ∧ Reread body other := by
  cases same with
  | @object _ others keys each =>
    match others with
    | [] => cases keys
    | [(key, value)] =>
      obtain ⟨rfl, -⟩ := List.cons.inj keys
      cases each with
      | cons here _ => exact ⟨value, rfl, here⟩
    | _ :: _ :: _ => cases (List.cons.inj keys).2

theorem jsonInfo_reread {reading : Value} (same : Reread data reading) (messageType : String) :
    jsonInfo kind messageType reading = jsonInfo kind messageType data := by
  have pointer (field : String) : pointerUuid reading field = pointerUuid data field := by
    rw [pointerUuid, pointerUuid, Option.bind_assoc, Option.bind_assoc]
    exact (bind_of_rel (same.get field) fun _ _ related => related.get_asStr "UUID").symm
  rw [jsonInfo, jsonInfo, pointer, pointer, pointer, same.get_asStr]

/-- A text that opens a brace has nothing to trim before it. -/
theorem wrapperKind_of_braced {text name : String} (braced : startsWith '{' text = true)
    (single : singleMember crates text = some name) :
    wrapperKind crates (utf8 text) = WrapperKind.fromElement name := by
  have first : text.toList.head? = some '{' := by simpa [startsWith] using braced
  obtain ⟨rest, spelled⟩ := List.head?_eq_some_iff.mp first
  have kept : trimStartText text = text := by
    have whole : trimStart ('{' :: rest) = '{' :: rest := rfl
    rw [trimStartText, spelled, whole, ← spelled, String.ofList_toList]
  rw [wrapperKind, fromUtf8_utf8, Option.bind_some, kept, elementOf, if_pos braced, single,
    Option.bind_some]

/-- A printed wrapper is detected. -/
theorem wrapperKind_printed (text : JsonText crates (.object [(kind.elementName, body)]))
    (shallow : (Value.object [(kind.elementName, body)]).within jsonDepth = true) :
    wrapperKind crates (utf8 (crates.jsonPrint (.object [(kind.elementName, body)]))) =
      some kind := by
  obtain ⟨reading, parsed, same⟩ := text.again shallow
  obtain ⟨other, rfl, -⟩ := reread_single same
  have single : singleMember crates (crates.jsonPrint (.object [(kind.elementName, body)])) =
      some kind.elementName := by
    rw [singleMember, parsed]
    rfl
  rw [wrapperKind_of_braced text.braced single, fromElement_elementName]

/-- And taken apart. -/
theorem unwrap_printed {payload : Bytes} (hex : crates.WritesHex)
    (text : JsonText crates (.object [(kind.elementName, body)]))
    (shallow : (Value.object [(kind.elementName, body)]).within jsonDepth = true)
    (held : body.get "MessageData" = some data)
    (typed : memberText data "MessageType" = some messageType)
    (encoded : memberText data "EncodedPayload" = some (crates.hexUpper payload))
    (small : payload.length ≤ maxDecodedPayload) (ids : MessageId × MessageId) (topic : String) :
    unwrap crates ids topic (utf8 (crates.jsonPrint (.object [(kind.elementName, body)]))) =
      .ok (assemble crates ids topic (utf8 (crates.jsonPrint (.object [(kind.elementName, body)])))
        .json
        (jsonInfo kind messageType data) payload) := by
  obtain ⟨reading, parsed, same⟩ := text.again shallow
  obtain ⟨other, rfl, inside⟩ := reread_single same
  obtain ⟨reread, held, data⟩ := inside.of_get held
  have typed : memberText reread "MessageType" = some messageType :=
    (data.get_asStr _).symm.trans typed
  have encoded : memberText reread "EncodedPayload" = some (upperHex payload) := by
    rw [← hex payload]
    exact (data.get_asStr _).symm.trans encoded
  rw [unwrap, fromUtf8_utf8]
  simp only [text.trimmed, if_pos text.braced]
  exact unwrapJson_eq_ok.mpr ⟨_, _, _, reread, _, _, _, parsed, fromElement_elementName _, held,
    typed, encoded, decodeHex_upperHex small, by rw [jsonInfo_reread data]⟩

end Printed

section RoundTrip
variable {crates : Crates}

theorem unwrap_partsValue {info : WrapperMeta} {inner : Bytes} (hex : crates.WritesHex)
    (text : JsonText crates (partsValue info (crates.hexUpper inner)))
    (small : inner.length ≤ maxDecodedPayload) (ids : MessageId × MessageId) (topic : String) :
    unwrap crates ids topic (utf8 (crates.jsonPrint (partsValue info (crates.hexUpper inner)))) =
      .ok (assemble crates ids topic
        (utf8 (crates.jsonPrint (partsValue info (crates.hexUpper inner)))) .json info
        inner) := by
  obtain ⟨typed, encoded, same⟩ := partsData_spec info (crates.hexUpper inner)
  have taken := unwrap_printed hex text (within_partsValue info _) rfl typed encoded small ids topic
  rw [same] at taken
  exact taken

theorem unwrap_request {request : WrapRequest} {drawn : String} (hex : crates.WritesHex)
    (text : JsonText crates (request.document (crates.hexUpper request.inner) drawn))
    (shallow : request.shell.Shallow) (small : request.inner.length ≤ maxDecodedPayload)
    (ids : MessageId × MessageId) (topic : String) :
    unwrap crates ids topic
      (utf8 (crates.jsonPrint (request.document (crates.hexUpper request.inner) drawn))) =
      .ok (assemble crates ids topic
        (utf8 (crates.jsonPrint (request.document (crates.hexUpper request.inner) drawn))) .json
        (jsonInfo request.kind request.messageTypeEnum
          (objectOf (request.members (crates.hexUpper request.inner) drawn))) request.inner) := by
  obtain ⟨typed, encoded, -, -⟩ := members_spec request (crates.hexUpper request.inner) drawn
  exact unwrap_printed hex text (within_document shallow _ drawn) (by rw [get_objectOf]; rfl) typed
    encoded small ids
    topic

theorem headers_withOptional {one two : Envelope} (same : one.headers = two.headers) (key : String)
    (value : Option String) : (withOptional one key value).headers =
      (withOptional two key value).headers := by
  cases value with
  | none => exact same
  | some text => rw [withOptional, withOptional, Envelope.withHeader, Envelope.withHeader, same]

/-- The headers do not depend on the id drawn. -/
theorem headers_innerEnvelope (id other : MessageId) (topic : String) (bytes : Bytes)
    (contentType : ContentType) (hint : String) (info : WrapperMeta) :
    (innerEnvelope id topic bytes contentType hint info).headers =
      (innerEnvelope other topic bytes contentType hint info).headers := by
  simp only [innerEnvelope]
  refine headers_withOptional
    (headers_withOptional (headers_withOptional (headers_withOptional ?_ _ _) _ _) _ _) _ _
  rfl

/-- An unwrap undoes both ways of building a wrapper. -/
theorem unwrap_inverts (crates : Crates) (hex : crates.WritesHex)
    (ids others : MessageId × MessageId) :
    (∀ (topic : String) (info : WrapperMeta) (payload : Bytes), payload.length ≤ maxDecodedPayload →
      JsonText crates (partsValue info (crates.hexUpper payload)) →
      ∃ built again, unwrappedFromParts crates ids topic info payload = .ok built ∧
        unwrap crates others topic built.wrapper.payload = .ok again ∧ again.info = info ∧
        again.inner.route = built.inner.route ∧ again.inner.contentType = built.inner.contentType ∧
        again.inner.headers = built.inner.headers ∧ again.inner.payload = built.inner.payload) ∧
    ∀ (request : WrapRequest) (drawn topic : String), request.inner.length ≤ maxDecodedPayload →
      request.shell.Shallow →
      JsonText crates (request.document (crates.hexUpper request.inner) drawn) →
      ∃ envelope peeled, wrap crates ids.1 drawn request = .ok envelope ∧
        wrapperKind crates envelope.payload = some request.kind ∧
        unwrap crates others topic envelope.payload = .ok peeled ∧ peeled.info.kind = request.kind ∧
        peeled.info.messageTypeEnum = request.messageTypeEnum ∧
        peeled.info.destinationRouting = some request.destinationRouting ∧
        (∀ originator, request.kind = .rx → request.originatorUuid = some originator →
          peeled.info.originatorUuid = some originator) ∧
        peeled.inner.payload = request.inner := by
  constructor
  · intro topic info payload small text
    have built : unwrappedFromParts crates ids topic info payload =
        .ok (assemble crates ids topic
          (utf8 (crates.jsonPrint (partsValue info (crates.hexUpper payload)))) .json info
          payload) := if_neg (Nat.not_lt.mpr small)
    have taken := unwrap_partsValue hex text small others topic
    exact ⟨_, _, built, taken,
      rfl, by simp [assemble, innerEnvelope_spec], by
        simp [assemble, innerEnvelope_spec],
        headers_innerEnvelope _ _ _ _ _ _ _, by simp [assemble, innerEnvelope_spec]⟩
  · intro request drawn topic small shallow text
    have detected := wrapperKind_printed text (within_document shallow _ drawn)
    have taken := unwrap_request hex text shallow small others topic
    obtain ⟨-, -, routing, originator⟩ := members_spec request (crates.hexUpper request.inner) drawn
    refine ⟨_, _, rfl, detected, taken, rfl, rfl, routing,
      ?_, by simp [assemble, innerEnvelope_spec]⟩
    intro uuid kind named
    have found := originator kind
    rw [named] at found
    exact found

end RoundTrip

section Sample

/-- A relayed message from a known originator. -/
def relayed : WrapRequest where
  topic := "offboard"
  kind := .rx
  inner := [123, 125]
  messageTypeEnum := "PING"
  shell := ⟨.null, .object [("Mode", .string "LIVE")]⟩
  destinationRouting := "TOPIC"
  originatorUuid := some "o1"
  specificDestinationUuids := ["d1"]
  timestamp := "T"
  priority := 1
  precedence := 2

/-- The parts of a wrapper with every part there is. -/
def relayedParts : WrapperMeta where
  kind := .rx
  messageTypeEnum := "PING"
  originatorUuid := some "o1"
  rxPayloadId := some "r1"
  commandId := some "c1"
  destinationRouting := some "TOPIC"

def requestText : List Char :=
  '\x7b' ::
    ("\"MA_RxDataPayload\":\x7b\"MessageData\":\x7b".toList ++
      "\"DataPayloadOriginatorID\":\x7b\"UUID\":\"o1\"\x7d,".toList ++
      "\"DestinationRouting\":\"TOPIC\",\"EncodedPayload\":\"7B7D\",".toList ++
      "\"MessageType\":\"PING\",".toList ++
      "\"Priority\":\x7b\"PrecedenceWithinPriority\":2,\"Priority\":1\x7d,".toList ++
      "\"RxDataPayloadID\":\x7b\"UUID\":\"u\"\x7d,".toList ++
      "\"SpecificDestinationID\":[\x7b\"UUID\":\"d1\"\x7d],\"Timestamp\":\"T\"\x7d,".toList ++
      "\"MessageHeader\":\x7b\"Mode\":\"LIVE\"\x7d,\"SecurityInformation\":null\x7d".toList) ++
    ['\x7d']

def partsText : List Char :=
  '\x7b' ::
    ("\"MA_RxDataPayload\":\x7b\"MessageData\":\x7b".toList ++
      "\"CommandID\":\x7b\"UUID\":\"c1\"\x7d,".toList ++
      "\"DataPayloadOriginatorID\":\x7b\"UUID\":\"o1\"\x7d,".toList ++
      "\"DestinationRouting\":\"TOPIC\",\"EncodedPayload\":\"7B7D\",".toList ++
      "\"MessageType\":\"PING\",\"RxDataPayloadID\":\x7b\"UUID\":\"r1\"\x7d\x7d".toList) ++
    ['\x7d']

/-- A JSON crate for one document. -/
def oneDocument (text : List Char) (value : Value) : Crates :=
  { Uci.bareCrates with
    jsonParse given := if given = .ofList text then .ok value else .error "expected value"
    jsonPrint _ := .ofList text }

theorem jsonText_oneDocument {text : List Char} {value : Value} (first : text.head? = some '\x7b')
    (trimmed : trim text = text) : JsonText (oneDocument text value) value where
  braced := by
    have prints : (oneDocument text value).jsonPrint value = .ofList text := rfl
    rw [prints, startsWith, String.toList_ofList, first]
    rfl
  trimmed := by
    have prints : (oneDocument text value).jsonPrint value = .ofList text := rfl
    rw [prints, trimText, String.toList_ofList, trimmed]
  again _ := ⟨value, if_pos rfl, .refl value⟩

theorem trim_requestText : trim requestText = requestText := by
  refine @trim_of_ends '{' '}' _ rfl (by decide) ?ends (by decide)
  case ends =>
    rw [requestText, List.getLast?_append]
    rfl

theorem trim_partsText : trim partsText = partsText := by
  refine @trim_of_ends '{' '}' _ rfl (by decide) ?ends (by decide)
  case ends =>
    rw [partsText, List.getLast?_append]
    rfl

/-- Both ways of building a wrapper are undone. -/
theorem relayed_unwrapped :
    (∃ envelope peeled,
      wrap (oneDocument requestText (relayed.document "7B7D" "u")) ⟨"w"⟩ "u" relayed =
        .ok envelope ∧
        wrapperKind (oneDocument requestText (relayed.document "7B7D" "u")) envelope.payload =
          some .rx ∧
        unwrap (oneDocument requestText (relayed.document "7B7D" "u")) (⟨"a"⟩, ⟨"b"⟩) "t"
          envelope.payload = .ok peeled ∧
        peeled.info.messageTypeEnum = "PING" ∧ peeled.info.destinationRouting = some "TOPIC" ∧
        peeled.info.originatorUuid = some "o1" ∧ peeled.inner.payload = [123, 125]) ∧
      ∃ built again,
        unwrappedFromParts (oneDocument partsText (partsValue relayedParts "7B7D")) (⟨"w"⟩, ⟨"i"⟩)
          "t" relayedParts
            [123, 125] = .ok built ∧
          unwrap (oneDocument partsText (partsValue relayedParts "7B7D")) (⟨"a"⟩, ⟨"b"⟩) "t"
            built.wrapper.payload =
            .ok again ∧
          again.info = relayedParts ∧ again.inner.headers = built.inner.headers ∧
          again.inner.payload = built.inner.payload := by
  constructor
  · obtain ⟨envelope, peeled, wrapped, detected, taken, -, typed, routed, sender, payload⟩ :=
      (unwrap_inverts (oneDocument requestText (relayed.document "7B7D" "u")) (fun _ => rfl)
        (⟨"w"⟩, ⟨"i"⟩)
        (⟨"a"⟩, ⟨"b"⟩)).2 relayed "u" "t" (by decide) ⟨by decide, by decide⟩
        (jsonText_oneDocument rfl trim_requestText)
    exact ⟨envelope, peeled, wrapped, detected, taken, typed, routed, sender "o1" rfl rfl, payload⟩
  · obtain ⟨built, again, made, taken, same, -, -, headers, payload⟩ :=
      (unwrap_inverts (oneDocument partsText (partsValue relayedParts "7B7D")) (fun _ => rfl)
        (⟨"w"⟩, ⟨"i"⟩)
        (⟨"a"⟩, ⟨"b"⟩)).1 "t" relayedParts [123, 125] (by decide)
          (jsonText_oneDocument rfl trim_partsText)
    exact ⟨built, again, made, taken, same, headers, payload⟩

end Sample

end OaGateway.Agra
