import OaGateway.Agra.Comments
import OaGateway.Agra.Unwrap
import OaGateway.Uci.Depths
import OaGateway.Uci.Walk

/-! One wrapper message, unwrapped from what it is written as in JSON and from
what it is written as in XML. -/
namespace OaGateway.Agra

open Lib Lib.Json OaGateway.Core

/-- The texts at the places below `MessageData` where the JSON reader looks. -/
def placedTexts (message : Uci.Message) : WrapperTexts :=
  let data (name : String) : Option Uci.Node :=
    (message.body.member "MessageData").bind (Uci.Node.member name)
  let uuid (name : String) : Option String :=
    ((data name).bind (Uci.Node.member "UUID")).bind Uci.Node.string
  { messageType := (data "MessageType").bind Uci.Node.string
    encodedPayload := (data "EncodedPayload").bind Uci.Node.string
    originator := uuid "DataPayloadOriginatorID"
    rxPayloadId := uuid "RxDataPayloadID"
    commandId := uuid "CommandID"
    routing := (data "DestinationRouting").bind Uci.Node.string }

/-- The texts of the nodes that are written first of their names, wherever they are. -/
def firstTexts (crates : Crates) (message : Uci.Message) : WrapperTexts :=
  let text (spot : Uci.Spot) (name : String) : Option String :=
    (spot.first name).bind (Uci.Spot.text crates)
  let uuid (name : String) : Option String := (message.spot.first name).bind fun spot =>
    text spot "UUID"
  { messageType := text message.spot "MessageType"
    encodedPayload := text message.spot "EncodedPayload"
    originator := uuid "DataPayloadOriginatorID"
    rxPayloadId := uuid "RxDataPayloadID"
    commandId := uuid "CommandID"
    routing := text message.spot "DestinationRouting" }

/-- There is a message type, and a payload that decodes. -/
def WrapperTexts.Complete (texts : WrapperTexts) : Prop :=
  texts.messageType.isSome = true ∧ ∃ bytes, texts.decoded = some (.ok bytes)

/-- Both readers have a whole wrapper before them, with the same texts, or
neither has: what is written must not nest too deep for them, and the texts at
the places under `MessageData` and those written first must be complete. -/
def SameWrapper (crates : Crates) (limit : Nat) (message : Uci.Message) : Prop :=
  ((message.json.within limit = true ∧ (placedTexts message).Complete) ↔
      message.body.within maxWrapperDepth ∧ (firstTexts crates message).Complete) ∧
    (message.json.within limit = true → (placedTexts message).Complete →
      (placedTexts message).Agree (firstTexts crates message))

section Outcomes
variable {crates : Crates} {topic : String} {kind : WrapperKind}

theorem WrapperTexts.complete_iff (texts : WrapperTexts) :
    texts.Complete ↔ ∃ result, texts.outcome crates topic kind = .ok result := by
  rw [Complete, outcome]
  cases texts.messageType with
  | none => simp
  | some messageType =>
    rcases texts.decoded with _ | error | bytes <;> simp

/-- Failures of any kind are alike. -/
theorem WrapperTexts.toOption_eq_iff (first second : WrapperTexts) :
    (first.outcome crates topic kind).toOption = (second.outcome crates topic kind).toOption ↔
      (first.Complete ↔ second.Complete) ∧ (first.Complete → first.Agree second) := by
  rw [← outcome_eq_iff crates topic kind, @complete_iff crates topic kind first,
    @complete_iff crates topic kind second]
  rcases first.outcome crates topic kind with _ | _ <;> rcases second.outcome crates topic
    kind with _ | _ <;>
    simp [Except.toOption]

/-- Readers that may refuse a wrapper for its depth. -/
theorem WrapperTexts.guarded_eq_iff {first second : WrapperTexts}
    {result other : Option (WrapperMeta × RouteKey × Bytes)} {fits passes : Prop}
    (read : fits → result = (first.outcome crates topic kind).toOption)
    (refused : ¬ fits → result = none)
    (seen : passes → other = (second.outcome crates topic kind).toOption)
    (rejected : ¬ passes → other = none) :
    result = other ↔ ((fits ∧ first.Complete) ↔ passes ∧ second.Complete) ∧
      (fits → first.Complete → first.Agree second) := by
  have missing (texts : WrapperTexts) : (texts.outcome crates topic kind).toOption = none ↔
      ¬ texts.Complete := by
    rw [@complete_iff crates topic kind texts]
    rcases texts.outcome crates topic kind with _ | _ <;> simp [Except.toOption]
  by_cases shallow : fits
  · by_cases flat : passes
    · simp [read shallow, seen flat, toOption_eq_iff, shallow, flat]
    · rw [read shallow, rejected flat, missing]
      simp only [shallow, flat, true_and, false_and, iff_false, forall_const]
      exact ⟨fun gone => ⟨gone, fun whole => absurd whole gone⟩, And.left⟩
  · by_cases flat : passes
    · rw [refused shallow, seen flat, eq_comm, missing]
      simp [shallow, flat]
    · simp [refused shallow, rejected flat, shallow, flat]

end Outcomes

section Json
variable {crates : Crates} {schema : Uci.Schema} {ids : MessageId × MessageId} {topic text : String}

/-- The texts in the `MessageData` of a JSON wrapper. -/
def dataTexts (data : Value) : WrapperTexts where
  messageType := memberText data "MessageType"
  encodedPayload := memberText data "EncodedPayload"
  originator := pointerUuid data "DataPayloadOriginatorID"
  rxPayloadId := pointerUuid data "RxDataPayloadID"
  commandId := pointerUuid data "CommandID"
  routing := memberText data "DestinationRouting"

/-- A JSON wrapper gives what the texts in its data do. The XML reader trims the
payload and this one does not. -/
theorem unwrapJson_outcome {body : Value}
    (parsed : crates.jsonParse text = .ok (.object [(name, body)]))
    (wrapper : WrapperKind.fromElement name = some kind)
    (trimmed : ∀ data hex, body.get "MessageData" = some data →
      memberText data "EncodedPayload" = some hex → trimText hex = hex) :
    ((unwrapJson crates ids topic text).map Unwrapped.outcome).toOption =
      (body.get "MessageData").bind fun data =>
          ((dataTexts data).outcome crates topic kind).toOption := by
  rw [unwrapJson, parsed]
  simp only [Value.asObject, wrapper]
  cases held : body.get "MessageData" with
  | none => rfl
  | some data =>
    simp only [Option.bind_some, WrapperTexts.outcome, WrapperTexts.decoded, dataTexts]
    cases typed : memberText data "MessageType" with
    | none =>
      have missing : jsonStr data "MessageType" = .error (.missingField "MessageType") := by
        rw [memberText] at typed
        rw [jsonStr, typed]
      simp only [missing, bind, Except.bind]
      rfl
    | some messageType =>
      simp only [jsonStr_eq_ok.mpr typed, bind, Except.bind]
      cases encoded : memberText data "EncodedPayload" with
      | none =>
        have missing : jsonStr data "EncodedPayload" = .error (.missingField "EncodedPayload") := by
          rw [memberText] at encoded
          rw [jsonStr, encoded]
        simp only [missing]
        rfl
      | some hex =>
        simp only [jsonStr_eq_ok.mpr encoded, Option.map_some, trimmed data hex held encoded]
        cases decodeHex hex with
        | error error => rfl
        | ok bytes =>
          simp only [pure, Except.pure, Except.map, outcome_assemble]
          rfl

theorem memberText_json (writable : Uci.Writable schema levels node declared)
    (plain : key ≠ "$type") :
    memberText node.json key = (node.member key).bind Uci.Node.string := by
  rw [memberText, Uci.get_json writable plain fun _ => rfl]
  simp only [Uci.asStr_json]

theorem pointerUuid_json (writable : Uci.Writable schema levels node declared)
    (plain : key ≠ "$type") :
    pointerUuid node.json key = ((node.member key).bind (Uci.Node.member "UUID")).bind
      Uci.Node.string := by
  rw [pointerUuid, Uci.get_json writable plain fun _ => rfl]
  cases held : node.member key with
  | none => rfl
  | some child =>
    obtain ⟨lower, type, below⟩ := writable.member held
    exact memberText_json below (by decide)

/-- The texts in what a message is written as are those at their places in the message. -/
theorem dataTexts_json {message : Uci.Message}
    (writable : Uci.Writable schema levels message.body declared) :
    ((message.body.json.get "MessageData").bind fun data =>
      ((dataTexts data).outcome crates topic kind).toOption) =
      ((placedTexts message).outcome crates topic kind).toOption := by
  rw [Uci.get_json writable (by decide) fun _ => rfl]
  cases held : message.body.member "MessageData" with
  | none => simp [placedTexts, held, WrapperTexts.outcome, Except.toOption]
  | some data =>
    obtain ⟨lower, type, below⟩ := writable.member held
    have same : dataTexts data.json = placedTexts message := by
      simp (disch := decide) only [dataTexts, placedTexts, held, Option.bind_some,
        memberText_json below, pointerUuid_json below]
    rw [Option.bind_some, same]

end Json

section Xml
variable {crates : Crates}

theorem localText_written {spot : Uci.Spot} (written : spot.Written crates xml) (name : String) :
    localText xml name = (spot.first name).bind (Uci.Spot.text crates) := by
  exact (bind_of_rel (written.first name) fun _ _ here => here.textOf_eq.symm).symm

theorem nestedUuid_written {spot : Uci.Spot} (written : spot.Written crates xml) (name : String) :
    nestedUuid xml name =
      (spot.first name).bind fun parent => (parent.first "UUID").bind (Uci.Spot.text crates) := by
  exact (bind_of_rel (written.first name) fun _ _ here => (localText_written here "UUID").symm).symm

/-- The texts read from what a message is written as are those written first. -/
theorem wrapperTexts_written {message : Uci.Message} (written : message.spot.Written crates root) :
    wrapperTexts root = firstTexts crates message := by
  simp only [wrapperTexts, firstTexts, localText_written written, nestedUuid_written written]

/-- The writer writes no character data sections. -/
theorem cdatas_contentOf (carriable : Uci.Carriable crates node) (depth : Nat) :
    (Uci.contentOf crates depth node).cdatas = [] := by
  induction carriable generalizing depth with
  | simple => rfl
  | @complex typeName fields _ _ _ ih =>
    by_cases none : fields = []
    · subst none
      rfl
    · rw [Uci.contentOf_complex _ _ _ none]
      generalize expanded : Uci.expanded fields = children at ih
      clear expanded
      induction children with
      | nil => rfl
      | cons child rest later =>
        obtain ⟨here, below⟩ := List.forall_mem_cons.mp ih
        have next := later below
        rw [List.map_cons, Xml.lines, List.foldr_cons, ← Xml.lines, Xml.gap,
          Xml.Content.cdatas, Uci.childOf, Uci.elementOf, Uci.wrapElement]
        split
        · exact next
        · rw [Xml.Content.cdatas, here, next]
          rfl

/-- What a message is written as, without the line break at the end. -/
def trimmedDocument (crates : Crates) (message : Uci.Message) : Xml.Document :=
  { Uci.writtenDocument crates message with epilog := .nil }

theorem trimText_writtenDocument (crates : Crates) (message : Uci.Message) :
    trimText (.ofList (Uci.writtenDocument crates message).render) =
      .ofList (trimmedDocument crates message).render := by
  have closes : (Uci.elementOf crates true 0 message.name message.body .nil).render.getLast? =
      some '>' := by
    rw [Uci.elementOf, Uci.wrapElement]
    split
    · simp [Xml.Content.render, Xml.Content.renderEmpty, List.getLast?_cons]
    · simp [Xml.Content.render, Xml.Content.renderEnd, List.getLast?_append, List.getLast?_cons]
  have whole : (trimmedDocument crates message).render = Uci.header.render ++ ['\n'] ++
      (Uci.elementOf crates true 0 message.name message.body .nil).render := by
    simp [trimmedDocument, Uci.writtenDocument, Uci.documentOf, Xml.Document.render,
      Xml.Document.renderDeclaration, Xml.render_gap, Xml.Content.render]
  have opens : (trimmedDocument crates message).render.head? = some '<' := by
    rw [whole, List.append_assoc, List.head?_append]
    exact (by decide : Uci.header.render.head? = some '<') ▸ rfl
  have ends : (trimmedDocument crates message).render.getLast? = some '>' := by
    rw [whole, List.getLast?_append, closes]
    rfl
  rw [Uci.writtenDocument, Uci.render_documentOf, ← whole, trimText, String.toList_ofList,
    trim_spaced opens (by decide) (trim_of_ends opens (by decide) ends (by decide)) (by decide)]

theorem tree_trimmedDocument (crates : Crates) (message : Uci.Message) :
    (trimmedDocument crates message).tree = (Uci.writtenDocument crates message).tree := by
  rw [Xml.Document.tree, Xml.Document.tree, trimmedDocument]

/-- The guard stops a written message exactly when it nests too deep. -/
theorem nestingExceeds_trimmedDocument {message : Uci.Message}
    (carriable : Uci.Carriable crates message.body)
    (valid : (Uci.writtenDocument crates message).valid = true) (limit : Nat) :
    nestingExceeds (.ofList (trimmedDocument crates message).render) limit = false ↔
      message.body.within limit := by
  have trimmed : (trimmedDocument crates message).valid = true := by
    simp only [Xml.Document.valid, Bool.and_eq_true] at valid
    simp only [Xml.Document.valid, trimmedDocument, Bool.and_eq_true]
    exact ⟨⟨valid.1.1, rfl⟩, rfl⟩
  have sections : (trimmedDocument crates message).root.cdatas = [] := by
    rw [trimmedDocument, Uci.writtenDocument, Uci.documentOf, Uci.elementOf, Uci.wrapElement]
    split
    · rfl
    · rw [Xml.Content.cdatas, cdatas_contentOf carriable]
      rfl
  rw [← @Uci.depths_writtenDocument crates, nestingExceeds, utf8, String.toList_ofList,
    Xml.exceeds_document Xml.skips_without_cdata trimmed (by simp [Xml.CdataTransparent, sections]),
      List.any_eq_false]
  simp [trimmedDocument, Xml.Document.depths]

end Xml

section Messages
variable {crates : Crates} {schema : Uci.Schema} {ids other : MessageId × MessageId}
  {topic : String}
  {message : Uci.Message} {kind : WrapperKind} {limit : Nat}

/-- How `serde_json` prints and reads what a message is written as: an object's
text has no white space around it, and is read back where it does not nest too
deep. -/
structure JsonTrip (crates : Crates) (limit : Nat) (value : Value) : Prop where
  braced : startsWith '{' (crates.jsonPrint value) = true
  trimmed : trimText (crates.jsonPrint value) = crates.jsonPrint value
  again : value.within limit = true → crates.jsonParse (crates.jsonPrint value) = .ok value
  refused : value.within limit = false →
    ∃ reason, crates.jsonParse (crates.jsonPrint value) = .error reason

/-- What comes out of the JSON of a wrapper message. -/
theorem unwrap_json (writable : Uci.Writable schema levels message.body declared)
    (wrapper : WrapperKind.fromElement message.name = some kind)
    (tidy : ∀ hex, (placedTexts message).encodedPayload = some hex → trimText hex = hex)
    (trip : JsonTrip crates limit message.json) :
    (message.json.within limit = true →
      ((unwrap crates ids topic (utf8 (crates.jsonPrint message.json))).map
        Unwrapped.outcome).toOption =
        ((placedTexts message).outcome crates topic kind).toOption) ∧
      (¬ message.json.within limit = true →
        ((unwrap crates ids topic (utf8 (crates.jsonPrint message.json))).map
            Unwrapped.outcome).toOption = none) := by
  have opened : unwrap crates ids topic (utf8 (crates.jsonPrint message.json)) =
      unwrapJson crates ids topic (crates.jsonPrint message.json) := by
    simp [unwrap, fromUtf8_utf8, trip.trimmed, trip.braced]
  rw [opened]
  constructor
  · intro shallow
    rw [unwrapJson_outcome (trip.again shallow) wrapper, dataTexts_json writable]
    intro data hex held encoded
    have placed : (message.body.json.get "MessageData").bind (memberText · "EncodedPayload") =
        some hex := by
      rw [held]
      exact encoded
    rw [Uci.get_json writable (by decide) fun _ => rfl] at placed
    obtain ⟨node, found, here⟩ := Option.bind_eq_some_iff.mp placed
    obtain ⟨lower, type, below⟩ := writable.member found
    rw [memberText_json below (by decide)] at here
    exact tidy hex (by simpa [placedTexts, found] using here)
  · intro deep
    obtain ⟨reason, failed⟩ := trip.refused (by simpa using deep)
    rw [unwrapJson, failed]
    rfl

/-- What comes out of the XML of a wrapper message that can be carried. -/
theorem unwrap_xml (carriable : Uci.Carriable crates message.body)
    (wrapper : WrapperKind.fromElement message.name = some kind)
    (reparsed : (Uci.writtenDocument crates message).Namespaced →
      crates.xmlParse (trimText (.ofList (Uci.writtenDocument crates message).render)) =
        .ok (Uci.writtenDocument crates message).tree) :
    (message.body.within maxWrapperDepth →
      ((unwrap crates ids topic (utf8 (.ofList (Uci.writtenDocument crates message).render))).map
          Unwrapped.outcome).toOption =
        ((firstTexts crates message).outcome crates topic kind).toOption) ∧
      (¬ message.body.within maxWrapperDepth →
        ((unwrap crates ids topic (utf8 (.ofList (Uci.writtenDocument crates message).render))).map
          Unwrapped.outcome).toOption = none) := by
  have named : Xml.isNcName message.name.toList = true := by
    rw [elementName_of_fromElement wrapper]
    cases kind <;> decide
  obtain ⟨formed, shows⟩ := Uci.writtenDocument_formed carriable named
  obtain ⟨elem, only, tree, -⟩ := formed.exists_root
  rw [Uci.root_writtenDocument, List.singleton_inj] at only
  have written : message.spot.Written crates (Uci.writtenDocument crates message).tree :=
    ⟨carriable, named, true, [], by rw [tree, ← only]; rfl⟩
  have guarded := nestingExceeds_trimmedDocument carriable formed.1 maxWrapperDepth
  rw [← trimText_writtenDocument] at guarded
  rw [unwrap_document crates ids topic formed.1, unwrapXml_outcome ids (reparsed formed), openedAs,
    shows.localName_eq, wrapper, wrapperTexts_written written]
  constructor
  · intro within
    rw [guarded.mpr within]
    rfl
  · intro deep
    rw [if_pos (by simpa using mt guarded.mp deep)]
    rfl

/-- Both writers write what was read from JSON. -/
theorem written_of_fromJson (parsed : crates.jsonParse text = .ok value) (sorted : value.Sorted)
    (read : Uci.fromJson crates schema text = .ok message) :
    Uci.Writable schema (Uci.maxDepth + 1) message.body (schema.declaredType message) ∧
      Uci.toJson crates schema message = .ok (crates.jsonPrint message.json) ∧
      Uci.toXml crates schema message =
          .ok (.ofList (Uci.writtenDocument crates message).render) := by
  obtain ⟨body, rfl, -, here⟩ := Uci.fromJson_inv parsed read
  cases sorted with
  | object _ each =>
    obtain ⟨-, writable, -⟩ := Uci.readNode_normal (each _ (List.mem_singleton_self _)) here
    exact ⟨writable, Uci.toJson_eq writable, Uci.toXml_eq (Uci.exists_writeElement writable _ _ _)⟩

/-- A wrapper message is written in both formats. What comes out of the two is
the same exactly when both readers have a whole wrapper before them, with the
same texts, or neither has. -/
theorem unwrap_serialized_iff (parsed : crates.jsonParse text = .ok value) (sorted : value.Sorted)
    (read : Uci.fromJson crates schema text = .ok message)
    (wrapper : WrapperKind.fromElement message.name = some kind)
    (tidy : ∀ hex, (placedTexts message).encodedPayload = some hex → trimText hex = hex)
    (trip : JsonTrip crates limit message.json)
    (reparsed : (Uci.writtenDocument crates message).Namespaced →
      crates.xmlParse (trimText (.ofList (Uci.writtenDocument crates message).render)) =
        .ok (Uci.writtenDocument crates message).tree) :
    Uci.toJson crates schema message = .ok (crates.jsonPrint message.json) ∧
    Uci.toXml crates schema message = .ok (.ofList (Uci.writtenDocument crates message).render) ∧
    (Uci.Carriable crates message.body →
      (((unwrap crates ids topic (utf8 (crates.jsonPrint message.json))).map
        Unwrapped.outcome).toOption =
          ((unwrap crates other topic
            (utf8 (.ofList (Uci.writtenDocument crates message).render))).map
            Unwrapped.outcome).toOption ↔
        SameWrapper crates limit message)) := by
  obtain ⟨writable, inJson, inXml⟩ := written_of_fromJson parsed sorted read
  refine ⟨inJson, inXml, fun carriable => ?_⟩
  obtain ⟨fits, deep⟩ := @unwrap_json crates schema ids topic message kind limit _ _ writable
    wrapper tidy trip
  obtain ⟨passes, stopped⟩ := @unwrap_xml crates other topic message kind carriable wrapper reparsed
  exact WrapperTexts.guarded_eq_iff fits deep passes stopped

end Messages

section Samples

/-- A wrapper with data and a header. The types declare what is read here; a
member they do not declare is carried as a string. -/
def wrapperSchema : Uci.Schema where
  globalElements := Finmap.insert rxElement "RxType" ∅
  complexTypes := Finmap.insert "RxType" ⟨false, .groups [⟨.sequence,
      [⟨"MessageHeader", "HeaderType", 0, .bounded 1⟩,
        ⟨"MessageData", "DataType", 1, .bounded 1⟩]⟩]⟩
    (Finmap.insert "HeaderType" ⟨false, .groups []⟩
      (Finmap.insert "DataType" ⟨false, .groups []⟩ ∅))
  simpleTypes := ∅

def leaf (text : String) : Uci.Field := .one (.simple (.string text))

/-- `{}` as the payload, of type `A`. -/
def wrapperData : Uci.Field :=
  .one (.complex none [("EncodedPayload", leaf "7B7D"), ("MessageType", leaf "A")])

def wrapperValue (members : List (String × Value)) : Value :=
  .object [(rxElement, .object (("MessageData",
    .object [("EncodedPayload", .string "7B7D"), ("MessageType", .string "A")]) :: members))]

def plainText : String :=
  "\x7b\"MA_RxDataPayload\":\x7b\"MessageData\":\x7b" ++
    "\"EncodedPayload\":\"7B7D\",\"MessageType\":\"A\"\x7d\x7d\x7d"

def routedText : String :=
  "\x7b\"MA_RxDataPayload\":\x7b\"MessageData\":\x7b" ++
    "\"EncodedPayload\":\"7B7D\",\"MessageType\":\"A\"\x7d," ++
    "\"MessageHeader\":\x7b\"DestinationRouting\":\"TOPIC\"\x7d\x7d\x7d"

def routedHeader : String × Value :=
  ("MessageHeader", .object [("DestinationRouting", .string "TOPIC")])

/-- A wrapper with nothing but its data. -/
def plainWrapper : Uci.Message := ⟨rxElement, .complex none [("MessageData", wrapperData)]⟩

/-- A wrapper with a routing in its header, and none in its data. -/
def routedWrapper : Uci.Message :=
  ⟨rxElement, .complex none [("MessageData", wrapperData),
    ("MessageHeader", .one (.complex none [("DestinationRouting", leaf "TOPIC")]))]⟩

/-- Parsers that know the two wrappers. -/
def wrapperCrates : Crates :=
  { Uci.documentCrates [trimmedDocument Uci.bareCrates plainWrapper,
      trimmedDocument Uci.bareCrates routedWrapper] with
    jsonParse := fun text =>
      if text = plainText then .ok (wrapperValue [])
      else if text = routedText then .ok (wrapperValue [routedHeader])
      else .error "expected value"
    jsonPrint := fun
      | .object [(_, .object [_])] => plainText
      | _ => routedText }

theorem reparsed_wrapper {message : Uci.Message}
    (known : message = plainWrapper ∨ message = routedWrapper) :
    wrapperCrates.xmlParse (trimText (.ofList (Uci.writtenDocument wrapperCrates message).render)) =
      .ok (Uci.writtenDocument wrapperCrates message).tree := by
  have lengths : (trimmedDocument Uci.bareCrates plainWrapper).render.length ≠
      (trimmedDocument Uci.bareCrates routedWrapper).render.length := by decide +kernel
  have apart {one other : Xml.Document} (differ : one.render.length ≠ other.render.length)
      (same : one.render = other.render) : one = other := absurd (congrArg List.length same) differ
  have parse : wrapperCrates.xmlParse =
    (Uci.documentCrates [trimmedDocument Uci.bareCrates plainWrapper,
      trimmedDocument Uci.bareCrates routedWrapper]).xmlParse := by rw [wrapperCrates]
  rw [trimText_writtenDocument, ← tree_trimmedDocument, parse]
  rcases known with rfl | rfl
  · have same : trimmedDocument wrapperCrates plainWrapper =
      trimmedDocument Uci.bareCrates plainWrapper := rfl
    rw [same]
    refine Uci.documentCrates_parse List.mem_cons_self fun other listed alike => ?_
    rcases List.mem_cons.mp listed with rfl | later
    · rfl
    · cases List.mem_singleton.mp later
      exact apart lengths.symm alike
  · have same : trimmedDocument wrapperCrates routedWrapper =
      trimmedDocument Uci.bareCrates routedWrapper := rfl
    rw [same]
    refine Uci.documentCrates_parse (List.mem_cons_of_mem _ List.mem_cons_self)
      fun other listed alike => ?_
    rcases List.mem_cons.mp listed with rfl | later
    · exact apart lengths alike
    · exact List.mem_singleton.mp later

theorem sorted_object {members : List (String × Value)} (increasing : Increasing members)
    (leaves : ∀ member ∈ members, ∃ text, member.2 = .string text) :
    (Value.object members).Sorted := by
  refine .object increasing fun member inside => ?_
  obtain ⟨text, held⟩ := leaves member inside
  rw [held]
  exact .string

theorem sorted_wrapperValue {members : List (String × Value)}
    (increasing : Increasing (("MessageData",
      Value.object [("EncodedPayload", .string "7B7D"), ("MessageType", .string "A")]) :: members))
    (each : ∀ member ∈ members, member.2.Sorted) : (wrapperValue members).Sorted := by
  refine Value.Sorted.single (.object increasing (List.forall_mem_cons.mpr ⟨?_, each⟩))
  exact sorted_object (List.pairwise_pair.mpr (by decide)) (by simp)

theorem json_plainWrapper : plainWrapper.json = wrapperValue [] := rfl

theorem json_routedWrapper : routedWrapper.json = wrapperValue [routedHeader] := rfl

theorem jsonParse_routedText : wrapperCrates.jsonParse routedText =
    .ok (wrapperValue [routedHeader]) := by
  have apart : routedText ≠ plainText := by decide +kernel
  simp only [wrapperCrates, apart, ↓reduceIte]

theorem jsonTrip_wrapper {message : Uci.Message}
    (sample : message = plainWrapper ∨ message = routedWrapper) :
    JsonTrip wrapperCrates 128 message.json := by
  have known {text : String} {value : Value} (printed : wrapperCrates.jsonPrint value = text)
      (ends : text.toList.head? = some '{' ∧ text.toList.getLast? = some '}')
      (parsed : wrapperCrates.jsonParse text = .ok value) (shallow : value.within 128 = true) :
      JsonTrip wrapperCrates 128 value := by
    subst printed
    refine ⟨by simp [startsWith, ends.1], ?_, fun _ => parsed,
      fun deep => absurd shallow (by simp [deep])⟩
    rw [trimText, trim_of_ends ends.1 (by decide) ends.2 (by decide), String.ofList_toList]
  rcases sample with rfl | rfl
  · rw [json_plainWrapper]
    exact known rfl (by decide) rfl (by decide)
  · rw [json_routedWrapper]
    exact known rfl (by decide +kernel) jsonParse_routedText (by decide)

theorem carriable_leaf (crates : Crates) {text : String}
    (textual : text.toList.all (fun c => Xml.isChar c && c != '\r') = true) :
    Uci.Carriable crates (.simple (.string text)) := by
  refine .simple fun c member => ?_
  simpa using List.all_eq_true.mp textual c member

theorem carriable_wrapper {message : Uci.Message}
    (known : message = plainWrapper ∨ message = routedWrapper) :
    Uci.Carriable wrapperCrates message.body := by
  have node {fields : List (String × Uci.Field)}
      (names : ∀ pair ∈ Uci.expanded fields, Xml.isNcName pair.1.toList = true)
      (below : ∀ pair ∈ Uci.expanded fields, Uci.Carriable wrapperCrates pair.2) :
      Uci.Carriable wrapperCrates (.complex none fields) := .complex (by simp) names below
  have data : Uci.Carriable wrapperCrates
      (.complex none [("EncodedPayload", leaf "7B7D"), ("MessageType", leaf "A")]) := by
    refine node (by decide) (List.forall_mem_cons.mpr ⟨?_, List.forall_mem_singleton.mpr ?_⟩)
    · exact carriable_leaf _ (by decide)
    · exact carriable_leaf _ (by decide)
  have header : Uci.Carriable wrapperCrates
    (.complex none [("DestinationRouting", leaf "TOPIC")]) :=
    node (by decide) (List.forall_mem_singleton.mpr (carriable_leaf _ (by decide)))
  rcases known with rfl | rfl
  · exact node (by decide) (List.forall_mem_singleton.mpr data)
  · exact node (by decide) (List.forall_mem_cons.mpr ⟨data, List.forall_mem_singleton.mpr header⟩)

/-- The routing in the header is taken from the XML and not from the JSON. -/
theorem routing_of_header :
    Uci.fromJson wrapperCrates wrapperSchema routedText = .ok routedWrapper ∧
    Uci.Carriable wrapperCrates routedWrapper.body ∧
    Uci.toJson wrapperCrates wrapperSchema routedWrapper = .ok routedText ∧
    Uci.toXml wrapperCrates wrapperSchema routedWrapper =
      .ok (.ofList (Uci.writtenDocument wrapperCrates routedWrapper).render) ∧
    (((unwrap wrapperCrates (⟨"1"⟩, ⟨"2"⟩) "offboard" (utf8 routedText)).map
      Unwrapped.outcome).toOption.map
      fun result => result.1.destinationRouting) = some none ∧
    (((unwrap wrapperCrates (⟨"3"⟩, ⟨"4"⟩) "offboard"
      (utf8 (.ofList (Uci.writtenDocument wrapperCrates routedWrapper).render))).map
        Unwrapped.outcome).toOption.map
        fun result => result.1.destinationRouting) = some (some "TOPIC") := by
  have sorted := @sorted_wrapperValue [routedHeader] (List.pairwise_pair.mpr (by decide))
    (List.forall_mem_singleton.mpr Value.Sorted.string.single)
  have read : Uci.fromJson wrapperCrates wrapperSchema routedText = .ok routedWrapper := by
    rw [Uci.fromJson, jsonParse_routedText]
    rfl
  have tidy : ∀ hex, (placedTexts routedWrapper).encodedPayload = some hex →
      trimText hex = hex := by
    rintro _ ⟨⟩
    decide
  obtain ⟨writable, inJson, inXml⟩ := written_of_fromJson jsonParse_routedText sorted read
  have fromText :=
    (@unwrap_json _ _ (⟨"1"⟩, ⟨"2"⟩) "offboard" routedWrapper .rx 128 _ _ writable rfl tidy
    (jsonTrip_wrapper (.inr rfl))).1 (by decide)
  have fromXml :=
    (@unwrap_xml _ (⟨"3"⟩, ⟨"4"⟩) "offboard" routedWrapper .rx (carriable_wrapper (.inr rfl)) rfl
    fun _ => reparsed_wrapper (.inr rfl)).1 (by
      simp [routedWrapper, wrapperData, leaf, Uci.Node.within, Uci.expanded, Uci.Field.nodes,
        maxWrapperDepth])
  refine ⟨read, carriable_wrapper (.inr rfl), inJson, inXml, ?_, ?_⟩
  · rw [json_routedWrapper] at fromText
    rw [show routedText = wrapperCrates.jsonPrint (wrapperValue [routedHeader]) from rfl, fromText]
    decide +kernel
  · rw [fromXml]
    decide +kernel

/-- Nothing but the data: the same comes out of both. -/
theorem unwrap_serialized_plain :
    ((unwrap wrapperCrates (⟨"1"⟩, ⟨"2"⟩) "offboard" (utf8 plainText)).map
      Unwrapped.outcome).toOption =
      ((unwrap wrapperCrates (⟨"3"⟩, ⟨"4"⟩) "offboard"
        (utf8 (.ofList (Uci.writtenDocument wrapperCrates plainWrapper).render))).map
            Unwrapped.outcome).toOption := by
  have sorted := @sorted_wrapperValue [] (List.pairwise_singleton _ _) (by simp)
  have read : Uci.fromJson wrapperCrates wrapperSchema plainText = .ok plainWrapper := rfl
  have tidy : ∀ hex, (placedTexts plainWrapper).encodedPayload = some hex → trimText hex = hex := by
    rintro _ ⟨⟩
    decide
  have trip := @unwrap_serialized_iff wrapperCrates wrapperSchema (⟨"1"⟩, ⟨"2"⟩) (⟨"3"⟩, ⟨"4"⟩)
    "offboard" plainWrapper
    .rx 128 _ _ rfl sorted read rfl tidy (jsonTrip_wrapper (.inl rfl)) fun _ =>
      reparsed_wrapper (.inl rfl)
  have within : plainWrapper.body.within maxWrapperDepth := by
    simp [plainWrapper, wrapperData, leaf, Uci.Node.within, Uci.expanded, Uci.Field.nodes,
      maxWrapperDepth]
  have same : placedTexts plainWrapper = firstTexts wrapperCrates plainWrapper := by decide +kernel
  have whole : (placedTexts plainWrapper).Complete := ⟨rfl, _, rfl⟩
  refine (trip.2.2 (carriable_wrapper (.inl rfl))).mpr ⟨?_, fun _ _ => ?_⟩
  · rw [← same]
    exact iff_of_true ⟨by decide, whole⟩ ⟨within, whole⟩
  · rw [← same, ← WrapperTexts.outcome_eq_iff wrapperCrates "offboard" .rx]

end Samples

end OaGateway.Agra
