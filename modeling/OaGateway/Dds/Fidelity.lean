import OaGateway.Dds.Domains
import OaGateway.Dds.Poll
import OaGateway.Lib.Printed

/-! An envelope that crosses a domain to another gateway: what it is written as,
what the wire makes of that, and what is published on the other side. -/
namespace OaGateway.Dds

open Lib Lib.Json OaGateway.Core

/-- The name of the document in a payload, as `type_hint_from_inner` reads it. -/
def rootName (crates : Crates) (payload : Bytes) : Option String :=
  (fromUtf8 payload).bind fun text => Agra.elementOf crates (trimText text)

/-- The fields of a wrapper with empty ones counted as absent. -/
def present (info : Agra.WrapperMeta) : Agra.WrapperMeta where
  kind := info.kind
  messageTypeEnum := info.messageTypeEnum
  originatorUuid := info.originatorUuid.bind nonempty
  rxPayloadId := info.rxPayloadId.bind nonempty
  commandId := info.commandId.bind nonempty
  destinationRouting := info.destinationRouting.bind nonempty

/-- The sample that arrives for an envelope, after the wire. -/
def carried (crates : Crates) (draws : MessageId × MessageId) (envelope : Envelope) :
    Except String DdsSample := do
  let sample ← sampleFromEnvelope crates draws envelope
  (MaDataPayload.fromSample sample).intoSample

/-- What the other gateway publishes for an envelope. -/
def hop (crates : Crates) (receiver : DdsAdapter) (draws ids : MessageId × MessageId)
    (envelope : Envelope) :
    Except String (List Envelope) := do
  let sample ← carried crates draws envelope
  inboundPublish crates receiver ids envelope.route.topic sample

/-- No text that `serde_json` or `roxmltree` finds in a document is longer than
the document. -/
structure ReadsWithin (crates : Crates) : Prop where
  json : ∀ {text name group field found body data}, crates.jsonParse text =
    .ok (.object [(name, body)]) →
    body.get group = some data → Agra.memberText data field = some found →
      (utf8 found).length ≤ (utf8 text).length
  xml : ∀ {text name found root}, crates.xmlParse text = .ok root →
    Agra.localText root name = some found →
    (utf8 found).length ≤ (utf8 text).length

section
variable {crates : Crates} {sample : DdsSample} {topic : String} {payload : Bytes}
  {peeled : Agra.Unwrapped}

theorem nonempty_getD (text : Option String) : nonempty (text.getD "") = text.bind nonempty := by
  cases text <;> rfl

/-- The wire keeps a sample, but for the difference between empty and absent. -/
theorem intoSample_fromSample :
    (MaDataPayload.fromSample sample).intoSample = .ok ⟨present sample.info, sample.encoded⟩ := by
  rw [intoSample_eq_ok]
  obtain ⟨⟨kind, messageType, originator, rxPayload, command, destination⟩, encoded⟩ := sample
  cases kind <;> simp [MaDataPayload.fromSample, MaDataPayload.sample, present, nonempty_getD]

theorem carried_of_sample {draws : MessageId × MessageId} {envelope : Envelope}
    (made : sampleFromEnvelope crates draws envelope = .ok sample) :
    carried crates draws envelope = .ok ⟨present sample.info, sample.encoded⟩ :=
  bind_eq_ok.mpr ⟨sample, made, intoSample_fromSample⟩

theorem unwrapJson_within (reads : ReadsWithin crates) {ids : MessageId × MessageId} {text : String}
    (run : Agra.unwrapJson crates ids topic text = .ok peeled) :
    ∃ bytes, bytes.length ≤ (utf8 text).length ∧
      ∀ draws, Agra.unwrapJson crates draws topic text = .ok
      (Agra.assemble crates draws topic (utf8 text) .json peeled.info bytes) := by
  obtain ⟨name, body, kind, data, messageType, hex, bytes, parsed, named, held, typed,
    encoded, decoded, rfl⟩ :=
    Agra.unwrapJson_eq_ok.mp run
  refine ⟨bytes, ?_, fun draws => ?_⟩
  · exact (Agra.length_decodeHex decoded).trans (reads.json parsed held encoded)
  · exact Agra.unwrapJson_eq_ok.mpr
      ⟨name, body, kind, data, messageType, hex, bytes, parsed, named, held, typed,
        encoded, decoded, rfl⟩

theorem unwrapXml_within (reads : ReadsWithin crates) {ids : MessageId × MessageId} {text : String}
    (run : Agra.unwrapXml crates ids topic text = .ok peeled) :
    ∃ bytes, bytes.length ≤ (utf8 text).length ∧
      ∀ draws, Agra.unwrapXml crates draws topic text = .ok
      (Agra.assemble crates draws topic (utf8 text) .xml peeled.info bytes) := by
  obtain ⟨root, kind, messageType, hex, bytes, parsed, named, typed, encoded, decoded, rfl⟩ :=
    Agra.unwrapXml_eq_ok.mp run
  refine ⟨bytes, ?_, fun draws => ?_⟩
  · have read : crates.xmlParse text = .ok root := by
      rw [Agra.parseChecked] at parsed
      split at parsed
      · cases parsed
      · cases tree : crates.xmlParse text with
        | error message => simp [tree, Except.toOption] at parsed
        | ok other => simpa [tree, Except.toOption] using parsed
    calc bytes.length
      _ ≤ (utf8 (trimText hex)).length := Agra.length_decodeHex decoded
      _ ≤ (utf8 hex).length := length_utf8_trimText hex
      _ ≤ (utf8 text).length := reads.xml read encoded
  · exact Agra.unwrapXml_eq_ok.mpr
      ⟨root, kind, messageType, hex, bytes, parsed, named, typed, encoded, decoded, rfl⟩

/-- A wrapper holds no more bytes than it has itself, and is taken apart in the
same way whatever ids are drawn. -/
theorem unwrap_within (reads : ReadsWithin crates) {ids : MessageId × MessageId}
    (run : Agra.unwrap crates ids topic payload = .ok peeled) :
    ∃ wrapper contentType bytes, bytes.length ≤ payload.length ∧ ∀ draws,
      Agra.unwrap crates draws topic payload = .ok
        (Agra.assemble crates draws topic wrapper contentType peeled.info bytes) := by
  rw [Agra.unwrap] at run
  simp only [Agra.unwrap]
  split at run
  · cases run
  · rename_i text decoded
    have whole : (utf8 (trimText text)).length ≤ payload.length := by
      rw [← utf8_of_fromUtf8 decoded]
      exact length_utf8_trimText text
    simp only at run ⊢
    split at run
    · rename_i braced
      obtain ⟨bytes, short, again⟩ := unwrapJson_within reads run
      simp only [if_pos braced]
      exact ⟨_, _, bytes, short.trans whole, again⟩
    · rename_i unbraced
      split at run
      · rename_i angled
        obtain ⟨bytes, short, again⟩ := unwrapXml_within reads run
        simp only [if_neg unbraced, if_pos angled]
        exact ⟨_, _, bytes, short.trans whole, again⟩
      · cases run

end

section
variable {crates : Crates} {receiver : DdsAdapter} {draws : MessageId × MessageId}
  {envelope : Envelope}
  {sample : DdsSample}

/-- The receiver publishes both halves of what is carried. -/
theorem hop_halves (unwraps : receiver.config.unwrapMaPayloads = true)
    (off : receiver.config.validate = .off) (made : carried crates draws envelope = .ok sample)
    (small : sample.encoded.length ≤ Agra.maxDecodedPayload)
    (fits : sample.encoded.length ≤ receiver.config.maxSampleSize) (ids : MessageId × MessageId) :
    hop crates receiver draws ids envelope =
      .ok [(halves crates receiver ids envelope.route.topic sample).1,
        (halves crates receiver ids envelope.route.topic sample).2] :=
  bind_eq_ok.mpr ⟨sample, made, inboundPublish_halves unwraps off fits small⟩

/-- The route of the inner half: the name of its document, or else the type it
is listed by. -/
theorem halves_route (ids : MessageId × MessageId) (topic : String) :
    (halves crates receiver ids topic sample).2.route =
      .typed topic ((rootName crates sample.encoded).getD sample.info.messageTypeEnum) :=
  (Agra.innerEnvelope_spec _ _ _ _ _ _).1

/-- A plain document that carries the name its route has arrives as it was. -/
theorem hop_plain (unwraps : receiver.config.unwrapMaPayloads = true)
    (off : receiver.config.validate = .off)
    (small : envelope.payload.length ≤ Agra.maxDecodedPayload)
    (fits : envelope.payload.length ≤ receiver.config.maxSampleSize) {hint : String}
    (plain : Agra.wrapperKind crates envelope.payload = none)
    (named : rootName crates envelope.payload = some hint)
    (typed : envelope.route.typeHint = some hint) (ids : MessageId × MessageId) :
    ∃ wrapper inner, hop crates receiver draws ids envelope = .ok [wrapper, inner] ∧
      inner.route = envelope.route ∧ inner.payload = envelope.payload := by
  have made : sampleFromEnvelope crates draws envelope =
      .ok ⟨⟨.rx, elementToEnum hint, none, none, none, none⟩, envelope.payload⟩ := by
    rw [sampleFromEnvelope, plain, typed]
    rfl
  refine ⟨_, _, hop_halves unwraps off (carried_of_sample made) small fits ids, ?_,
    halves_payload.2⟩
  rw [halves_route, named, RouteKey.typed, Option.getD_some, ← typed]

/-- A wrapper arrives as the inner envelope it is unwrapped to, beside a wrapper
that holds the same fields. -/
theorem hop_wrapper (unwraps : receiver.config.unwrapMaPayloads = true)
    (off : receiver.config.validate = .off)
    (small : envelope.payload.length ≤ Agra.maxDecodedPayload)
    (fits : envelope.payload.length ≤ receiver.config.maxSampleSize) (hex : crates.WritesHex)
    (reads : ReadsWithin crates)
    (printable : ∀ sample, carried crates draws envelope = .ok sample → Printable crates sample)
    (wrapped : (Agra.wrapperKind crates envelope.payload).isSome = true)
    {others : MessageId × MessageId} {peeled : Agra.Unwrapped}
    (run : Agra.unwrap crates others envelope.route.topic envelope.payload = .ok peeled)
    (ids : MessageId × MessageId) :
    ∃ wrapper inner, hop crates receiver draws ids envelope = .ok [wrapper, inner] ∧
      inner.route = peeled.inner.route ∧ inner.payload = peeled.inner.payload ∧
      ∃ again, Agra.unwrap crates others wrapper.route.topic wrapper.payload = .ok again ∧
        again.info = present peeled.info := by
  obtain ⟨text, contentType, bytes, short, again⟩ := unwrap_within reads run
  have assembled : peeled.inner = Agra.innerEnvelope others.2 envelope.route.topic bytes
      (Agra.sniffContentType bytes)
        (Agra.typeHintFromInner crates bytes peeled.info.messageTypeEnum) peeled.info :=
    congrArg Agra.Unwrapped.inner (Except.ok.inj (run.symm.trans (again others)))
  have made : sampleFromEnvelope crates draws envelope = .ok ⟨peeled.info, bytes⟩ := by
    rw [sampleFromEnvelope, if_pos wrapped, again draws]
    simp [Agra.assemble, Agra.innerEnvelope_spec]
  have arrives : carried crates draws envelope = .ok ⟨present peeled.info, bytes⟩ :=
    carried_of_sample made
  have decodes : bytes.length ≤ Agra.maxDecodedPayload := short.trans small
  refine ⟨_, _, hop_halves unwraps off arrives decodes (short.trans fits) ids, ?_, ?_, ?_⟩
  · rw [halves_route, assembled, (Agra.innerEnvelope_spec _ _ _ _ _ _).1]
    rfl
  · rw [halves_payload.2, assembled, (Agra.innerEnvelope_spec _ _ _ _ _ _).2.1]
  · rw [halves_payload.1]
    exact ⟨_, unwrap_parts hex (printable _ arrives) decodes others _, rfl⟩

/-- A hop keeps the message, whether it is a plain document under its own name
or a wrapper in either format. -/
theorem hop_faithful (unwraps : receiver.config.unwrapMaPayloads = true)
    (off : receiver.config.validate = .off)
    (small : envelope.payload.length ≤ Agra.maxDecodedPayload)
    (fits : envelope.payload.length ≤ receiver.config.maxSampleSize) (hex : crates.WritesHex)
    (reads : ReadsWithin crates)
    (printable : ∀ sample, carried crates draws envelope = .ok sample → Printable crates sample)
    (ids others : MessageId × MessageId) :
    (∀ hint, Agra.wrapperKind crates envelope.payload = none →
      rootName crates envelope.payload = some hint →
        envelope.route.typeHint = some hint →
      ∃ wrapper inner, hop crates receiver draws ids envelope = .ok [wrapper, inner] ∧
        inner.route = envelope.route ∧ inner.payload = envelope.payload) ∧
    ∀ peeled, (Agra.wrapperKind crates envelope.payload).isSome = true →
        Agra.unwrap crates others envelope.route.topic envelope.payload = .ok peeled →
      ∃ wrapper inner, hop crates receiver draws ids envelope = .ok [wrapper, inner] ∧
        inner.route = peeled.inner.route ∧ inner.payload = peeled.inner.payload ∧
        ∃ again, Agra.unwrap crates others wrapper.route.topic wrapper.payload = .ok again ∧
          again.info = present peeled.info := by
  constructor
  · intro hint plain named typed
    exact hop_plain unwraps off small fits plain named typed ids
  · intro peeled wrapped run
    exact hop_wrapper unwraps off small fits hex reads printable wrapped run ids

end

section Samples

def inBraces (inner : String) : String := "\x7b" ++ inner ++ "\x7d"

theorem ends_inBraces (inner : String) :
    (inBraces inner).toList.head? = some '{' ∧ (inBraces inner).toList.getLast? = some '}' := by
  have opening : "\x7b".toList = ['{'] := by decide
  have closing : "\x7d".toList = ['}'] := by decide
  rw [inBraces, String.toList_append, String.toList_append, opening, closing]
  exact ⟨rfl, List.getLast?_concat⟩

theorem startsWith_inBraces (inner : String) : Agra.startsWith '{' (inBraces inner) = true := by
  rw [Agra.startsWith, (ends_inBraces inner).1]
  rfl

theorem trimText_inBraces (inner : String) : trimText (inBraces inner) = inBraces inner := by
  obtain ⟨opened, closed⟩ := ends_inBraces inner
  rw [trimText, trim_of_ends opened (by decide) closed (by decide), String.ofList_toList]

/-- A JSON object of one wrapper with the rest of its members. -/
def rxText (hex rest : String) : String :=
  inBraces ("\"MA_RxDataPayload\":" ++ inBraces ("\"MessageData\":" ++
    inBraces ("\"EncodedPayload\":\"" ++ hex ++ "\",\"MessageType\":\"COUNT\"" ++ rest)))

/-- A wrapper as a client writes it, with an id that is empty. -/
def emptyText : String :=
  rxText "7b22436f756e74223a347d" (",\"RxDataPayloadID\":" ++ inBraces "\"UUID\":\"\"")

def emptyInfo : Agra.WrapperMeta := ⟨.rx, "COUNT", none, some "", none, none⟩

def emptyValue : Value :=
  .object [("MA_RxDataPayload", .object [("MessageData", .object
    [("EncodedPayload", .string "7b22436f756e74223a347d"), ("MessageType", .string "COUNT"),
      ("RxDataPayloadID", .object [("UUID", .string "")])])])]

/-- The same wrapper as the receiver writes it. -/
def arrivedText : String := rxText "7B22436F756E74223A347D" ""

/-- A JSON crate for both wrappers and the payload. -/
def hopCrates : Crates where
  jsonParse text :=
    if text = emptyText then .ok emptyValue
    else if text = arrivedText then .ok
      (Agra.partsValue (countSample "4").info (upperHex (countSample "4").encoded))
    else if text = countText "4" then .ok (.object [("Count", .number (.posInt 4))])
    else .error "expected value"
  jsonPrint _ := arrivedText
  floatPrint _ := ""
  floatDisplay _ := ""
  xmlParse _ := .error "unknown token"
  regex _ := none
  hexUpper := upperHex

def emptyEnvelope : Envelope := .new ⟨"0"⟩ (.wildcard "demo") (utf8 emptyText)

def countEnvelope : Envelope := .new ⟨"0"⟩ (.typed "demo" "Count") (utf8 (countText "4"))

def hopReceiver : DdsAdapter := ⟨⟨"dds-b"⟩, ⟨true, 1024, none, .off⟩⟩

/-- In a document of three levels whose texts are short, every text is. -/
theorem short_of_members {members : List (String × Value)} {name group field found : String}
    {body data : Value} {limit : Nat}
    (short : ∀ member ∈ members, ∀ text ∈ member.2.asStr, (utf8 text).length ≤ limit)
    {outer element : String}
    (parsed : Value.object [(outer, .object [(element, .object members)])] = .object [(name, body)])
    (held : body.get group = some data) (read : Agra.memberText data field = some found) :
    (utf8 found).length ≤ limit := by
  obtain ⟨rfl, rfl⟩ := Prod.mk.inj (List.cons.inj (Value.object.inj parsed)).1
  obtain ⟨entry, inside, rfl⟩ := Option.map_eq_some_iff.mp held
  obtain rfl := List.mem_singleton.mp (List.mem_of_find?_eq_some inside)
  obtain ⟨value, got, text⟩ := Option.bind_eq_some_iff.mp read
  obtain ⟨member, listed, rfl⟩ := Option.map_eq_some_iff.mp got
  exact short member (List.mem_of_find?_eq_some listed) found text

theorem sizes : 22 ≤ (utf8 emptyText).length ∧ (utf8 emptyText).length ≤ 1024 ∧
    22 ≤ (utf8 arrivedText).length := by
  simp only [length_utf8]
  decide +kernel

theorem reads_hop : ReadsWithin hopCrates where
  json := by
    intro text name group field found body data parsed held read
    simp only [hopCrates] at parsed
    split at parsed
    · rename_i same
      subst same
      refine (short_of_members ?_ (Except.ok.inj parsed) held read).trans sizes.1
      decide
    · split at parsed
      · rename_i same
        subst same
        refine (short_of_members ?_ (Except.ok.inj parsed) held read).trans sizes.2.2
        decide
      · split at parsed
        · obtain ⟨rfl, rfl⟩ :=
            Prod.mk.inj (List.cons.inj (Value.object.inj (Except.ok.inj parsed))).1
          cases held
        · cases parsed
  xml parsed := by cases parsed

theorem hex_hop : hopCrates.WritesHex := fun _ => rfl

theorem braced_empty : Agra.startsWith '{' emptyText = true := startsWith_inBraces _

theorem trimText_empty : trimText emptyText = emptyText := trimText_inBraces _

theorem payload_empty : emptyEnvelope.payload =
    utf8 emptyText := by simp only [emptyEnvelope, Envelope.new]

theorem jsonParse_empty : hopCrates.jsonParse emptyText = .ok emptyValue := by
  simp only [hopCrates, ↓reduceIte]

theorem jsonParse_arrived :
    hopCrates.jsonParse arrivedText =
      .ok (Agra.partsValue (countSample "4").info (upperHex (countSample "4").encoded)) := by
  have apart : arrivedText ≠ emptyText := by
    intro same
    have sizes := congrArg String.utf8ByteSize same
    revert sizes
    decide +kernel
  simp only [hopCrates, apart, ↓reduceIte]

theorem unwrap_empty (ids : MessageId × MessageId) :
    Agra.unwrap hopCrates ids emptyEnvelope.route.topic emptyEnvelope.payload = .ok
      (Agra.assemble hopCrates ids "demo" (utf8 emptyText) .json emptyInfo
          (countSample "4").encoded) := by
  have decoded : Agra.decodeHex "7b22436f756e74223a347d" = .ok (countSample "4").encoded := by rfl
  rw [payload_empty, Agra.unwrap, fromUtf8_utf8]
  simp only [trimText_empty, if_pos braced_empty]
  exact Agra.unwrapJson_eq_ok.mpr
    ⟨"MA_RxDataPayload", _, .rx, _, "COUNT", _, _,
      jsonParse_empty, by decide, rfl, rfl, rfl, decoded, rfl⟩

theorem wrapped_empty : (Agra.wrapperKind hopCrates emptyEnvelope.payload).isSome = true := by
  have single : Agra.singleMember hopCrates emptyText = some "MA_RxDataPayload" := by
    rw [Agra.singleMember, jsonParse_empty]
    rfl
  have kind : Agra.wrapperKind hopCrates (utf8 emptyText) = some .rx :=
    (Agra.wrapperKind_of_braced braced_empty single).trans (by decide)
  rw [payload_empty, kind]
  rfl

theorem plain_count : Agra.wrapperKind hopCrates countEnvelope.payload = none := by decide +kernel

/-- Both arrive as the same sample. -/
theorem carried_both (draws : MessageId × MessageId) :
    carried hopCrates draws emptyEnvelope = .ok (countSample "4") ∧
      carried hopCrates draws countEnvelope = .ok (countSample "4") := by
  constructor
  · have made : sampleFromEnvelope hopCrates draws emptyEnvelope =
        .ok ⟨emptyInfo, (countSample "4").encoded⟩ := by
      rw [sampleFromEnvelope, if_pos wrapped_empty, unwrap_empty draws]
      simp [Agra.assemble, Agra.innerEnvelope_spec]
    exact carried_of_sample made
  · have made : sampleFromEnvelope hopCrates draws countEnvelope = .ok (countSample "4") := by
      rw [sampleFromEnvelope, plain_count]
      rfl
    exact carried_of_sample made

theorem printable_count : Printable hopCrates (countSample "4") :=
  ⟨startsWith_inBraces _, trimText_inBraces _, jsonParse_arrived⟩

theorem hop_faithful_both :
    (∃ wrapper inner,
      hop hopCrates hopReceiver (⟨"1"⟩, ⟨"2"⟩) (⟨"3"⟩, ⟨"4"⟩) countEnvelope = .ok [wrapper, inner] ∧
        inner.route = .typed "demo" "Count" ∧ inner.payload = utf8 (countText "4")) ∧
    ∃ wrapper inner,
      hop hopCrates hopReceiver (⟨"1"⟩, ⟨"2"⟩) (⟨"3"⟩, ⟨"4"⟩) emptyEnvelope = .ok [wrapper, inner] ∧
        inner.route = .typed "demo" "Count" ∧ inner.payload = utf8 (countText "4") ∧
        ∃ again, Agra.unwrap hopCrates (⟨"5"⟩, ⟨"6"⟩) wrapper.route.topic wrapper.payload =
          .ok again ∧
          again.info = ⟨.rx, "COUNT", none, none, none, none⟩ := by
  constructor
  · refine (@hop_faithful hopCrates hopReceiver (⟨"1"⟩, ⟨"2"⟩) countEnvelope rfl rfl
      (by decide) (by decide)
      hex_hop reads_hop ?_ (⟨"3"⟩, ⟨"4"⟩) (⟨"5"⟩, ⟨"6"⟩)).1 "Count" plain_count
        (by decide +kernel) rfl
    intro sample arrives
    obtain rfl := Except.ok.inj ((carried_both _).2.symm.trans arrives)
    exact printable_count
  · have fits : emptyEnvelope.payload.length ≤ 1024 := by
      rw [payload_empty]
      exact sizes.2.1
    refine (@hop_faithful hopCrates hopReceiver (⟨"1"⟩, ⟨"2"⟩) emptyEnvelope rfl rfl
      (fits.trans (by decide)) fits
      hex_hop reads_hop ?_ (⟨"3"⟩, ⟨"4"⟩) (⟨"5"⟩, ⟨"6"⟩)).2 _ wrapped_empty (unwrap_empty _)
    intro sample arrives
    obtain rfl := Except.ok.inj ((carried_both _).1.symm.trans arrives)
    exact printable_count

end Samples

end OaGateway.Dds
