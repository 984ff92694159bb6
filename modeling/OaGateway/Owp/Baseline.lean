import OaGateway.Lib.Printed
import OaGateway.Owp.Blocking
import OaGateway.Owp.Publish
import OaGateway.Owp.Transcode

/-! A wrapper and the message inside it, both converted on their way to the
engine: whether they are still one message there. -/
namespace OaGateway.Owp

open Lib Lib.Json OaGateway.Core

/-- The wrapper that was sent, published as XML with `hex` for its payload. An XML
document is published as it is, and a JSON one as the message read from it. -/
def PublishedWith (crates : Crates) (schema : Uci.Schema) (sent hex : String)
    (published : Bytes) : Prop :=
  Uci.looksLikeXml (utf8 sent) = true ∧ published = utf8 sent ∧ (∃ root text,
    Agra.parseChecked (fun text => (crates.xmlParse text).toOption) sent = some root ∧
    Agra.localText root "EncodedPayload" = some text ∧ hex = trimText text) ∨
  Uci.looksLikeXml (utf8 sent) = false ∧
  ∃ message xml, Uci.fromJson crates schema sent = .ok message ∧
    payloadsOf (withPayload hex message) = [.simple (.string hex)] ∧
    Uci.toXml crates schema (withPayload hex message) = .ok xml ∧ published = utf8 xml

/-- Two envelopes in XML, the first the wrapper that was sent with a payload in
hex for which the second is the message. -/
def OneMessage (crates : Crates) (schema : Uci.Schema) (sent : String)
    (envelopes : List Envelope) : Prop :=
  ∃ wrapper inner hex, envelopes = [wrapper, inner] ∧
    (Uci.looksLikeXml wrapper.payload = true ∧ wrapper.contentType = .xml) ∧
    (Uci.looksLikeXml inner.payload = true ∧ inner.contentType = .xml) ∧
    PublishedWith crates schema sent hex wrapper.payload ∧ decodeHex hex = .ok inner.payload

/-- The message inside is XML, or it is JSON in a JSON wrapper and no wrapper
around JSON itself. -/
def ConvertsAlike (crates : Crates) (halves : Agra.Unwrapped) : Prop :=
  Uci.looksLikeXml halves.inner.payload = true ∨ Uci.looksLikeXml halves.wrapper.payload = false ∧
    ∀ text, fromUtf8 halves.inner.payload = some text → ¬ CarriesJson crates text

section Published
variable {crates : OwpCrates} {session : Session} {schema : Uci.Schema}
  {ids : MessageId × MessageId}

/-- Both halves of a wrapper are converted, each on its own. -/
theorem publish_halves (unwrapping : session.config.unwrapMaPayloads = true)
    (baseline : session.config.xmlBaseline = true) (loaded : session.schema = some schema)
    (wrapped : (Agra.wrapperKind crates.toCrates (utf8 payload)).isSome = true)
    (peeled : Agra.unwrap crates.toCrates ids topic (utf8 payload) = .ok halves)
    (accepted : publishOwp crates session serviceId ids topic payload = .ok envelopes) :
    ∃ outer inner, towardXml crates.toCrates halves.wrapper schema = .ok outer ∧
      towardXml crates.toCrates halves.inner schema = .ok inner ∧
      envelopes = [stamp session serviceId outer, stamp session serviceId inner] := by
  have sources : outgoing crates session ids topic payload =
      .ok [halves.wrapper, halves.inner] := by
    rw [outgoing, unwrapping, wrapped, peeled]
    rfl
  have converts {envelope ready : Envelope} (run : convert crates session envelope = .ok ready) :
      towardXml crates.toCrates envelope schema = .ok ready := by
    simpa [convert, baseline, loaded] using run
  rw [publishOwp, sources] at accepted
  obtain ⟨first, rest, here, later, rfl⟩ := collect_cons_eq_ok.mp accepted
  obtain ⟨second, none, there, last, rfl⟩ := collect_cons_eq_ok.mp later
  cases last
  obtain ⟨outer, one, rfl⟩ := prepare_inv here
  obtain ⟨inner, two, rfl⟩ := prepare_inv there
  exact ⟨outer, inner, converts one, converts two, rfl⟩

end Published

section OneMessage
variable {crates : Crates} {schema : Uci.Schema} {sent : String}

/-- What is relied on `serde_json` for: the members of an object are read in key
order, each once, from a text with a brace, and what is printed is read back. -/
structure JsonReader (crates : Crates) (values : Value → Prop) : Prop where
  sorted : crates.jsonParse text = .ok value → value.Sorted
  braced : crates.jsonParse text = .ok (.object members) → '{' ∈ text.toList
  again : values value → crates.jsonParse (crates.jsonPrint value) = .ok value

/-- A converted payload is read back from the wrapper as it was written. -/
theorem kept_encoded (written : Uci.toXml crates schema message = .ok xml) (primitive : String) :
    Uci.Kept primitive (.string (encodeHexUpper (utf8 xml))) :=
  kept_of_markup (decodeHex_encodeHexUpper _) (mem_of_looksLikeXml (looksLikeXml_toXml written))
    (.inl rfl) primitive

theorem WrapperAt.sorted {body data : Value} {values : Value → Prop}
    (reader : JsonReader crates values) (wrapper : WrapperAt crates text name body data hex) :
    body.Sorted := by
  cases reader.sorted wrapper.parsed with
  | object increasing each => exact each (name, body) (List.mem_singleton_self _)

theorem brace_of_fromJson {values : Value → Prop} (reader : JsonReader crates values)
    (read : Uci.fromJson crates schema text = .ok message) : '{' ∈ text.toList := by
  cases parsed : crates.jsonParse text with
  | error reason =>
    rw [Uci.fromJson, parsed] at read
    cases read
  | ok value =>
    obtain ⟨body, rfl, -⟩ := Uci.fromJson_inv parsed read
    exact reader.braced parsed

/-- The published message says which payload it has. -/
theorem publishedWith_inj (plain : Uci.looksLikeXml (utf8 sent) = false) (encloses : Encloses shape)
    (read : Uci.fromJson crates schema sent = .ok ⟨name, shape child⟩)
    (written : Uci.toXml crates schema ⟨name, shape (.simple (.string hex))⟩ = .ok xml)
    (published : PublishedWith crates schema sent other (utf8 xml)) : other = hex := by
  obtain ⟨marked, -⟩ | ⟨-, message, text, again, -, made, same⟩ := published
  · simp [plain] at marked
  cases Except.ok.inj (read.symm.trans again)
  rw [encloses.withPayload_eq] at made
  have texts := congrArg fromUtf8 same
  rw [fromUtf8_utf8, fromUtf8_utf8] at texts
  cases texts
  exact encloses.asText_eq made written

theorem publishedWith_json (plain : Uci.looksLikeXml (utf8 sent) = false)
    (encloses : Encloses shape) (read : Uci.fromJson crates schema sent = .ok ⟨name, shape child⟩)
    (written : Uci.toXml crates schema ⟨name, shape (.simple (.string hex))⟩ = .ok xml) :
    PublishedWith crates schema sent hex (utf8 xml) := by
  refine .inr ⟨plain, _, xml, read, ?_, ?_, rfl⟩
  · rw [encloses.withPayload_eq, encloses.payloadsOf_eq]
  · rw [encloses.withPayload_eq]
    exact written

/-- A message that is a wrapper around JSON is written in XML with its payload
converted as one document, and with the payload as it is as another. -/
theorem recodes_differs {values : Value → Prop} (reader : JsonReader crates values)
    (known : values value) (recodes : Recodes crates schema text value)
    (read : Uci.fromJson crates schema text = .ok message)
    (written : Uci.toXml crates schema message = .ok xml)
    (again : Uci.fromJson crates schema (crates.jsonPrint value) = .ok changed)
    (converted : Uci.toXml crates schema changed = .ok other) : xml ≠ other := by
  obtain ⟨name, body, data, hex, bytes, inner, payload, new, wrapper, decoded, readable, plain,
    parsed, made, rfl⟩ :=
    recodes
  obtain ⟨shape, simple, encloses, rfl, original, same⟩ :=
    fromJson_recoded (wrapper.sorted reader) wrapper (kept_encoded made) (reader.again known) again
  cases Except.ok.inj (read.symm.trans original)
  have brace : byte '{' ∈ bytes := by
    rw [← utf8_of_fromUtf8 readable]
    exact (byte_mem_encode (by decide) _).mpr (brace_of_fromJson reader parsed)
  cases same fun primitive => kept_of_markup decoded brace (.inr rfl) primitive
  rintro rfl
  have texts : hex = encodeHexUpper (utf8 new) := encloses.asText_eq written converted
  rw [texts, decodeHex_encodeHexUpper] at decoded
  cases decoded
  simp [looksLikeXml_toXml made] at plain

end OneMessage

section Conversions
variable {crates : Crates} {schema : Uci.Schema} {sent : String}
  {source carried outer inner : Envelope}

theorem looksLikeXml_towardXml (run : towardXml crates source schema = .ok outer) :
    Uci.looksLikeXml outer.payload = true := by
  obtain ⟨-, ⟨marked, same⟩ | ⟨-, _, _, _, _, -, -, -, written, same⟩⟩ := towardXml_cases run
  · rw [same, marked]
  · rw [same]
    exact looksLikeXml_toXml written

/-- A payload of the wrapper that the published message is. -/
def Joined (crates : Crates) (schema : Uci.Schema) (sent : String)
    (outer inner : Envelope) : Prop :=
  ∃ hex, PublishedWith crates schema sent hex outer.payload ∧ decodeHex hex = .ok inner.payload

/-- An XML wrapper keeps its payload, and the message is that payload only if it
was XML. -/
theorem joined_xml_iff (marked : Uci.looksLikeXml (utf8 sent) = true)
    (same : source.payload = utf8 sent)
    (parsed : Agra.parseChecked (fun text => (crates.xmlParse text).toOption) sent = some root)
    (encoded : Agra.localText root "EncodedPayload" = some text)
    (decoded : decodeHex (trimText text) = .ok carried.payload)
    (first : towardXml crates source schema = .ok outer)
    (second : towardXml crates carried schema = .ok inner) :
    Joined crates schema sent outer inner ↔ Uci.looksLikeXml carried.payload = true := by
  obtain ⟨-, ⟨-, kept⟩ | ⟨plain, -⟩⟩ := towardXml_cases first
  · constructor
    · rintro ⟨hex, published, digits⟩
      obtain ⟨-, -, root', text', parsed', encoded', rfl⟩ | ⟨plain, -⟩ := published
      · cases parsed.symm.trans parsed'
        cases encoded.symm.trans encoded'
        rw [Except.ok.inj (decoded.symm.trans digits)]
        exact looksLikeXml_towardXml second
      · simp [marked] at plain
    · intro xml
      obtain ⟨-, ⟨-, message⟩ | ⟨plain, -⟩⟩ := towardXml_cases second
      · exact ⟨trimText text, .inl ⟨marked, kept.trans same, root, text, parsed, encoded, rfl⟩,
          message ▸ decoded⟩
      · simp [xml] at plain
  · rw [same, marked] at plain
    cases plain

/-- A JSON wrapper around XML keeps its payload. -/
theorem joined_json_xml {body data : Value} {values : Value → Prop}
    (reader : JsonReader crates values) (wrapper : WrapperAt crates sent name body data hex)
    (plain : Uci.looksLikeXml (utf8 sent) = false) (decoded : decodeHex hex = .ok carried.payload)
    (marked : Uci.looksLikeXml carried.payload = true)
    (transcoded : transcodeWrapperInner crates sent schema true = .ok changed)
    (read : Uci.fromJson crates schema changed = .ok message)
    (written : Uci.toXml crates schema message = .ok xml) (published : outer.payload = utf8 xml)
    (message : inner.payload = carried.payload) :
    Joined crates schema sent outer inner := by
  obtain ⟨bytes, text, digits, -, ⟨-, rfl⟩ | ⟨unmarked, -⟩⟩ := transcode_wrapper wrapper transcoded
  · have whole : crates.jsonParse changed = .ok (.object [(name, recoded body data hex)]) := by
      rw [recoded_self (wrapper.sorted reader) wrapper.held wrapper.encoded]
      exact wrapper.parsed
    obtain ⟨shape, simple, encloses, rfl, here, -⟩ :=
      fromJson_recoded (wrapper.sorted reader) wrapper
      (kept_of_markup decoded (mem_of_looksLikeXml marked) (.inl rfl)) whole read
    refine ⟨hex, ?_, message ▸ decoded⟩
    rw [published]
    exact publishedWith_json plain encloses here written
  · cases decoded.symm.trans digits
    simp [marked] at unmarked

/-- A JSON wrapper around JSON is published with the payload in XML, and the
message with it but where it is a wrapper around JSON once more. -/
theorem joined_json_json_iff {body data : Value} {values : Value → Prop}
    (reader : JsonReader crates values)
    (printed : ∀ value, Recodes crates schema sent value ∨ Recodes crates schema text value →
      values value)
    (wrapper : WrapperAt crates sent name body data hex)
    (plain : Uci.looksLikeXml (utf8 sent) = false) (decoded : decodeHex hex = .ok carried.payload)
    (unmarked : Uci.looksLikeXml carried.payload = false)
    (readable : fromUtf8 carried.payload = some text)
    (transcoded : transcodeWrapperInner crates sent schema true = .ok changed)
    (read : Uci.fromJson crates schema changed = .ok message)
    (written : Uci.toXml crates schema message = .ok xml) (published : outer.payload = utf8 xml)
    (below : transcodeWrapperInner crates text schema true = .ok nested)
    (there : Uci.fromJson crates schema nested = .ok content)
    (made : Uci.toXml crates schema content = .ok document)
    (message : inner.payload = utf8 document) :
    Joined crates schema sent outer inner ↔ ¬ CarriesJson crates text := by
  obtain ⟨bytes, again, digits, decodes,
    ⟨marked, -⟩ | ⟨-, original, converted, here, made', rfl⟩⟩ :=
    transcode_wrapper wrapper transcoded
  · cases decoded.symm.trans digits
    simp [marked] at unmarked
  cases decoded.symm.trans digits
  cases readable.symm.trans decodes
  have recodes : Recodes crates schema sent
      (.object [(name, recoded body data (encodeHexUpper (utf8 converted)))]) :=
    ⟨name, body, data, hex, _, text, original, converted, wrapper, decoded, readable, unmarked,
      here, made', rfl⟩
  obtain ⟨shape, simple, encloses, rfl, first, -⟩ :=
    fromJson_recoded (wrapper.sorted reader) wrapper
    (kept_encoded made') (reader.again (printed _ (.inl recodes))) read
  -- Whatever the wrapper is said to carry is what its payload was converted to.
  have joined : Joined crates schema sent outer inner ↔ converted = document := by
    constructor
    · rintro ⟨other, shown, digits⟩
      rw [published] at shown
      obtain rfl := publishedWith_inj plain encloses first written shown
      rw [decodeHex_encodeHexUpper, message] at digits
      have texts := congrArg fromUtf8 (Except.ok.inj digits)
      rw [fromUtf8_utf8, fromUtf8_utf8] at texts
      exact Option.some.inj texts
    · rintro rfl
      refine ⟨_, published ▸ publishedWith_json plain encloses first written, ?_⟩
      rw [decodeHex_encodeHexUpper, message]
  rw [joined]
  obtain ⟨rfl, other⟩ | ⟨value, twice, rfl⟩ := transcode_cases below
  · cases Except.ok.inj (here.symm.trans there)
    cases Except.ok.inj (made'.symm.trans made)
    simp [other]
  · have differs := recodes_differs reader (printed _ (.inr twice)) twice here made' there made
    simp [differs, twice.carriesJson]

end Conversions

section Halves
variable {crates : OwpCrates} {session : Session} {schema : Uci.Schema}
  {ids : MessageId × MessageId}

/-- The values that are printed and read again. -/
def Reprinted (crates : Crates) (schema : Uci.Schema) (payload : String) (halves : Agra.Unwrapped)
    (value : Value) : Prop :=
  ∃ text, (text = trimText payload ∨ fromUtf8 halves.inner.payload = some text) ∧
    Recodes crates schema text value

/-- Both conversions of a wrapper's payload come to the same. -/
theorem joined_iff {crates : Crates} {outer inner : Envelope}
    (reader : JsonReader crates (Reprinted crates schema payload halves))
    (peeled : Agra.unwrap crates ids topic (utf8 payload) = .ok halves)
    (first : towardXml crates halves.wrapper schema = .ok outer)
    (second : towardXml crates halves.inner schema = .ok inner) :
    Joined crates schema (trimText payload) outer inner ↔ ConvertsAlike crates halves := by
  obtain ⟨same, ⟨marked, root, hex, parsed, encoded, decoded⟩ | ⟨plain, name, body, data, hex,
    wrapper, decoded⟩⟩ :=
    unwrap_cases peeled
  · rw [joined_xml_iff marked same parsed encoded decoded first second, ConvertsAlike, same, marked]
    simp
  · rw [ConvertsAlike, same, plain]
    obtain ⟨-, ⟨xml, -⟩ | ⟨-, text, changed, message, xml, readable, transcoded, read,
      written, published⟩⟩ :=
      towardXml_cases first
    · rw [same, plain] at xml
      cases xml
    rw [same, fromUtf8_utf8] at readable
    cases readable
    obtain ⟨-, ⟨markup, kept⟩ | ⟨bare, text, nested, content, document, readable, below,
      there, made, message⟩⟩ :=
      towardXml_cases second
    · have joined := joined_json_xml reader wrapper plain decoded markup transcoded read written
        published kept
      simp [joined, markup]
    · have printed (value : Value) (recodes : Recodes crates schema (trimText payload) value ∨
          Recodes crates schema text value) : Reprinted crates schema payload halves value := by
        rcases recodes with outside | inside
        · exact ⟨_, .inl rfl, outside⟩
        · exact ⟨_, .inr readable, inside⟩
      rw [joined_json_json_iff reader printed wrapper plain decoded bare readable transcoded read
        written published
        below there made message]
      simp [bare, readable]

theorem payload_stamp (session : Session) (serviceId : String) (envelope : Envelope) :
    (stamp session serviceId envelope).payload = envelope.payload := rfl

theorem contentType_stamp (session : Session) (serviceId : String) (envelope : Envelope) :
    (stamp session serviceId envelope).contentType = envelope.contentType := rfl

theorem oneMessage_stamped {crates : Crates} {source carried outer inner : Envelope}
    (first : towardXml crates source schema = .ok outer)
    (second : towardXml crates carried schema = .ok inner) :
    OneMessage crates schema sent [stamp session serviceId outer, stamp session serviceId inner] ↔
      Joined crates schema sent outer inner := by
  constructor
  · rintro ⟨wrapper, message, hex, same, -, -, published, decoded⟩
    cases same
    rw [payload_stamp] at published decoded
    exact ⟨hex, published, decoded⟩
  · rintro ⟨hex, published, decoded⟩
    refine ⟨_, _, hex, rfl, ?_⟩
    rw [payload_stamp, payload_stamp, contentType_stamp, contentType_stamp]
    exact ⟨⟨looksLikeXml_towardXml first, (towardXml_cases first).1⟩,
      ⟨looksLikeXml_towardXml second, (towardXml_cases second).1⟩, published, decoded⟩

/-- A wrapper and the message inside it stay one message where the message is XML,
or JSON in a JSON wrapper and no wrapper around JSON in its turn. -/
theorem one_message_iff {payload topic serviceId : String} {halves : Agra.Unwrapped}
    {envelopes : List Envelope}
    (reader : JsonReader crates.toCrates (Reprinted crates.toCrates schema payload halves))
    (unwrapping : session.config.unwrapMaPayloads = true)
    (baseline : session.config.xmlBaseline = true) (loaded : session.schema = some schema)
    (wrapped : (Agra.wrapperKind crates.toCrates (utf8 payload)).isSome = true)
    (peeled : Agra.unwrap crates.toCrates ids topic (utf8 payload) = .ok halves)
    (accepted : publishOwp crates session serviceId ids topic payload = .ok envelopes) :
    OneMessage crates.toCrates schema (trimText payload) envelopes ↔
      ConvertsAlike crates.toCrates halves := by
  obtain ⟨outer, inner, first, second, rfl⟩ :=
    publish_halves unwrapping baseline loaded wrapped peeled accepted
  rw [oneMessage_stamped first second, joined_iff reader peeled first second]

end Halves

section Samples
open Agra (rxElement)

/-- A wrapper with its data, and an empty message. -/
def pairSchema : Uci.Schema where
  globalElements := Finmap.insert rxElement "RxType" (Finmap.insert "A" "AType" ∅)
  complexTypes := Finmap.insert "RxType" ⟨false, .groups [⟨.sequence,
      [⟨"MessageData", "DataType", 1, .bounded 1⟩]⟩]⟩
    (Finmap.insert "DataType" ⟨false, .groups [⟨.sequence,
      [⟨"MessageType", "xs:string", 1, .bounded 1⟩,
        ⟨"EncodedPayload", "xs:hexBinary", 1, .bounded 1⟩]⟩]⟩
      (Finmap.insert "AType" ⟨false, .groups []⟩ ∅))
  simpleTypes := ∅

def emptyText : String := "\x7b\"A\":\x7b\x7d\x7d"

def emptyHex : String := "7B2241223A7B7D7D"

def emptyXml : String :=
  "<?xml version=\"1.0\" encoding=\"UTF-8\"?>\n" ++
    "<A xmlns=\"https://www.vdl.afrl.af.mil/programs/oam\"/>\n"

def wrapperFront : List Char :=
  "\x7b\"MA_RxDataPayload\":\x7b\"MessageData\":\x7b\"EncodedPayload\":\"".toList

def wrapperBack : List Char := "\",\"MessageType\":\"A\"\x7d\x7d\x7d".toList

def jsonWrapper (hex : String) : String := .ofList (wrapperFront ++ hex.toList ++ wrapperBack)

def wrapperBody (hex : String) : Value :=
  .object [("MessageData", .object [("EncodedPayload", .string hex), ("MessageType", .string "A")])]

def tagged (name : String) (content : List Char) : List Char :=
  '<' :: (name.toList ++ '>' :: content ++ '<' :: '/' :: name.toList ++ ['>'])

/-- The same wrapper as XML, without white space between its elements. -/
def xmlWrapper : String :=
  .ofList (tagged rxElement (tagged "MessageData" (tagged "MessageType" ['A'] ++
    tagged "EncodedPayload" emptyHex.toList)))

def xmlTree : Xml.Node :=
  let element (name : String) (children : List Xml.Node) : Xml.Node :=
    .element ⟨none, name⟩ [] children
  element rxElement [element "MessageData" [element "MessageType" [.text "A"],
    element "EncodedPayload" [.text emptyHex]]]

/-- Parsers that know the two wrappers, and what one is converted to. -/
def pairCrates : OwpCrates :=
  { initCrates with
    jsonParse := fun text =>
      if text = emptyText then .ok (.object [("A", .object [])])
      else if text = jsonWrapper emptyHex then .ok (.object [(rxElement, wrapperBody emptyHex)])
      else if text = jsonWrapper (encodeHexUpper (utf8 emptyXml)) then
        .ok (.object [(rxElement, wrapperBody (encodeHexUpper (utf8 emptyXml)))])
      else .error "expected value"
    jsonPrint := fun
      | .object [(_, .object [(_, .object [(_, .string hex), _])])] => jsonWrapper hex
      | _ => emptyText
    xmlParse := fun text => if text = xmlWrapper then .ok xmlTree else .error "unknown token" }

def pairSession : Session :=
  { plainSession with
    schema := some pairSchema
    config := { plainSession.config with xmlBaseline := true } }

theorem read_empty : Uci.fromJson pairCrates.toCrates pairSchema emptyText =
    .ok ⟨"A", .complex none []⟩ := rfl

theorem written_empty : Uci.toXml pairCrates.toCrates pairSchema ⟨"A", .complex none []⟩ =
    .ok emptyXml := by
  decide +kernel

theorem decoded_empty : Agra.decodeHex emptyHex = .ok (utf8 emptyText) := by
  decide +kernel

theorem plain_empty : Uci.looksLikeXml (utf8 emptyText) = false :=
  (looksLikeXml_of_starts (c := '{') rfl (by decide)).trans (by decide)

theorem toList_jsonWrapper (hex : String) : (jsonWrapper hex).toList = wrapperFront ++ hex.toList ++
    wrapperBack :=
  String.toList_ofList

theorem jsonWrapper_inj (same : jsonWrapper one = jsonWrapper two) : one = two := by
  have texts := congrArg String.toList same
  rw [toList_jsonWrapper, toList_jsonWrapper] at texts
  exact String.toList_inj.mp (List.append_cancel_left (List.append_cancel_right texts))

theorem head_jsonWrapper (hex : String) : (jsonWrapper hex).toList.head? = some '{' := by
  have first : wrapperFront.head? = some '{' := by decide
  rw [toList_jsonWrapper, List.append_assoc, List.head?_append, first]
  rfl

theorem trimText_jsonWrapper (hex : String) : trimText (jsonWrapper hex) = jsonWrapper hex := by
  have last : (jsonWrapper hex).toList.getLast? = some '}' := by
    have closed : wrapperBack.getLast? = some '}' := by decide
    rw [toList_jsonWrapper, List.getLast?_append, closed]
    rfl
  rw [trimText, trim_of_ends (head_jsonWrapper hex) (by decide) last (by decide),
    String.ofList_toList]

theorem starts_jsonWrapper (hex : String) : Agra.startsWith '{' (jsonWrapper hex) = true := by
  rw [Agra.startsWith, head_jsonWrapper]
  rfl

theorem jsonWrapper_ne_empty (hex : String) : jsonWrapper hex ≠ emptyText := by
  intro same
  have lengths := congrArg (fun text => text.toList.length) same
  simp only [toList_jsonWrapper, List.length_append] at lengths
  have long : emptyText.toList.length < wrapperFront.length := by decide +kernel
  omega

theorem jsonParse_sent : pairCrates.jsonParse (jsonWrapper emptyHex) =
    .ok (.object [(rxElement, wrapperBody emptyHex)]) := by
  simp only [pairCrates, jsonWrapper_ne_empty, ↓reduceIte]

theorem jsonParse_converted : pairCrates.jsonParse (jsonWrapper (encodeHexUpper (utf8 emptyXml))) =
    .ok (.object [(rxElement, wrapperBody (encodeHexUpper (utf8 emptyXml)))]) := by
  have apart : jsonWrapper (encodeHexUpper (utf8 emptyXml)) ≠ jsonWrapper emptyHex := by
    intro same
    have decoded := decodeHex_of_agra decoded_empty
    rw [← jsonWrapper_inj same, decodeHex_encodeHexUpper] at decoded
    have marked := looksLikeXml_toXml written_empty
    rw [Except.ok.inj decoded, plain_empty] at marked
    cases marked
  simp only [pairCrates, jsonWrapper_ne_empty, apart, ↓reduceIte]

theorem jsonParse_cases (parsed : pairCrates.jsonParse text = .ok value) :
    text = emptyText ∧ value = .object [("A", .object [])] ∨
      ∃ hex, text = jsonWrapper hex ∧ value = .object [(rxElement, wrapperBody hex)] := by
  simp only [pairCrates] at parsed
  split at parsed
  · exact .inl ⟨‹_›, (Except.ok.inj parsed).symm⟩
  · split at parsed
    · exact .inr ⟨_, ‹_›, (Except.ok.inj parsed).symm⟩
    · split at parsed
      · exact .inr ⟨_, ‹_›, (Except.ok.inj parsed).symm⟩
      · cases parsed

theorem recoded_wrapperBody (sent hex : String) : recoded (wrapperBody sent)
    (.object [("EncodedPayload", .string sent), ("MessageType", .string "A")]) hex =
      wrapperBody hex := rfl

theorem jsonPrint_wrapper (hex : String) :
    pairCrates.jsonPrint (.object [(rxElement, wrapperBody hex)]) = jsonWrapper hex := rfl

theorem sorted_wrapperBody (hex : String) : (wrapperBody hex).Sorted := by
  have keys : "EncodedPayload" < "MessageType" := by decide
  refine Value.Sorted.single (.object (List.pairwise_pair.mpr keys) ?_)
  exact List.forall_mem_cons.mpr ⟨.string, List.forall_mem_singleton.mpr .string⟩

theorem brace_jsonWrapper (hex : String) : '{' ∈ (jsonWrapper hex).toList := by
  exact List.mem_of_mem_head? (head_jsonWrapper hex)

theorem wrapper_sent :
    WrapperAt pairCrates.toCrates (jsonWrapper emptyHex) rxElement (wrapperBody emptyHex)
      (.object [("EncodedPayload", .string emptyHex), ("MessageType", .string "A")]) emptyHex :=
  ⟨jsonParse_sent, .inl rfl, rfl, rfl⟩

theorem towardXml_of {crates : Crates} {schema : Uci.Schema} {envelope : Envelope}
    (payload : envelope.payload = utf8 text) (plain : Uci.looksLikeXml (utf8 text) = false)
    (transcoded : transcodeWrapperInner crates text schema true = .ok changed)
    (read : Uci.fromJson crates schema changed = .ok message)
    (written : Uci.toXml crates schema message = .ok xml) :
    ∃ result, towardXml crates envelope schema = .ok result := by
  rw [towardXml, payload, if_neg (by simp [plain]), fromUtf8_utf8]
  exact ⟨_, bind_eq_ok.mpr ⟨_, transcoded, bind_eq_ok.mpr ⟨_, uciFailure_eq_ok.mpr read,
    bind_eq_ok.mpr ⟨_, uciFailure_eq_ok.mpr written, rfl⟩⟩⟩⟩

theorem transcode_empty : transcodeWrapperInner pairCrates.toCrates emptyText pairSchema true =
    .ok emptyText := rfl

/-- The message inside is converted. -/
theorem towardXml_empty {envelope : Envelope} (payload : envelope.payload = utf8 emptyText) :
    ∃ result, towardXml pairCrates.toCrates envelope pairSchema = .ok result :=
  towardXml_of payload plain_empty transcode_empty read_empty written_empty

theorem not_wrapper_empty {body data : Value} :
    ¬ WrapperAt pairCrates.toCrates emptyText name body data hex := by
  intro wrapper
  have parsed : pairCrates.jsonParse emptyText = .ok (.object [("A", .object [])]) := rfl
  cases parsed.symm.trans wrapper.parsed
  exact absurd wrapper.named (by decide)

/-- What is converted is published, whatever is wrong with it. -/
theorem publish_pair {halves : Agra.Unwrapped}
    (wrapped : (Agra.wrapperKind pairCrates.toCrates (utf8 payload)).isSome = true)
    (peeled : Agra.unwrap pairCrates.toCrates (⟨"1"⟩, ⟨"2"⟩) "offboard" (utf8 payload) = .ok halves)
    (outer : ∃ result, towardXml pairCrates.toCrates halves.wrapper pairSchema = .ok result)
    (inner : ∃ result, towardXml pairCrates.toCrates halves.inner pairSchema = .ok result) :
    ∃ envelopes, publishOwp pairCrates pairSession "demo" (⟨"1"⟩, ⟨"2"⟩) "offboard" payload =
      .ok envelopes := by
  have sources : outgoing pairCrates pairSession (⟨"1"⟩, ⟨"2"⟩) "offboard" payload =
      .ok [halves.wrapper, halves.inner] := by
    rw [outgoing, wrapped, peeled]
    rfl
  have prepares {envelope : Envelope}
      (converts : ∃ result, towardXml pairCrates.toCrates envelope pairSchema = .ok result) :
      ∃ handed, prepare pairCrates pairSession "demo" envelope = .ok handed := by
    obtain ⟨result, run⟩ := converts
    have ready : convert pairCrates pairSession envelope =
      .ok result := by simp [convert, pairSession, run]
    have mild : pairSession.config.validate ≠ .reject := by decide
    exact ⟨stamp pairSession "demo" result, by simp [prepare, ready, mild]⟩
  obtain ⟨first, here⟩ := prepares outer
  obtain ⟨second, there⟩ := prepares inner
  rw [publishOwp, sources]
  exact ⟨[first, second], collect_cons_eq_ok.mpr ⟨first, [second], here,
    collect_cons_eq_ok.mpr ⟨second, [], there, rfl, rfl⟩, rfl⟩⟩

def wrapperMessage (hex : String) : Uci.Message :=
  ⟨rxElement, .complex none [("MessageData", .one (.complex none
    [("EncodedPayload", .one (.simple (.string hex))),
      ("MessageType", .one (.simple (.string "A")))]))]⟩

theorem written_wrapperMessage (hex : String) :
    ∃ xml, Uci.toXml pairCrates.toCrates pairSchema (wrapperMessage hex) = .ok xml :=
  ⟨_, rfl⟩

theorem plain_sent : Uci.looksLikeXml (utf8 (jsonWrapper emptyHex)) = false :=
  (looksLikeXml_of_starts (starts_jsonWrapper _) (by decide)).trans (by decide)

/-- The two halves of a sample. -/
def pairHalves (wrapper : String) (contentType : ContentType) (info : Agra.WrapperMeta) :
    Agra.Unwrapped :=
  Agra.assemble pairCrates.toCrates (⟨"1"⟩, ⟨"2"⟩) "offboard" (utf8 wrapper) contentType info
    (utf8 emptyText)

/-- What the JSON wrapper is converted to is the only value printed. -/
theorem recodes_sent
    (recodes : Recodes pairCrates.toCrates pairSchema (jsonWrapper emptyHex) value) :
    value = .object [(rxElement, wrapperBody (encodeHexUpper (utf8 emptyXml)))] := by
  obtain ⟨name, body, data, hex, bytes, inner, message, xml, wrapper, decoded, readable, -,
    read, written, rfl⟩ := recodes
  obtain ⟨rfl, rfl, rfl, rfl⟩ := wrapper_sent.unique wrapper
  cases (decodeHex_of_agra decoded_empty).symm.trans decoded
  rw [fromUtf8_utf8] at readable
  cases readable
  cases read_empty.symm.trans read
  cases written_empty.symm.trans written
  rfl

theorem pairReader (contentType : ContentType) (info : Agra.WrapperMeta) :
    JsonReader pairCrates.toCrates
    (Reprinted pairCrates.toCrates pairSchema (jsonWrapper emptyHex)
      (pairHalves wrapper contentType info)) := by
  refine ⟨fun parsed => ?_, fun parsed => ?_, ?_⟩
  · obtain ⟨-, rfl⟩ | ⟨hex, -, rfl⟩ := jsonParse_cases parsed
    · exact Value.Sorted.single (.object .nil (by simp))
    · exact (sorted_wrapperBody hex).single
  · obtain ⟨rfl, -⟩ | ⟨hex, rfl, -⟩ := jsonParse_cases parsed
    · decide +kernel
    · exact brace_jsonWrapper hex
  · rintro value ⟨text, rfl | readable, recodes⟩
    · rw [trimText_jsonWrapper] at recodes
      cases recodes_sent recodes
      exact jsonParse_converted
    · rw [pairHalves, payload_inner, fromUtf8_utf8] at readable
      cases readable
      obtain ⟨_, _, _, _, _, _, _, _, wrapper, -⟩ := recodes
      exact absurd wrapper not_wrapper_empty

theorem transcode_sent :
    transcodeWrapperInner pairCrates.toCrates (jsonWrapper emptyHex) pairSchema true =
    .ok (jsonWrapper (encodeHexUpper (utf8 emptyXml))) := by
  rw [transcode_wrapper_eq wrapper_sent (decodeHex_of_agra decoded_empty) (fromUtf8_utf8 _)
    plain_empty read_empty
    written_empty, recoded_wrapperBody, jsonPrint_wrapper]

/-- The JSON wrapper's payload is converted as the message inside is. -/
theorem one_message_empty : ∃ envelopes,
    publishOwp pairCrates pairSession "demo" (⟨"1"⟩, ⟨"2"⟩) "offboard" (jsonWrapper emptyHex) =
      .ok envelopes ∧
      OneMessage pairCrates.toCrates pairSchema (jsonWrapper emptyHex) envelopes := by
  have trimmed := trimText_jsonWrapper emptyHex
  have wrapped : (Agra.wrapperKind pairCrates.toCrates (utf8 (jsonWrapper emptyHex))).isSome =
      true := by
    rw [Agra.wrapperKind, fromUtf8_utf8, Option.bind_some,
      trimStartText_of_starts (starts_jsonWrapper _) (by decide), Agra.elementOf,
        if_pos (starts_jsonWrapper _), Agra.singleMember, jsonParse_sent]
    rfl
  have peeled : Agra.unwrap pairCrates.toCrates (⟨"1"⟩, ⟨"2"⟩) "offboard"
    (utf8 (jsonWrapper emptyHex)) =
      .ok (pairHalves (jsonWrapper emptyHex) .json (Agra.jsonInfo .rx "A"
        (.object [("EncodedPayload", .string emptyHex), ("MessageType", .string "A")]))) := by
    rw [Agra.unwrap, fromUtf8_utf8]
    simp only [trimmed]
    rw [if_pos (starts_jsonWrapper _)]
    exact Agra.unwrapJson_eq_ok.mpr ⟨rxElement, _, .rx, _, "A", emptyHex, _, jsonParse_sent, rfl,
      rfl, rfl, rfl, decoded_empty, rfl⟩
  have read : Uci.fromJson pairCrates.toCrates pairSchema
    (jsonWrapper (encodeHexUpper (utf8 emptyXml))) =
      .ok (wrapperMessage (encodeHexUpper (utf8 emptyXml))) := by
    rw [Uci.fromJson, jsonParse_converted]
    rfl
  obtain ⟨xml, written⟩ := written_wrapperMessage (encodeHexUpper (utf8 emptyXml))
  obtain ⟨envelopes, accepted⟩ := publish_pair wrapped peeled
    (towardXml_of (payload_wrapper _ _ _ _ _ _) plain_sent transcode_sent read written)
    (towardXml_empty (payload_inner _ _ _ _ _ _))
  refine ⟨envelopes, accepted,
    trimmed ▸ (one_message_iff (pairReader _ _) rfl rfl rfl wrapped peeled accepted).mpr ?_⟩
  refine .inr ⟨plain_sent, fun text readable => ?_⟩
  rw [pairHalves, payload_inner, fromUtf8_utf8] at readable
  cases readable
  rintro ⟨_, _, _, _, _, wrapper, -⟩
  exact not_wrapper_empty wrapper

/-- The XML wrapper keeps its payload in JSON, and the message inside is
published in XML. -/
theorem xml_wrapper_parted : ∃ envelopes,
    pairSession.config.unwrapMaPayloads = true ∧ pairSession.config.xmlBaseline = true ∧
    pairSession.schema = some pairSchema ∧
    Agra.wrapperKind pairCrates.toCrates (utf8 xmlWrapper) = some .rx ∧
    publishOwp pairCrates pairSession "demo" (⟨"1"⟩, ⟨"2"⟩) "offboard" xmlWrapper = .ok envelopes ∧
    ¬ OneMessage pairCrates.toCrates pairSchema (trimText xmlWrapper) envelopes := by
  have head : xmlWrapper.toList.head? = some '<' := by
    rw [xmlWrapper, String.toList_ofList]
    rfl
  have last : xmlWrapper.toList.getLast? = some '>' := by
    rw [xmlWrapper, String.toList_ofList, tagged, ← List.cons_append, List.getLast?_concat]
  have trimmed : trimText xmlWrapper = xmlWrapper := by
    rw [trimText, trim_of_ends head (by decide) last (by decide), String.ofList_toList]
  have starts : Agra.startsWith '<' xmlWrapper = true := by rw [Agra.startsWith, head]; rfl
  have braceless : Agra.startsWith '{' xmlWrapper = false := by rw [Agra.startsWith, head]; rfl
  have parsed : Agra.parseChecked (fun text => (pairCrates.xmlParse text).toOption) xmlWrapper =
      some xmlTree := by
    have shallow : Agra.nestingExceeds xmlWrapper Agra.maxWrapperDepth = false := by
      rw [Agra.nestingExceeds, utf8, xmlWrapper, String.toList_ofList]
      decide +kernel
    simp [Agra.parseChecked, shallow, pairCrates, Except.toOption]
  have wrapped : Agra.wrapperKind pairCrates.toCrates (utf8 xmlWrapper) = some .rx := by
    rw [Agra.wrapperKind, fromUtf8_utf8, Option.bind_some,
      trimStartText_of_starts starts (by decide), Agra.elementOf, if_neg (by simp [braceless]),
        if_pos starts, Agra.xmlRootLocalName, parsed]
    rfl
  have bare : trimText emptyHex = emptyHex := by decide +kernel
  have peeled : Agra.unwrap pairCrates.toCrates (⟨"1"⟩, ⟨"2"⟩) "offboard" (utf8 xmlWrapper) =
      .ok (pairHalves xmlWrapper .xml (Agra.xmlInfo .rx "A" xmlTree)) := by
    rw [Agra.unwrap, fromUtf8_utf8]
    simp only [trimmed]
    rw [if_neg (by simp [braceless]), if_pos starts]
    exact Agra.unwrapXml_eq_ok.mpr ⟨xmlTree, .rx, "A", emptyHex, _, parsed, rfl, rfl, rfl,
      bare ▸ decoded_empty, rfl⟩
  have marked : Uci.looksLikeXml (utf8 xmlWrapper) = true :=
    (looksLikeXml_of_starts starts (by decide)).trans (by decide)
  have known : (Agra.wrapperKind pairCrates.toCrates (utf8 xmlWrapper)).isSome =
    true := by rw [wrapped]; rfl
  obtain ⟨envelopes, accepted⟩ := publish_pair known peeled
    ⟨_, by rw [towardXml, pairHalves, payload_wrapper, if_pos marked]⟩
      (towardXml_empty (payload_inner _ _ _ _ _ _))
  refine ⟨envelopes, rfl, rfl, rfl, wrapped, accepted, ?_⟩
  obtain ⟨outer, inner, first, second, rfl⟩ := publish_halves rfl rfl rfl known peeled accepted
  rw [oneMessage_stamped first second, trimmed,
    joined_xml_iff marked (payload_wrapper _ _ _ _ _ _) parsed rfl
    (by rw [pairHalves, payload_inner, bare]; exact decodeHex_of_agra decoded_empty) first second,
      pairHalves,
    payload_inner, plain_empty]
  decide

end Samples

end OaGateway.Owp
