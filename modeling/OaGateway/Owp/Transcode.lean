import OaGateway.Agra.Unwrap
import OaGateway.Owp.Hex
import OaGateway.Uci.Replace

/-! The payload inside a wrapper converted in place: what is replaced, and what the
readers and writers make of the wrapper then. -/
namespace OaGateway.Owp

open Lib Lib.Json OaGateway.Core

/-- The wrapper message with another payload in hex. -/
def withPayload (hex : String) (message : Uci.Message) : Uci.Message :=
  ⟨message.name, message.body.update "MessageData" fun data =>
    data.update "EncodedPayload" fun _ => .simple (.string hex)⟩

/-- What a wrapper message holds as its payload. -/
def payloadsOf (message : Uci.Message) : List Uci.Node :=
  (message.body.children "MessageData").flatMap fun data => data.children "EncodedPayload"

/-- A JSON wrapper with a payload in hex. -/
structure WrapperAt (crates : Crates) (text name : String) (body data : Value)
    (hex : String) : Prop where
  parsed : crates.jsonParse text = .ok (.object [(name, body)])
  named : name = Agra.rxElement ∨ name = Agra.txElement
  held : body.get "MessageData" = some data
  encoded : Agra.memberText data "EncodedPayload" = some hex

/-- A JSON wrapper around text that does not look like XML. -/
def CarriesJson (crates : Crates) (text : String) : Prop :=
  ∃ name body data hex bytes, WrapperAt crates text name body data hex ∧ decodeHex hex = .ok bytes ∧
    (fromUtf8 bytes).isSome = true ∧ Uci.looksLikeXml bytes = false

/-- The body of a wrapper with another payload. -/
def recoded (body data : Value) (hex : String) : Value :=
  setMember body "MessageData" (setMember data "EncodedPayload" (.string hex))

/-- `value` is what a wrapper around JSON is made into: its payload is converted
to XML. -/
def Recodes (crates : Crates) (schema : Uci.Schema) (text : String) (value : Value) : Prop :=
  ∃ name body data hex bytes inner message xml, WrapperAt crates text name body data hex ∧
    decodeHex hex = .ok bytes ∧ fromUtf8 bytes = some inner ∧ Uci.looksLikeXml bytes = false ∧
    Uci.fromJson crates schema inner = .ok message ∧ Uci.toXml crates schema message = .ok xml ∧
    value = .object [(name, recoded body data (encodeHexUpper (utf8 xml)))]

section Members

/-- An object around one of its members, which another can take the place of. -/
theorem exists_around {body : Value} (sorted : body.Sorted) (held : body.get key = some value) :
    ∃ before after, body = .object (before ++ (key, value) :: after) ∧
      key ∉ (before ++ after).map Prod.fst ∧
          ∀ other, setMember body key other = .object (before ++ (key, other) :: after) := by
  cases sorted with
  | null | bool | number | string | array => cases held
  | @object members increasing each =>
    obtain ⟨entry, found, rfl⟩ := Option.map_eq_some_iff.mp held
    obtain ⟨same, before, after, rfl, -⟩ := List.find?_eq_some_iff_append.mp found
    obtain rfl : entry.1 = key := by simpa using same
    have apart : entry.1 ∉ (before ++ after).map Prod.fst := by
      have nodup := increasing.nodup
      rw [List.map_append, List.map_cons, List.nodup_middle, List.nodup_cons,
        ← List.map_append] at nodup
      exact nodup.1
    refine ⟨before, after, rfl, apart, fun other => ?_⟩
    have kept : ∀ members ⊆ before ++ after,
        (members.map fun member => if member.1 = entry.1 then (entry.1, other) else member) =
            members := by
      intro members inside
      refine (List.map_congr_left fun member present => ?_).trans (List.map_id' members)
      rw [if_neg]
      intro equal
      exact apart (equal ▸ List.mem_map_of_mem (inside present))
    rw [setMember, List.map_append, List.map_cons, kept before (List.subset_append_left _ _),
      kept after (List.subset_append_right _ _), if_pos rfl]

theorem sorted_of_get {body : Value} (sorted : body.Sorted) (held : body.get key = some value) :
    value.Sorted := by
  cases sorted with
  | null | bool | number | string | array => cases held
  | object increasing each =>
    obtain ⟨entry, found, rfl⟩ := Option.map_eq_some_iff.mp held
    exact each entry (List.mem_of_find?_eq_some found)

end Members

/-- Everything of a wrapper's body but its payload. -/
def Encloses (shape : Uci.Node → Uci.Node) : Prop :=
  ∃ outer front array back inner ahead several behind,
    "MessageData" ∉ (front ++ back).map Prod.fst ∧
    "EncodedPayload" ∉ (ahead ++ behind).map Prod.fst ∧ shape = fun child =>
      Uci.around outer front "MessageData" array back
      (Uci.around inner ahead "EncodedPayload" several behind child)

section Written
variable {crates : Crates} {schema : Uci.Schema} {message : Uci.Message}

theorem looksLikeXml_toXml (written : Uci.toXml crates schema message = .ok xml) :
    Uci.looksLikeXml (utf8 xml) = true := by
  obtain ⟨element, -, rfl⟩ := Uci.toXml_eq_ok.mp written
  rw [Uci.looksLikeXml, fromUtf8_utf8, Option.any_some, String.toList_ofList]
  rfl

end Written

section Shape
variable {crates : Crates} {schema : Uci.Schema} {shape : Uci.Node → Uci.Node}

theorem Encloses.withPayload_eq (encloses : Encloses shape) (name hex : String) (child : Uci.Node) :
    withPayload hex ⟨name, shape child⟩ = ⟨name, shape (.simple (.string hex))⟩ := by
  obtain ⟨outer, front, array, back, inner, ahead, several, behind, apart, within, rfl⟩ := encloses
  simp only [withPayload, Uci.update_around front back apart, Uci.update_around ahead behind within]

theorem Encloses.payloadsOf_eq (encloses : Encloses shape) (name : String) (child : Uci.Node) :
    payloadsOf ⟨name, shape child⟩ = [child] := by
  obtain ⟨outer, front, array, back, inner, ahead, several, behind, apart, within, rfl⟩ := encloses
  simp [payloadsOf, Uci.children_around front back apart, Uci.children_around ahead behind within]

/-- Two wrappers that differ in their payload are written alike only if it is the
same text. -/
theorem Encloses.asText_eq {one two : Uci.Simple} (encloses : Encloses shape)
    (written : Uci.toXml crates schema ⟨name, shape (.simple one)⟩ = .ok xml)
    (same : Uci.toXml crates schema ⟨name, shape (.simple two)⟩ = .ok xml) :
    one.asText crates = two.asText crates := by
  obtain ⟨outer, front, array, back, inner, ahead, several, behind, -, -, rfl⟩ := encloses
  obtain ⟨out, here, rfl⟩ := Uci.toXml_eq_ok.mp written
  obtain ⟨other, there, equal⟩ := Uci.toXml_eq_ok.mp same
  have alike : out = other := by
    have texts := String.ofList_inj.mp equal
    simpa using texts
  subst alike
  obtain ⟨_, piece, one, two⟩ := Uci.writeElement_around here there
  obtain ⟨_, leaf, first, second⟩ := Uci.writeElement_around one two
  exact Uci.asText_of_written first second

end Shape

section Reader
variable {crates : Crates} {schema : Uci.Schema}

/-- A wrapper is read with one payload as with another, and the rest of it alike. -/
theorem readNode_recoded {body data : Value} (sorted : body.Sorted)
    (held : body.get "MessageData" = some data)
    (encoded : Agra.memberText data "EncodedPayload" = some old)
    (kept : ∀ primitive, Uci.Kept primitive (.string new))
    (read : Uci.readNode crates schema (levels + 1) (recoded body data new) declared path =
      .ok node) :
    ∃ shape simple, Encloses shape ∧ node = shape (.simple (.string new)) ∧
      Uci.readNode crates schema (levels + 1) body declared path = .ok (shape (.simple simple)) ∧
      ((∀ primitive, Uci.Kept primitive (.string old)) → simple = .string old) := by
  obtain ⟨value, found, string⟩ := Option.bind_eq_some_iff.mp encoded
  obtain rfl : value = .string old := by
    cases value <;> simp_all [Value.asStr]
  obtain ⟨before, after, rfl, apart, replaced⟩ := exists_around sorted held
  obtain ⟨ahead, behind, rfl, within, inside⟩ := exists_around (sorted_of_get sorted held) found
  rw [recoded, inside, replaced] at read
  obtain ⟨outer, front, array, back, child, type, place, rfl, keys, below, change⟩ :=
    Uci.readNode_around (by decide) (by simp) read
  cases levels with
  | zero => cases below
  | succ levels =>
    obtain ⟨inner, first, several, last, leaf, kind, spot, rfl, names, here, swap⟩ :=
      Uci.readNode_around (by decide) (by simp) below
    obtain ⟨simple, there, same⟩ := Uci.readNode_string here old
    obtain ⟨string, again, same'⟩ := Uci.readNode_string here new
    cases same' (kept _)
    cases Except.ok.inj (here.symm.trans again)
    refine ⟨_, simple, ⟨outer, front, array, back, inner, first, several, last, ?_, ?_, rfl⟩, rfl,
      change _ _ (by simp) (swap _ _ (by simp) there), fun all => same (all _)⟩
    · exact Uci.apart_of_keys apart keys
    · exact Uci.apart_of_keys within names

end Reader

section Convert
variable {crates : Crates} {schema : Uci.Schema}

theorem uciFailure_eq_ok {Result : Type} {run : Except Uci.UciError Result} {result : Result} :
    uciFailure run = .ok result ↔ run = .ok result := by
  cases run <;> simp [uciFailure]

theorem WrapperAt.unique {body other data more : Value}
    (one : WrapperAt crates text name body data hex)
    (two : WrapperAt crates text label other more digits) :
    name = label ∧ body = other ∧ data = more ∧ hex = digits := by
  cases one.parsed.symm.trans two.parsed
  cases one.held.symm.trans two.held
  cases one.encoded.symm.trans two.encoded
  exact ⟨rfl, rfl, rfl, rfl⟩

theorem looksLikeXml_eq {bytes : Bytes} (decoded : fromUtf8 bytes = some text) :
    Uci.looksLikeXml bytes = ((trimStart text.toList).head? == some '<') := by
  rw [Uci.looksLikeXml, decoded, Option.any_some]

/-- What is no wrapper with a payload in hex is left as it is. -/
theorem transcode_other (run : transcodeWrapperInner crates text schema true = .ok result)
    (other : ¬ ∃ name body data hex, WrapperAt crates text name body data hex) : result = text := by
  rw [transcodeWrapperInner] at run
  split at run
  · cases run
  rename_i root parsed
  split at run
  · rename_i name body single
    obtain rfl : root = .object [(name, body)] := by
      cases root <;> simp_all [Value.asObject]
    split at run
    · exact (Except.ok.inj run).symm
    · rename_i named
      split at run
      · exact (Except.ok.inj run).symm
      · rename_i data encoded found
        split at run
        · exact (Except.ok.inj run).symm
        · rename_i hex string
          obtain ⟨held, below, there⟩ := Option.bind_eq_some_iff.mp found
          obtain ⟨value, member, same⟩ := Option.map_eq_some_iff.mp there
          cases same
          refine absurd ⟨name, body, data, hex, parsed, ?_, below, ?_⟩ other
          · tauto
          · simp [Agra.memberText, member, string]
  · exact (Except.ok.inj run).symm

/-- What is done to a wrapper with a payload in hex. -/
theorem transcode_unfolded {body data : Value}
    (wrapper : WrapperAt crates text name body data hex) :
    transcodeWrapperInner crates text schema true = (do
      let bytes ← decodeHex hex
      match fromUtf8 bytes with
      | none => .error (utf8ErrorText bytes)
      | some inner =>
        if true == ((trimStart inner.toList).head? == some '<') then return text
        else
          let message ← uciFailure (Uci.fromJson crates schema inner)
          let xml ← uciFailure (Uci.toXml crates schema message)
          return crates.jsonPrint
              (.object [(name, recoded body data (encodeHexUpper (utf8 xml)))])) := by
  have named : ¬ (name ≠ Agra.rxElement ∧ name ≠ Agra.txElement) := by
    have known := wrapper.named
    tauto
  obtain ⟨value, member, string⟩ := Option.bind_eq_some_iff.mp wrapper.encoded
  rw [transcodeWrapperInner]
  simp only [wrapper.parsed, Value.asObject, named, if_false, wrapper.held, member, string,
    Option.bind_some, Option.map_some]
  rfl

/-- The payload of a wrapper is converted where it is not XML. -/
theorem transcode_wrapper {body data : Value} (wrapper : WrapperAt crates text name body data hex)
    (run : transcodeWrapperInner crates text schema true = .ok result) :
    ∃ bytes inner, decodeHex hex = .ok bytes ∧ fromUtf8 bytes = some inner ∧
      (Uci.looksLikeXml bytes = true ∧ result = text ∨
        Uci.looksLikeXml bytes = false ∧
        ∃ message xml, Uci.fromJson crates schema inner = .ok message ∧
          Uci.toXml crates schema message = .ok xml ∧
          result = crates.jsonPrint
              (.object [(name, recoded body data (encodeHexUpper (utf8 xml)))])) := by
  rw [transcode_unfolded wrapper] at run
  obtain ⟨bytes, decoded, run⟩ := bind_eq_ok.mp run
  split at run
  · cases run
  · rename_i inner readable
    refine ⟨bytes, inner, decoded, readable, ?_⟩
    rw [looksLikeXml_eq readable]
    cases marked : (trimStart inner.toList).head? == some '<' with
    | true =>
      rw [marked] at run
      exact .inl ⟨rfl, (Except.ok.inj run).symm⟩
    | false =>
      rw [marked] at run
      obtain ⟨message, read, run⟩ := bind_eq_ok.mp run
      obtain ⟨xml, made, run⟩ := bind_eq_ok.mp run
      exact .inr ⟨rfl, message, xml, uciFailure_eq_ok.mp read, uciFailure_eq_ok.mp made,
        (Except.ok.inj run).symm⟩

theorem transcode_wrapper_eq {body data : Value} {bytes : Bytes} {inner : String}
    (wrapper : WrapperAt crates text name body data hex)
    (decoded : decodeHex hex = .ok bytes) (readable : fromUtf8 bytes = some inner)
    (plain : Uci.looksLikeXml bytes = false) (read : Uci.fromJson crates schema inner = .ok message)
    (written : Uci.toXml crates schema message = .ok xml) :
    transcodeWrapperInner crates text schema true =
      .ok (crates.jsonPrint (.object [(name, recoded body data (encodeHexUpper (utf8 xml)))])) := by
  rw [looksLikeXml_eq readable] at plain
  rw [transcode_unfolded wrapper]
  refine bind_eq_ok.mpr ⟨bytes, decoded, ?_⟩
  simp only [readable]
  rw [plain]
  exact bind_eq_ok.mpr ⟨message, uciFailure_eq_ok.mpr read,
    bind_eq_ok.mpr ⟨xml, uciFailure_eq_ok.mpr written, rfl⟩⟩

/-- A wrapper around JSON is printed with its payload converted, and every other
text is left as it is. -/
theorem transcode_cases (run : transcodeWrapperInner crates text schema true = .ok result) :
    (result = text ∧ ¬ CarriesJson crates text) ∨
      ∃ value, Recodes crates schema text value ∧ result = crates.jsonPrint value := by
  by_cases known : ∃ name body data hex, WrapperAt crates text name body data hex
  · obtain ⟨name, body, data, hex, wrapper⟩ := known
    obtain ⟨bytes, inner, decoded, readable,
      ⟨marked, rfl⟩ | ⟨plain, message, xml, read, written, rfl⟩⟩ :=
      transcode_wrapper wrapper run
    · refine .inl ⟨rfl, ?_⟩
      rintro ⟨_, _, _, _, _, same, others, -, unmarked⟩
      obtain ⟨-, -, -, rfl⟩ := wrapper.unique same
      cases decoded.symm.trans others
      simp [marked] at unmarked
    · exact .inr ⟨_, ⟨name, body, data, hex, bytes, inner, message, xml, wrapper, decoded,
        readable, plain, read, written, rfl⟩, rfl⟩
  · refine .inl ⟨transcode_other run known, ?_⟩
    rintro ⟨name, body, data, hex, _, wrapper, -⟩
    exact known ⟨name, body, data, hex, wrapper⟩

theorem Recodes.carriesJson (recodes : Recodes crates schema text value) :
    CarriesJson crates text := by
  obtain ⟨name, body, data, hex, bytes, inner, _, _, wrapper, decoded, readable, plain, -⟩ :=
    recodes
  exact ⟨name, body, data, hex, bytes, wrapper, decoded, by simp [readable], plain⟩

/-- XML is passed on as it is, and JSON is converted. -/
theorem towardXml_cases {envelope result : Envelope}
    (run : towardXml crates envelope schema = .ok result) :
    result.contentType = .xml ∧
      (Uci.looksLikeXml envelope.payload = true ∧ result.payload = envelope.payload ∨
        Uci.looksLikeXml envelope.payload = false ∧ ∃ text plain message xml,
          fromUtf8 envelope.payload = some text ∧
          transcodeWrapperInner crates text schema true = .ok plain ∧
          Uci.fromJson crates schema plain = .ok message ∧
          Uci.toXml crates schema message = .ok xml ∧
          result.payload = utf8 xml) := by
  rw [towardXml] at run
  split at run
  · rename_i marked
    cases run
    exact ⟨rfl, .inl ⟨marked, rfl⟩⟩
  · rename_i plain
    split at run
    · cases run
    · rename_i text readable
      obtain ⟨changed, transcoded, run⟩ := bind_eq_ok.mp run
      obtain ⟨message, read, run⟩ := bind_eq_ok.mp run
      obtain ⟨xml, written, run⟩ := bind_eq_ok.mp run
      cases run
      exact ⟨rfl, .inr ⟨by simpa using plain, text, changed, message, xml, readable, transcoded,
        uciFailure_eq_ok.mp read, uciFailure_eq_ok.mp written, rfl⟩⟩

end Convert

section Frame
variable {crates : Crates} {schema : Uci.Schema} {body data : Value}

theorem mem_of_looksLikeXml {bytes : Bytes} (marked : Uci.looksLikeXml bytes = true) :
    byte '<' ∈ bytes := by
  obtain ⟨text, decoded, head⟩ : ∃ text, fromUtf8 bytes = some text ∧
      ((trimStart text.toList).head? == some '<') = true := by
    rw [Uci.looksLikeXml] at marked
    cases decoded : fromUtf8 bytes with
    | none => simp [decoded] at marked
    | some text => exact ⟨text, rfl, by simpa [decoded] using marked⟩
  have member : '<' ∈ text.toList := by
    have first := List.mem_of_mem_head? (beq_iff_eq.mp head)
    exact (List.dropWhile_sublist _).subset first
  rw [← utf8_of_fromUtf8 decoded]
  exact (byte_mem_encode (by decide) _).mpr member

/-- Hex that decodes to markup is read as it is written. -/
theorem kept_of_markup {bytes : Bytes} (decoded : decodeHex hex = .ok bytes) (member : b ∈ bytes)
    (markup : b = byte '<' ∨ b = byte '{') (primitive : String) :
    Uci.Kept primitive (.string hex) := by
  obtain ⟨c, inside, foreign⟩ := foreign_of_decodeHex decoded member markup
  exact kept_of_foreign foreign inside primitive

theorem recoded_self (sorted : body.Sorted) (held : body.get "MessageData" = some data)
    (encoded : Agra.memberText data "EncodedPayload" = some hex) :
    recoded body data hex = body := by
  obtain ⟨value, found, string⟩ := Option.bind_eq_some_iff.mp encoded
  obtain rfl : value = .string hex := by
    cases value <;> simp_all [Value.asStr]
  obtain ⟨before, after, rfl, -, replaced⟩ := exists_around sorted held
  obtain ⟨ahead, behind, rfl, -, inside⟩ := exists_around (sorted_of_get sorted held) found
  rw [recoded, inside, replaced]

/-- The message of a wrapper with another payload is the message of the wrapper
but for the payload. -/
theorem fromJson_recoded (sorted : body.Sorted) (wrapper : WrapperAt crates text name body data hex)
    (kept : ∀ primitive, Uci.Kept primitive (.string new))
    (reparsed : crates.jsonParse changed = .ok (.object [(name, recoded body data new)]))
    (read : Uci.fromJson crates schema changed = .ok message) :
    ∃ shape simple, Encloses shape ∧ message = ⟨name, shape (.simple (.string new))⟩ ∧
      Uci.fromJson crates schema text = .ok ⟨name, shape (.simple simple)⟩ ∧
      ((∀ primitive, Uci.Kept primitive (.string hex)) → simple = .string hex) := by
  obtain ⟨changed, same, global, node⟩ := Uci.fromJson_inv reparsed read
  obtain ⟨label, body'⟩ := message
  obtain ⟨rfl, rfl⟩ : name = label ∧ recoded body data new = changed := by simpa using same
  obtain ⟨shape, simple, encloses, rfl, here, exact⟩ :=
    readNode_recoded sorted wrapper.held wrapper.encoded kept node
  refine ⟨shape, simple, encloses, rfl, ?_, exact⟩
  rw [@Uci.fromJson_eq _ _ _ body ⟨name, shape (.simple simple)⟩ wrapper.parsed global]
  simp only [Uci.Schema.declaredType] at here ⊢
  rw [here]
  rfl

end Frame

section Halves
variable {crates : Crates} {ids : MessageId × MessageId}

theorem trimStart_of_starts {text : String} (first : Agra.startsWith c text = true)
    (solid : isWhitespace c = false) : trimStart text.toList = text.toList ∧
      text.toList.head? = some c := by
  rw [Agra.startsWith, beq_iff_eq] at first
  obtain ⟨rest, shape⟩ := List.head?_eq_some_iff.mp first
  rw [shape, trimStart, List.dropWhile_cons_of_neg (by simp [solid])]
  exact ⟨rfl, rfl⟩

theorem looksLikeXml_of_starts {text : String} (first : Agra.startsWith c text = true)
    (solid : isWhitespace c = false) : Uci.looksLikeXml (utf8 text) = (c == '<') := by
  obtain ⟨same, head⟩ := trimStart_of_starts first solid
  rw [looksLikeXml_eq (fromUtf8_utf8 text), same, head]
  rfl

theorem trimStartText_of_starts {text : String} (first : Agra.startsWith c text = true)
    (solid : isWhitespace c = false) : Agra.trimStartText text = text := by
  rw [Agra.trimStartText, (trimStart_of_starts first solid).1, String.ofList_toList]

theorem payload_inner (ids : MessageId × MessageId) (topic : String) (wrapper : Bytes)
    (contentType : ContentType) (info : Agra.WrapperMeta) (bytes : Bytes) :
    (Agra.assemble crates ids topic wrapper contentType info bytes).inner.payload = bytes := by
  rw [Agra.assemble]
  exact (Agra.innerEnvelope_spec _ _ _ _ _ _).2.1

theorem payload_wrapper (ids : MessageId × MessageId) (topic : String) (wrapper : Bytes)
    (contentType : ContentType) (info : Agra.WrapperMeta) (bytes : Bytes) :
    (Agra.assemble crates ids topic wrapper contentType info bytes).wrapper.payload = wrapper := rfl

/-- A wrapper that was turned inside out, and what it holds. -/
theorem unwrap_cases (run : Agra.unwrap crates ids topic (utf8 payload) = .ok halves) :
    halves.wrapper.payload = utf8 (trimText payload) ∧
      (Uci.looksLikeXml (utf8 (trimText payload)) = true ∧
          (∃ root hex, Agra.parseChecked (fun text => (crates.xmlParse text).toOption)
            (trimText payload) = some root ∧ Agra.localText root "EncodedPayload" = some hex ∧
              decodeHex (trimText hex) = .ok halves.inner.payload) ∨
        Uci.looksLikeXml (utf8 (trimText payload)) = false ∧
          ∃ name body data hex, WrapperAt crates (trimText payload) name body data hex ∧
            decodeHex hex = .ok halves.inner.payload) := by
  rw [Agra.unwrap, fromUtf8_utf8] at run
  simp only at run
  split at run
  · rename_i braced
    obtain ⟨name, body, kind, data, messageType, hex, bytes, parsed, named, held, -,
      encoded, decoded, rfl⟩ :=
      Agra.unwrapJson_eq_ok.mp run
    have plain := looksLikeXml_of_starts braced (by decide)
    have known : name = Agra.rxElement ∨ name = Agra.txElement := by
      rw [Agra.elementName_of_fromElement named]
      cases kind with
      | rx => exact .inl rfl
      | tx => exact .inr rfl
    refine ⟨payload_wrapper _ _ _ _ _ _,
      .inr ⟨plain.trans (by decide), name, body, data, hex, ⟨parsed, known, held, encoded⟩, ?_⟩⟩
    rw [payload_inner]
    exact decodeHex_of_agra decoded
  · split at run
    · rename_i marked
      obtain ⟨root, kind, messageType, hex, bytes, parsed, -, -, encoded, decoded, rfl⟩ :=
        Agra.unwrapXml_eq_ok.mp run
      have markup := looksLikeXml_of_starts marked (by decide)
      refine ⟨payload_wrapper _ _ _ _ _ _,
        .inl ⟨markup.trans (by decide), root, hex, parsed, encoded, ?_⟩⟩
      rw [payload_inner]
      exact decodeHex_of_agra decoded
    · cases run

end Halves

end OaGateway.Owp
