import OaGateway.Agra.Unwrap
import OaGateway.RejectMode

/-! The two halves of a sample under reject mode. Each is checked by itself, so
the sample stays whole where the schema treats them alike. -/
namespace OaGateway.Dds

open Lib Lib.Json OaGateway.Core

/-- The schema declares the element of the wrapper, reads the sample's fields as
one, and does not permit it. -/
def WrapperDeparts (crates : Crates) (schema : Uci.Schema) (sample : DdsSample) : Prop :=
  ∃ declared node, schema.globalType sample.info.kind.elementName = some declared ∧
    Uci.readNode crates schema (Uci.maxDepth + 1)
      (.object [("MessageData", Agra.partsData sample.info (crates.hexUpper sample.encoded))])
        declared
      sample.info.kind.elementName = .ok node ∧
    Uci.validate crates schema ⟨sample.info.kind.elementName, node⟩ ≠ []

section
variable (crates : Crates) (adapter : DdsAdapter) (ids : MessageId × MessageId) (topic : String)
  (sample : DdsSample)

/-- What one sample is published as. A failed `inbound_publish` has published nothing. -/
def published : List Envelope := (inboundPublish crates adapter ids topic sample).toOption.getD []

/-- Both halves of a sample. -/
def halves : Envelope × Envelope :=
  let peeled := Agra.assemble crates ids topic
    (utf8 (Agra.minimalWrapperJson crates sample.info sample.encoded)) .json sample.info
      sample.encoded
  (peeled.wrapper.withOrigin adapter.id, peeled.inner.withOrigin adapter.id)

/-- A sample is published with both its halves or not at all. -/
def Whole : Prop :=
  published crates adapter ids topic sample = [] ∨
    published crates adapter ids topic sample =
      [(halves crates adapter ids topic sample).1, (halves crates adapter ids topic sample).2]

end

section
variable {crates : Crates} {adapter : DdsAdapter} {ids : MessageId × MessageId} {topic : String}
  {sample : DdsSample} {schema : Uci.Schema}

theorem halves_payload :
    (halves crates adapter ids topic sample).1.payload =
        utf8 (crates.jsonPrint (Agra.partsValue sample.info (crates.hexUpper sample.encoded))) ∧
      (halves crates adapter ids topic sample).2.payload = sample.encoded := by
  simp [halves, Agra.assemble, Agra.innerEnvelope_spec, Envelope.withOrigin, Envelope.withHeader,
    Envelope.withContentType, Envelope.new, Agra.minimalWrapperJson_eq]

/-- A sample within both limits is offered half by half. -/
theorem published_eq (peels : adapter.config.unwrapMaPayloads = true)
    (fits : sample.encoded.length ≤ adapter.config.maxSampleSize)
    (decodes : sample.encoded.length ≤ Agra.maxDecodedPayload) :
    published crates adapter ids topic sample =
      (publishChecked crates adapter (halves crates adapter ids topic sample).1).toList ++
        (publishChecked crates adapter (halves crates adapter ids topic sample).2).toList := by
  simp only [published, inboundPublish, Agra.unwrappedFromParts, Nat.not_lt.mpr fits,
    Nat.not_lt.mpr decodes, peels, ↓reduceIte, halves]
  rfl

theorem published_oversized (peels : adapter.config.unwrapMaPayloads = true)
    (large : ¬ (sample.encoded.length ≤ adapter.config.maxSampleSize ∧
      sample.encoded.length ≤ Agra.maxDecodedPayload)) :
    published crates adapter ids topic sample = [] := by
  rw [published, inboundPublish]
  split
  · rfl
  · rename_i fits
    have beyond : sample.encoded.length > Agra.maxDecodedPayload :=
      Nat.not_le.mp fun decodes => large ⟨Nat.not_lt.mp fits, decodes⟩
    have refused : Agra.unwrappedFromParts crates ids topic sample.info sample.encoded =
        .error .payloadTooLarge := if_pos beyond
    rw [refused]
    rfl

theorem publishChecked_strict (strict : adapter.config.validate = .reject)
    (loaded : adapter.config.schema = some schema) (envelope : Envelope) :
    (Uci.Departs crates schema envelope.payload → publishChecked crates adapter envelope = none) ∧
      (¬ Uci.Departs crates schema envelope.payload →
          publishChecked crates adapter envelope = some envelope) := by
  simp only [publishChecked, violationsOf, strict, loaded, and_true, ← Uci.quiet_iff_not_departs]
  refine ⟨fun departs => if_pos ?_, fun quiet => if_neg (not_not.mpr quiet)⟩
  exact fun quiet => Uci.quiet_iff_not_departs.mp quiet departs

theorem publishChecked_unloaded (unloaded : adapter.config.schema = none) (envelope : Envelope) :
    publishChecked crates adapter envelope = some envelope := by
  have quiet : violationsOf crates envelope.payload none adapter.config.validate = [] := by
    rw [violationsOf, Uci.payloadViolations]
    split <;> rfl
  rw [publishChecked, unloaded, quiet]
  simp

/-- A text departs when what its reader finds is not permitted. -/
theorem departs_text_iff {text : String} :
    Uci.Departs crates schema (utf8 text) ↔
      ∃ message, Uci.readText crates schema text = .ok message ∧
          Uci.validate crates schema message ≠ [] := by
  simp only [Uci.Departs, Uci.Accepted, Uci.Valid, fromUtf8_utf8, Option.some.injEq,
    exists_and_left, exists_eq_left', not_exists, not_and]
  constructor
  · rintro ⟨⟨message, read⟩, invalid⟩
    exact ⟨message, read, invalid message read⟩
  · rintro ⟨message, read, broken⟩
    refine ⟨⟨message, read⟩, fun other found => ?_⟩
    obtain rfl : message = other := Except.ok.inj (read.symm.trans found)
    exact broken

/-- The printed wrapper goes to the JSON reader, which finds the sample's fields. -/
theorem departs_wrapper_iff
    (braced : Agra.startsWith '{'
      (crates.jsonPrint (Agra.partsValue sample.info (crates.hexUpper sample.encoded))) = true)
    (written : crates.jsonParse
      (crates.jsonPrint (Agra.partsValue sample.info (crates.hexUpper sample.encoded))) =
        .ok (Agra.partsValue sample.info (crates.hexUpper sample.encoded))) :
    Uci.Departs crates schema
      (utf8 (crates.jsonPrint (Agra.partsValue sample.info (crates.hexUpper sample.encoded)))) ↔
      WrapperDeparts crates schema sample := by
  have json :
      Uci.looksLikeXml
      (utf8 (crates.jsonPrint (Agra.partsValue sample.info (crates.hexUpper sample.encoded)))) =
      false := by
    have first :
        (crates.jsonPrint (Agra.partsValue sample.info
        (crates.hexUpper sample.encoded))).toList.head? = some '{' := by
      simpa [Agra.startsWith] using braced
    obtain ⟨rest, spelled⟩ := List.head?_eq_some_iff.mp first
    have kept : trimStart ('{' :: rest) = '{' :: rest := rfl
    simp [Uci.looksLikeXml, fromUtf8_utf8, spelled, kept]
  rw [departs_text_iff, Uci.readText, json, if_neg Bool.false_ne_true, Uci.fromJson, written,
    WrapperDeparts]
  simp only [Agra.partsValue, Value.asObject]
  cases schema.globalType sample.info.kind.elementName with
  | none => simp
  | some declared =>
    simp only [Option.some.injEq, exists_and_left, exists_eq_left']
    cases Uci.readNode crates schema (Uci.maxDepth + 1)
      (.object [("MessageData", Agra.partsData sample.info (crates.hexUpper sample.encoded))])
        declared
      sample.info.kind.elementName <;> simp

/-- Under reject mode a sample is published whole exactly when it is over a
limit, no schema is loaded, or the schema refuses both its halves or neither. -/
theorem whole_iff (strict : adapter.config.validate = .reject)
    (peels : adapter.config.unwrapMaPayloads = true)
    (braced : Agra.startsWith '{'
      (crates.jsonPrint (Agra.partsValue sample.info (crates.hexUpper sample.encoded))) = true)
    (written : crates.jsonParse
      (crates.jsonPrint (Agra.partsValue sample.info (crates.hexUpper sample.encoded))) =
        .ok (Agra.partsValue sample.info (crates.hexUpper sample.encoded))) :
    Whole crates adapter ids topic sample ↔
      (sample.encoded.length ≤ adapter.config.maxSampleSize ∧
        sample.encoded.length ≤ Agra.maxDecodedPayload →
        ∀ schema, adapter.config.schema = some schema →
          (WrapperDeparts crates schema sample ↔ Uci.Departs crates schema sample.encoded)) := by
  by_cases fits : sample.encoded.length ≤ adapter.config.maxSampleSize ∧
      sample.encoded.length ≤ Agra.maxDecodedPayload
  · have offered := @published_eq crates adapter ids topic sample peels fits.1 fits.2
    rw [Whole, offered]
    cases loaded : adapter.config.schema with
    | none => simp [@publishChecked_unloaded crates adapter loaded]
    | some schema =>
      obtain ⟨wrapped, inner⟩ := @halves_payload crates adapter ids topic sample
      have outer := @publishChecked_strict crates adapter schema strict loaded
        (halves crates adapter ids topic sample).1
      have within := @publishChecked_strict crates adapter schema strict loaded
        (halves crates adapter ids topic sample).2
      rw [wrapped, departs_wrapper_iff braced written] at outer
      rw [inner] at within
      simp only [fits, and_self, forall_const, Option.some.injEq, forall_eq']
      by_cases refused : WrapperDeparts crates schema sample
      · by_cases departs : Uci.Departs crates schema sample.encoded
        · simp [outer.1 refused, within.1 departs, refused, departs]
        · simp [outer.1 refused, within.2 departs, refused, departs]
      · by_cases departs : Uci.Departs crates schema sample.encoded
        · simp [outer.2 refused, within.1 departs, refused, departs]
        · simp [outer.2 refused, within.2 departs, refused, departs]
  · rw [Whole, published_oversized peels fits]
    simp [fits]

end

section Samples

/-- A count, which the schema wants to be a number. -/
def countText (count : String) : String := "\x7b\"Count\":" ++ count ++ "\x7d"

/-- A sample that carries a count under the type it is listed by. -/
def countSample (count : String) : DdsSample :=
  ⟨⟨.rx, "COUNT", none, none, none, none⟩, utf8 (countText count)⟩

def wrappedText (hex : String) : String :=
  "\x7b\"MA_RxDataPayload\":\x7b\"MessageData\":\x7b\"EncodedPayload\":\"" ++ hex ++
    "\",\"MessageType\":\"COUNT\"\x7d\x7d\x7d"

def goodText : String := wrappedText "7B22436F756E74223A347D"

def badText : String := wrappedText "7B22436F756E74223A2278227D"

/-- A JSON crate for the two samples below. -/
def countCrates : Crates where
  jsonParse text :=
    if text = countText "4" then .ok (.object [("Count", .number (.posInt 4))])
    else if text = countText "\"x\"" then .ok (.object [("Count", .string "x")])
    else if text = goodText then .ok
      (Agra.partsValue (countSample "4").info (upperHex (countSample "4").encoded))
    else if text = badText then .ok
      (Agra.partsValue (countSample "\"x\"").info (upperHex (countSample "\"x\"").encoded))
    else .error "expected value"
  jsonPrint
    | .object [(_, .object [(_, .object [(_, .string hex), _])])] => wrappedText hex
    | _ => ""
  floatPrint _ := ""
  floatDisplay _ := ""
  xmlParse _ := .error "unknown token"
  regex _ := none
  hexUpper := upperHex

theorem prints_good :
    countCrates.jsonPrint (Agra.partsValue (countSample "4").info
      (countCrates.hexUpper (countSample "4").encoded)) = goodText := by
  decide

theorem prints_bad :
    countCrates.jsonPrint (Agra.partsValue (countSample "\"x\"").info
      (countCrates.hexUpper (countSample "\"x\"").encoded)) = badText := by
  decide

theorem readText_good :
    Uci.readText countCrates counterSchema (countText "4") =
      .ok ⟨"Count", .simple (.number (.posInt 4))⟩ := by
  rfl

theorem readText_bad :
    Uci.readText countCrates counterSchema (countText "\"x\"") =
      .ok ⟨"Count", .simple (.string "x")⟩ := by
  rfl

theorem departs_bad : Uci.Departs countCrates counterSchema (countSample "\"x\"").encoded :=
  departs_text_iff.mpr ⟨_, readText_bad, by decide⟩

theorem not_departs_good : ¬ Uci.Departs countCrates counterSchema (countSample "4").encoded := by
  rw [countSample, departs_text_iff]
  rintro ⟨message, read, broken⟩
  cases Except.ok.inj (readText_good.symm.trans read)
  exact broken (by decide)

/-- The schema of one counter declares no wrapper. -/
theorem not_wrapperDeparts (count : String) :
    ¬ WrapperDeparts countCrates counterSchema (countSample count) := by
  rintro ⟨declared, node, found, -⟩
  cases (show counterSchema.globalType (countSample count).info.kind.elementName =
    none from rfl).symm.trans found

theorem whole_iff_good :
    Whole countCrates strictAdapter (⟨"1"⟩, ⟨"2"⟩) "demo" (countSample "4") := by
  refine (whole_iff rfl rfl ?_ ?_).mpr fun _ schema loaded => ?_
  · rw [prints_good]
    decide
  · rw [prints_good]
    rfl
  · cases loaded
    exact iff_of_false (not_wrapperDeparts "4") not_departs_good

/-- A count that is no number is refused, and its wrapper is published alone. -/
theorem half_published :
    published countCrates strictAdapter (⟨"1"⟩, ⟨"2"⟩) "demo" (countSample "\"x\"") =
        [(halves countCrates strictAdapter (⟨"1"⟩, ⟨"2"⟩) "demo" (countSample "\"x\"")).1] ∧
      ¬ Whole countCrates strictAdapter (⟨"1"⟩, ⟨"2"⟩) "demo" (countSample "\"x\"") := by
  have small : (countSample "\"x\"").encoded.length = 13 := by decide
  have offered := @published_eq countCrates strictAdapter (⟨"1"⟩, ⟨"2"⟩) "demo"
    (countSample "\"x\"") rfl
    (by rw [small]; decide) (by rw [small]; decide)
  obtain ⟨wrapped, inner⟩ := @halves_payload countCrates strictAdapter (⟨"1"⟩, ⟨"2"⟩) "demo"
    (countSample "\"x\"")
  have outer := (@publishChecked_strict countCrates strictAdapter counterSchema rfl rfl
    (halves countCrates strictAdapter (⟨"1"⟩, ⟨"2"⟩) "demo" (countSample "\"x\"")).1).2
  have within := (@publishChecked_strict countCrates strictAdapter counterSchema rfl rfl
    (halves countCrates strictAdapter (⟨"1"⟩, ⟨"2"⟩) "demo" (countSample "\"x\"")).2).1
  rw [wrapped, departs_wrapper_iff (by rw [prints_bad]; decide) (by rw [prints_bad]; rfl)] at outer
  rw [inner] at within
  rw [outer (not_wrapperDeparts _), within departs_bad] at offered
  refine ⟨offered, ?_⟩
  rw [Whole, offered]
  simp

end Samples

end OaGateway.Dds
