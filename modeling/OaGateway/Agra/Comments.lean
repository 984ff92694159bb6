import OaGateway.Agra.Wrapper
import OaGateway.Lib.Printed
import OaGateway.Lib.Xml.Padding
import OaGateway.Uci.Comments

/-! Unwrapping two documents that differ only by comments and processing
instructions, and both readers of the gateway together. -/
namespace OaGateway.Agra

open Lib OaGateway.Core

/-- What `unwrap` is asked for: the wrapper's fields, and route and payload of
the message inside. -/
def Unwrapped.outcome (unwrapped : Unwrapped) : WrapperMeta × RouteKey × Bytes :=
  (unwrapped.info, unwrapped.inner.route, unwrapped.inner.payload)

/-- The texts `unwrap` takes from a wrapper document. -/
structure WrapperTexts where
  messageType : Option String
  encodedPayload : Option String
  originator : Option String
  rxPayloadId : Option String
  commandId : Option String
  routing : Option String
deriving DecidableEq

def wrapperTexts (root : Xml.Node) : WrapperTexts where
  messageType := localText root "MessageType"
  encodedPayload := localText root "EncodedPayload"
  originator := nestedUuid root "DataPayloadOriginatorID"
  rxPayloadId := nestedUuid root "RxDataPayloadID"
  commandId := nestedUuid root "CommandID"
  routing := localText root "DestinationRouting"

namespace WrapperTexts

/-- What the payload's text decodes to. -/
def decoded (texts : WrapperTexts) : Option (Except AgraError Bytes) :=
  texts.encodedPayload.map fun text => decodeHex (trimText text)

/-- The metadata these texts give. -/
def info (texts : WrapperTexts) (kind : WrapperKind) (messageType : String) : WrapperMeta where
  kind
  messageTypeEnum := messageType
  originatorUuid := texts.originator
  rxPayloadId := texts.rxPayloadId
  commandId := texts.commandId
  destinationRouting := texts.routing

/-- As far as a wrapper gets with its texts: a missing message type or payload,
a payload that does not decode, or all of them. -/
def Agree (first second : WrapperTexts) : Prop :=
  first.messageType.isSome = second.messageType.isSome ∧
    (first.messageType.isSome = true → first.decoded = second.decoded ∧
      ∀ bytes, first.decoded = some (.ok bytes) → first.messageType = second.messageType ∧
        first.originator = second.originator ∧ first.rxPayloadId = second.rxPayloadId ∧
        first.commandId = second.commandId ∧ first.routing = second.routing)

/-- The outcome as a function of the texts. -/
def outcome (crates : Crates) (topic : String) (kind : WrapperKind) (texts : WrapperTexts) :
    Except AgraError (WrapperMeta × RouteKey × Bytes) :=
  match texts.messageType with
  | none => .error (.missingField "MessageType")
  | some messageType =>
    match texts.decoded with
    | none => .error (.missingField "EncodedPayload")
    | some (.error error) => .error error
    | some (.ok bytes) =>
      .ok (texts.info kind messageType, .typed topic (typeHintFromInner crates bytes messageType),
        bytes)

end WrapperTexts

/-- Decoding refuses digits or a size, and nothing else. -/
def IsHexError (error : AgraError) : Prop :=
  error = .payloadTooLarge ∨ ∃ message, error = .badHex message

theorem isHexError_decodeLoop {bytes : Bytes} {high : Option UInt8} {out : Bytes}
    (failed : decodeLoop bytes high out = .error error) : IsHexError error := by
  induction bytes generalizing high out with
  | nil =>
    cases high with
    | none => cases failed
    | some half =>
      cases failed
      exact .inr ⟨_, rfl⟩
  | cons b rest ih =>
    rw [decodeLoop] at failed
    split at failed
    · exact ih failed
    · split at failed
      · cases failed
        exact .inr ⟨_, rfl⟩
      · split at failed
        · exact ih failed
        · exact ih failed

theorem isHexError_decodeHex {text : String} (failed : decodeHex text = .error error) :
    IsHexError error := by
  rw [decodeHex] at failed
  split at failed
  · cases failed
    exact .inl rfl
  · exact isHexError_decodeLoop failed

theorem IsHexError.ne_missingField (refused : IsHexError error) (field : String) :
    error ≠ .missingField field := by
  rcases refused with rfl | ⟨message, rfl⟩ <;> simp

theorem IsHexError.ne_notAWrapper (refused : IsHexError error) : error ≠ .notAWrapper := by
  rcases refused with rfl | ⟨message, rfl⟩ <;> simp

namespace WrapperTexts

theorem isHexError_decoded {texts : WrapperTexts} (failed : texts.decoded = some (.error error)) :
    IsHexError error := by
  obtain ⟨text, -, refused⟩ := Option.map_eq_some_iff.mp failed
  exact isHexError_decodeHex refused

theorem outcome_ne_notAWrapper (crates : Crates) (topic : String) (kind : WrapperKind)
    (texts : WrapperTexts) :
    texts.outcome crates topic kind ≠ .error .notAWrapper := by
  rw [outcome]
  split
  · simp
  · split
    · simp
    · rename_i error failed
      simpa using (isHexError_decoded failed).ne_notAWrapper
    · simp

/-- Two wrappers of one kind come out the same exactly when their texts agree
as far as they are read. -/
theorem outcome_eq_iff (crates : Crates) (topic : String) (kind : WrapperKind)
    (first second : WrapperTexts) :
    first.outcome crates topic kind = second.outcome crates topic kind ↔ first.Agree second := by
  have refused {texts : WrapperTexts} {error : AgraError} {field : String}
      (failed : texts.decoded = some (.error error)) : error ≠ .missingField field :=
    (isHexError_decoded failed).ne_missingField field
  rw [Agree, outcome, outcome]
  cases one : first.messageType with
  | none =>
    cases two : second.messageType with
    | none => simp
    | some messageType =>
      rcases read : second.decoded with _ | error | bytes
      · simp
      · simpa using (refused read).symm
      · simp
  | some messageType =>
    cases two : second.messageType with
    | none =>
      rcases read : first.decoded with _ | error | bytes
      · simp
      · simpa using refused read
      · simp
    | some other =>
      rcases read : first.decoded with _ | error | bytes <;>
        rcases replied : second.decoded with _ | refusal | reply
      · simp
      · simpa using (refused replied).symm
      · simp
      · simpa using refused read
      · simp
      · simp
      · simp
      · simp
      · simp only [Except.ok.injEq, Prod.mk.injEq, Option.some.injEq, Option.isSome_some,
          true_and, forall_const, forall_eq']
        constructor
        · rintro ⟨sameInfo, -, rfl⟩
          simp only [info, WrapperMeta.mk.injEq, true_and] at sameInfo
          exact ⟨rfl, sameInfo⟩
        · rintro ⟨rfl, rfl, originator, rxPayloadId, commandId, routing⟩
          simp [info, originator, rxPayloadId, commandId, routing]

end WrapperTexts

section Unwrap
variable {crates : Crates} {topic : String}

@[simp] theorem route_withOptional (envelope : Envelope) (key : String) (value : Option String) :
    (withOptional envelope key value).route = envelope.route := by
  cases value <;> rfl

@[simp] theorem payload_withOptional (envelope : Envelope) (key : String) (value : Option String) :
    (withOptional envelope key value).payload = envelope.payload := by
  cases value <;> rfl

theorem outcome_assemble (ids : MessageId × MessageId) (wrapper : Bytes) (contentType : ContentType)
    (info : WrapperMeta) (bytes : Bytes) :
    (assemble crates ids topic wrapper contentType info bytes).outcome =
      (info, .typed topic (typeHintFromInner crates bytes info.messageTypeEnum), bytes) := by
  simp [Unwrapped.outcome, assemble, innerEnvelope, Envelope.withHeader, Envelope.withContentType,
    Envelope.new]

/-- The kind of wrapper a text is opened as, given its tree. -/
def openedAs (text : String) (root : Xml.Node) : Option WrapperKind :=
  if nestingExceeds text maxWrapperDepth then none else WrapperKind.fromElement root.localName

theorem unwrapXml_outcome (ids : MessageId × MessageId) {text : String} {root : Xml.Node}
    (parsed : crates.xmlParse text = .ok root) :
    (unwrapXml crates ids topic text).map Unwrapped.outcome =
      match openedAs text root with
      | none => .error .notAWrapper
      | some kind => (wrapperTexts root).outcome crates topic kind := by
  have found : (crates.xmlParse text).toOption = some root := by rw [parsed]; rfl
  rw [unwrapXml, parseChecked, openedAs]
  cases nestingExceeds text maxWrapperDepth with
  | true => rfl
  | false =>
    simp only [Bool.false_eq_true, ↓reduceIte, found]
    cases WrapperKind.fromElement root.localName with
    | none => rfl
    | some kind =>
      simp only [WrapperTexts.outcome, WrapperTexts.decoded, wrapperTexts]
      cases localText root "MessageType" with
      | none => rfl
      | some messageType =>
        cases localText root "EncodedPayload" with
        | none => rfl
        | some hexPayload =>
          simp only [required, Option.map_some, bind, Except.bind]
          cases decodeHex (trimText hexPayload) with
          | error error => rfl
          | ok bytes =>
            simp only [pure, Except.pure, Except.map, outcome_assemble]
            rfl

end Unwrap

section Trim

theorem head_trim_markup {space rest : List Char} (blank : ∀ c ∈ space, isWhitespace c = true) :
    (trim (space ++ '<' :: rest)).head? = some '<' := by
  rw [head_trim, trimStart, List.dropWhile_append_of_pos blank]
  rfl

theorem head_trim_document {document : Xml.Document} (valid : document.valid = true) :
    (trimText (.ofList document.render)).toList.head? = some '<' := by
  obtain ⟨space, rest, starts, blank⟩ := document.exists_markup valid
  have head := @head_trim_markup space rest fun c member =>
    Xml.isWhitespace_of_isSpace (blank c member)
  simpa [trimText, starts] using head

/-- A document is unwrapped as XML. -/
theorem unwrap_document (crates : Crates) (ids : MessageId × MessageId) (topic : String)
    {document : Xml.Document} (valid : document.valid = true) :
    unwrap crates ids topic (utf8 (.ofList document.render)) =
      unwrapXml crates ids topic (trimText (.ofList document.render)) := by
  have head := head_trim_document valid
  simp [unwrap, fromUtf8_utf8, startsWith, head]

end Trim

/-- The parser makes of a document its tree, with white space around it or not. -/
structure Parses (crates : Crates) (document : Xml.Document) : Prop where
  whole : crates.xmlParse (.ofList document.render) = .ok document.tree
  trimmed : crates.xmlParse (trimText (.ofList document.render)) = .ok document.tree

/-- Both documents pass the guard as the same kind of wrapper, with texts that
agree, or neither does. -/
def WrappersAgree (first second : Xml.Document) : Prop :=
  openedAs (trimText (.ofList first.render)) first.tree =
      openedAs (trimText (.ofList second.render)) second.tree ∧
    (openedAs (trimText (.ofList first.render)) first.tree ≠ none →
      (wrapperTexts first.tree).Agree (wrapperTexts second.tree))

theorem unwrap_eq_iff {crates : Crates} {ids other : MessageId × MessageId} {topic : String}
    {first second : Xml.Document} (valid : first.valid = true) (validOther : second.valid = true)
    (same : first.SameMarkup second) (parsed : Parses crates first)
    (parsedOther : Parses crates second) :
    (unwrap crates ids topic (utf8 (.ofList first.render))).map Unwrapped.outcome =
        (unwrap crates other topic (utf8 (.ofList second.render))).map Unwrapped.outcome ↔
      WrappersAgree first second := by
  have rooted : first.root.isRoot = true ∧ second.root.isRoot = true := by
    simp only [Xml.Document.valid, Bool.and_eq_true] at valid validOther
    exact ⟨valid.1.1.1.2, validOther.1.1.1.2⟩
  have named := Uci.localName_eq (same.skeleton_eq rooted.1 rooted.2)
  rw [unwrap_document crates ids topic valid, unwrap_document crates other topic validOther,
    unwrapXml_outcome ids parsed.trimmed, unwrapXml_outcome other parsedOther.trimmed,
      WrappersAgree]
  have kinds {one two : WrapperKind}
      (opened : openedAs (trimText (.ofList first.render)) first.tree = some one)
      (openedOther : openedAs (trimText (.ofList second.render)) second.tree = some two) :
          one = two := by
    simp only [openedAs, ← named] at opened openedOther
    split at opened
    · cases opened
    · split at openedOther
      · cases openedOther
      · exact Option.some.inj (opened.symm.trans openedOther)
  cases opened : openedAs (trimText (.ofList first.render)) first.tree with
  | none =>
    cases openedOther : openedAs (trimText (.ofList second.render)) second.tree with
    | none => simp
    | some two => simpa using (WrapperTexts.outcome_ne_notAWrapper crates topic two _).symm
  | some one =>
    cases openedOther : openedAs (trimText (.ofList second.render)) second.tree with
    | none => simpa using WrapperTexts.outcome_ne_notAWrapper crates topic one _
    | some two =>
      cases kinds opened openedOther
      simp [WrapperTexts.outcome_eq_iff]

/-- Comments and processing instructions are without meaning exactly where the
texts they may cut short are not the ones read: each leaf's text in front of the
first of them reads as the whole would, and so do a wrapper's fields. -/
theorem readers_agree_iff {crates : Crates} {schema : Uci.Schema}
    {ids other : MessageId × MessageId} {topic : String} {first second : Xml.Document}
    (valid : first.valid = true) (validOther : second.valid = true) (same : first.SameMarkup second)
    (parsed : Parses crates first) (parsedOther : Parses crates second) :
    (Uci.fromXml crates schema (.ofList first.render) =
      Uci.fromXml crates schema (.ofList second.render) ∧
        (unwrap crates ids topic (utf8 (.ofList first.render))).map Unwrapped.outcome =
        (unwrap crates other topic (utf8 (.ofList second.render))).map Unwrapped.outcome) ↔
      Uci.LeavesAgree schema first second ∧ WrappersAgree first second :=
  and_congr (Uci.fromXml_eq_iff valid validOther same parsed.whole parsedOther.whole)
    (unwrap_eq_iff valid validOther same parsed parsedOther)

section Samples

/-- `<Count>…</Count>` -/
def countDocument (inner : Xml.Content) : Xml.Document where
  declaration := none
  prolog := .nil
  root := .element ⟨['C', 'o', 'u', 'n', 't'], [], []⟩ inner [] .nil
  epilog := .nil

/-- `<Count>42</Count>` -/
def plainCount : Xml.Document := countDocument (.text [.char '4', .char '2'] .nil)

/-- `<Count>42<!-- c --></Count>` -/
def remarkedCount : Xml.Document :=
  countDocument (.text [.char '4', .char '2'] (.comment [' ', 'c', ' '] .nil))

/-- `<Count>4<!-- c -->2</Count>` -/
def splitCount : Xml.Document :=
  countDocument (.text [.char '4'] (.comment [' ', 'c', ' '] (.text [.char '2'] .nil)))

/-- A parser that knows the samples. -/
def countCrates : Crates where
  jsonParse _ := .error "expected value"
  jsonPrint _ := ""
  floatPrint _ := ""
  floatDisplay _ := ""
  xmlParse text :=
    if text = .ofList plainCount.render then .ok plainCount.tree
    else if text = .ofList remarkedCount.render then .ok remarkedCount.tree
    else if text = .ofList splitCount.render then .ok splitCount.tree
    else .error "unknown token"
  regex _ := none
  hexUpper := upperHex

/-- One global element that holds a number. -/
def countSchema : Uci.Schema := ⟨Finmap.insert "Count" "xs:int" ∅, ∅, ∅⟩

theorem parses_plainCount : Parses countCrates plainCount := ⟨rfl, rfl⟩

theorem parses_remarkedCount : Parses countCrates remarkedCount := ⟨rfl, rfl⟩

theorem parses_splitCount : Parses countCrates splitCount := ⟨rfl, rfl⟩

/-- A comment inside a number cuts it short. -/
theorem fromXml_splitCount :
    splitCount.valid = true ∧ plainCount.valid = true ∧ splitCount.SameMarkup plainCount ∧
    Parses countCrates splitCount ∧ Parses countCrates plainCount ∧
    Uci.fromXml countCrates countSchema "<Count>4<!-- c -->2</Count>" =
      .ok ⟨"Count", .simple (.number (.posInt 4))⟩ ∧
    Uci.fromXml countCrates countSchema "<Count>42</Count>" =
      .ok ⟨"Count", .simple (.number (.posInt 42))⟩ ∧
    Uci.fromXml countCrates countSchema (.ofList splitCount.render) ≠
      Uci.fromXml countCrates countSchema (.ofList plainCount.render) := by
  have cut : Uci.fromXml countCrates countSchema "<Count>4<!-- c -->2</Count>" =
      .ok ⟨"Count", .simple (.number (.posInt 4))⟩ := by rfl
  have whole : Uci.fromXml countCrates countSchema "<Count>42</Count>" =
      .ok ⟨"Count", .simple (.number (.posInt 42))⟩ := by rfl
  refine ⟨by decide, by decide, by decide, parses_splitCount, parses_plainCount, cut, whole, ?_⟩
  have written : String.ofList splitCount.render = "<Count>4<!-- c -->2</Count>" := by decide
  have writtenWhole : String.ofList plainCount.render = "<Count>42</Count>" := by decide
  rw [written, writtenWhole, cut, whole]
  simp

/-- A comment after the number changes nothing. -/
theorem readers_agree_remarkedCount :
    Uci.fromXml countCrates countSchema (.ofList remarkedCount.render) =
        Uci.fromXml countCrates countSchema (.ofList plainCount.render) ∧
      (unwrap countCrates (⟨"1"⟩, ⟨"2"⟩) "offboard" (utf8 (.ofList remarkedCount.render))).map
          Unwrapped.outcome =
        (unwrap countCrates (⟨"3"⟩, ⟨"4"⟩) "offboard" (utf8 (.ofList plainCount.render))).map
          Unwrapped.outcome := by
  refine (readers_agree_iff (by decide) (by decide) (by decide) parses_remarkedCount
    parses_plainCount).mpr
    ⟨?_, ?_⟩
  · intro _ declared known _
    have simple : declared = "xs:int" := Option.some.inj (known.symm.trans rfl)
    subst simple
    rfl
  · have opened : openedAs (trimText (.ofList remarkedCount.render)) remarkedCount.tree =
      none := by decide
    have openedOther : openedAs (trimText (.ofList plainCount.render)) plainCount.tree =
      none := by decide
    rw [WrappersAgree, opened, openedOther]
    simp

end Samples

end OaGateway.Agra
