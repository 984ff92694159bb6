import OaGateway.Agra.Padding

/-! What is detected as a wrapper and what can be turned inside out. -/
namespace OaGateway.Agra

open Lib Lib.Json OaGateway.Core

/-- The root an unwrap recognises, with what it reads of the wrapper. -/
inductive Root where
  | json (kind : WrapperKind) (body : Value)
  | xml (kind : WrapperKind) (root : Xml.Node)

def Root.kind : Root → WrapperKind
  | json kind _ | xml kind _ => kind

/-- The failures of an unwrap that has a root: on what the wrapper holds. -/
def AgraError.PastRoot : AgraError → Prop
  | missingField _ | badHex _ | payloadTooLarge => True
  | notAWrapper | json _ => False

section
variable (crates : Crates)

def recogniseJson (text : String) : Except AgraError Root :=
  match crates.jsonParse text with
  | .error message => .error (.json message)
  | .ok root =>
    match root.asObject with
    | none => .error (.json "root must be an object")
    | some [(name, body)] =>
      match WrapperKind.fromElement name with
      | none => .error .notAWrapper
      | some kind => .ok (.json kind body)
    | some _ => .error .notAWrapper

def recogniseXml (text : String) : Except AgraError Root :=
  match parseChecked (fun text => (crates.xmlParse text).toOption) text with
  | none => .error .notAWrapper
  | some root =>
    match WrapperKind.fromElement root.localName with
    | none => .error .notAWrapper
    | some kind => .ok (.xml kind root)

/-- An unwrap up to the kind of wrapper it is about. -/
def recognise (payload : Bytes) : Except AgraError (String × Root) :=
  match fromUtf8 payload with
  | none => .error (.json "wrapper payload is not UTF-8")
  | some text =>
    let trimmed := trimText text
    if startsWith '{' trimmed then (recogniseJson crates trimmed).map (trimmed, ·)
    else if startsWith '<' trimmed then (recogniseXml crates trimmed).map (trimmed, ·)
    else .error .notAWrapper

/-- And from there on. -/
def Root.peel (ids : MessageId × MessageId) (topic text : String) : Root →
    Except AgraError Unwrapped
  | json kind body =>
    match body.get "MessageData" with
    | none => .error (.missingField "MessageData")
    | some data => do
      let messageType ← jsonStr data "MessageType"
      let hexPayload ← jsonStr data "EncodedPayload"
      let innerBytes ← decodeHex hexPayload
      return assemble crates ids topic (utf8 text) .json (jsonInfo kind messageType data) innerBytes
  | xml kind root => do
    let messageType ← required "MessageType" (localText root "MessageType")
    let hexPayload ← required "EncodedPayload" (localText root "EncodedPayload")
    let innerBytes ← decodeHex (trimText hexPayload)
    return assemble crates ids topic (utf8 text) .xml (xmlInfo kind messageType root) innerBytes

end

section Stages
variable {crates : Crates} {ids : MessageId × MessageId} {topic : String}

theorem unwrapJson_eq (text : String) :
    unwrapJson crates ids topic text = (recogniseJson crates text).bind
      (Root.peel crates ids topic text) := by
  rw [unwrapJson, recogniseJson]
  cases crates.jsonParse text with
  | error message => rfl
  | ok root =>
    dsimp only
    cases root.asObject with
    | none => rfl
    | some members =>
      rcases members with _ | ⟨⟨name, body⟩, _ | ⟨second, more⟩⟩
      · rfl
      · dsimp only
        cases WrapperKind.fromElement name <;> rfl
      · rfl

theorem unwrapXml_eq (text : String) :
    unwrapXml crates ids topic text = (recogniseXml crates text).bind
      (Root.peel crates ids topic text) := by
  rw [unwrapXml, recogniseXml]
  cases parseChecked (fun text => (crates.xmlParse text).toOption) text with
  | none => rfl
  | some root =>
    dsimp only
    cases WrapperKind.fromElement root.localName <;> rfl

/-- An unwrap is the two stages. -/
theorem unwrap_eq (payload : Bytes) :
    unwrap crates ids topic payload =
      (recognise crates payload).bind fun found => found.2.peel crates ids topic found.1 := by
  rw [unwrap, recognise]
  cases fromUtf8 payload with
  | none => rfl
  | some text =>
    simp only
    split
    · rw [unwrapJson_eq]
      cases recogniseJson crates (trimText text) <;> rfl
    · split
      · rw [unwrapXml_eq]
        cases recogniseXml crates (trimText text) <;> rfl
      · rfl

theorem decodeLoop_pastRoot {text out : Bytes} {high : Option UInt8}
    (failed : decodeLoop text high out = .error fault) : fault.PastRoot := by
  fun_induction decodeLoop text high out with
  | case1 => cases failed
  | case2 =>
    cases failed
    trivial
  | case3 b rest high out blank ih => exact ih failed
  | case4 =>
    cases failed
    trivial
  | case5 b rest out blank low digit ih => exact ih failed
  | case6 b rest out blank low digit hi ih => exact ih failed

theorem decodeHex_pastRoot {text : String} (failed : decodeHex text = .error fault) :
    fault.PastRoot := by
  simp only [decodeHex] at failed
  split at failed
  · cases failed
    trivial
  · exact decodeLoop_pastRoot failed

theorem bind_eq_error {Failure Result Image : Type} {run : Except Failure Result}
    {next : Result → Except Failure Image} {fault : Failure}
    (failed : run.bind next = .error fault) :
    run = .error fault ∨ ∃ result, run = .ok result ∧ next result = .error fault := by
  cases run with
  | error reason =>
    cases failed
    exact .inl rfl
  | ok result => exact .inr ⟨result, rfl, failed⟩

theorem jsonStr_pastRoot {data : Value} {field : String}
    (failed : jsonStr data field = .error fault) :
    fault.PastRoot := by
  rw [jsonStr] at failed
  split at failed
  · cases failed
  · cases failed
    trivial

theorem required_pastRoot {field : String} {found : Option String}
    (failed : required field found = .error fault) :
    fault.PastRoot := by
  cases found <;> cases failed
  trivial

/-- With a root, an unwrap fails on what the wrapper holds only. -/
theorem Root.peel_pastRoot {root : Root} {text : String}
    (failed : root.peel crates ids topic text = .error fault) :
    fault.PastRoot := by
  cases root with
  | json kind body =>
    rw [Root.peel] at failed
    split at failed
    · cases failed
      trivial
    · obtain missing | ⟨messageType, -, failed⟩ := bind_eq_error failed
      · exact jsonStr_pastRoot missing
      obtain missing | ⟨hex, -, failed⟩ := bind_eq_error failed
      · exact jsonStr_pastRoot missing
      obtain bad | ⟨bytes, -, failed⟩ := bind_eq_error failed
      · exact decodeHex_pastRoot bad
      · cases failed
  | xml kind root =>
    rw [Root.peel] at failed
    obtain missing | ⟨messageType, -, failed⟩ := bind_eq_error failed
    · exact required_pastRoot missing
    obtain missing | ⟨hex, -, failed⟩ := bind_eq_error failed
    · exact required_pastRoot missing
    obtain bad | ⟨bytes, -, failed⟩ := bind_eq_error failed
    · exact decodeHex_pastRoot bad
    · cases failed

/-- And what it gives is of the root's kind. -/
theorem Root.kind_peel {root : Root} {text : String}
    (run : root.peel crates ids topic text = .ok peeled) :
    peeled.info.kind = root.kind := by
  cases root with
  | json kind body =>
    rw [Root.peel] at run
    split at run
    · cases run
    · obtain ⟨_, -, run⟩ := bind_eq_ok.mp run
      obtain ⟨_, -, run⟩ := bind_eq_ok.mp run
      obtain ⟨_, -, run⟩ := bind_eq_ok.mp run
      cases run
      rfl
  | xml kind root =>
    rw [Root.peel] at run
    obtain ⟨_, -, run⟩ := bind_eq_ok.mp run
    obtain ⟨_, -, run⟩ := bind_eq_ok.mp run
    obtain ⟨_, -, run⟩ := bind_eq_ok.mp run
    cases run
    rfl

variable {payload : Bytes} {kind : WrapperKind}

/-- The unwrap gives the parts of a wrapper of this kind, or recognises its root
and fails on what it holds. -/
def Peels (crates : Crates) (ids : MessageId × MessageId) (topic : String) (payload : Bytes)
    (kind : WrapperKind) :
    Prop :=
  (∃ peeled, unwrap crates ids topic payload = .ok peeled ∧ peeled.info.kind = kind) ∨
    ∃ found fault, recognise crates payload = .ok found ∧ found.2.kind = kind ∧
      unwrap crates ids topic payload = .error fault ∧ fault.PastRoot

theorem peels_iff : Peels crates ids topic payload kind ↔
    ∃ found, recognise crates payload = .ok found ∧ found.2.kind = kind := by
  rw [Peels, unwrap_eq]
  constructor
  · rintro (⟨peeled, run, rfl⟩ | ⟨found, fault, recognised, same, -, -⟩)
    · obtain ⟨found, recognised, run⟩ := bind_eq_ok.mp run
      exact ⟨found, recognised, (Root.kind_peel run).symm⟩
    · exact ⟨found, recognised, same⟩
  · rintro ⟨found, recognised, same⟩
    have onward : (recognise crates payload).bind
      (fun found => found.2.peel crates ids topic found.1) =
        found.2.peel crates ids topic found.1 := by
      rw [recognised]
      rfl
    rw [onward]
    cases run : found.2.peel crates ids topic found.1 with
    | ok peeled => exact .inl ⟨peeled, rfl, (Root.kind_peel run).trans same⟩
    | error fault => exact .inr ⟨found, fault, recognised, same, rfl, Root.peel_pastRoot run⟩

theorem recogniseJson_iff {text : String} :
    (∃ root, recogniseJson crates text = .ok root ∧ root.kind = kind) ↔
      ∃ name, singleMember crates text = some name ∧ WrapperKind.fromElement name = some kind := by
  simp only [singleMember_eq_some]
  rw [recogniseJson]
  constructor
  · rintro ⟨root, run, rfl⟩
    split at run
    · cases run
    rename_i value parsed
    split at run
    · cases run
    · rename_i name body single
      obtain rfl : value = .object [(name, body)] := by
        cases value <;> simp_all [Value.asObject]
      split at run
      · cases run
      rename_i kind named
      cases run
      exact ⟨name, ⟨body, parsed⟩, named⟩
    · cases run
  · rintro ⟨name, ⟨body, parsed⟩, named⟩
    exact ⟨.json kind body, by simp [parsed, Value.asObject, named], rfl⟩

theorem recogniseXml_iff {text : String} :
    (∃ root, recogniseXml crates text = .ok root ∧ root.kind = kind) ↔
      ∃ name, xmlRootLocalName crates text = some name ∧
          WrapperKind.fromElement name = some kind := by
  rw [recogniseXml, xmlRootLocalName]
  cases parseChecked (fun text => (crates.xmlParse text).toOption) text with
  | none => simp
  | some root =>
    dsimp only
    cases named : WrapperKind.fromElement root.localName with
    | none => simp [named]
    | some other => simp [named, Root.kind]

theorem recognise_iff : (∃ found, recognise crates payload = .ok found ∧ found.2.kind = kind) ↔
    ∃ text, fromUtf8 payload = some text ∧ ∃ name, elementOf crates (trimText text) = some name ∧
      WrapperKind.fromElement name = some kind := by
  have mapped {run : Except AgraError Root} (text : String) :
      (∃ found, run.map (text, ·) = .ok found ∧ found.2.kind = kind) ↔
          ∃ root, run = .ok root ∧ root.kind = kind := by
    constructor
    · rintro ⟨found, run, rfl⟩
      obtain ⟨root, done, rfl⟩ := map_eq_ok.mp run
      exact ⟨root, done, rfl⟩
    · rintro ⟨root, rfl, rfl⟩
      exact ⟨(text, root), rfl, rfl⟩
  rw [recognise]
  cases fromUtf8 payload with
  | none => simp
  | some text =>
    simp only [Option.some.injEq, exists_eq_left', elementOf]
    split
    · rw [mapped, recogniseJson_iff]
    · split
      · rw [mapped, recogniseXml_iff]
      · simp

theorem wrapperKind_iff : wrapperKind crates payload = some kind ↔
    ∃ text, fromUtf8 payload = some text ∧ ∃ name,
      elementOf crates (trimStartText text) = some name ∧
      WrapperKind.fromElement name = some kind := by
  rw [wrapperKind, Option.bind_eq_some_iff]
  exact exists_congr fun text => and_congr_right fun _ => Option.bind_eq_some_iff

/-- A document with a wrapper at its root. -/
def Wraps (crates : Crates) (text : String) : Prop :=
  ∃ name, RootNamed crates text name ∧ (name = rxElement ∨ name = txElement)

theorem fromElement_isSome {name : String} :
    (∃ kind, WrapperKind.fromElement name = some kind) ↔ name = rxElement ∨ name = txElement := by
  rw [WrapperKind.fromElement]
  split
  · simp_all
  · split <;> simp_all

/-- Detection agrees with the unwrap unless a wrapper is followed by white space
that only `str::trim` takes for such. -/
theorem wrapperKind_iff_peels (padding : Padding crates) (ids : MessageId × MessageId)
    (topic : String) (payload : Bytes) :
    (∀ kind, wrapperKind crates payload = some kind ↔ Peels crates ids topic payload kind) ↔
      ∀ text, fromUtf8 payload = some text → Wraps crates (trimText text) →
        (trailing text.toList).all Xml.isSpace = true := by
  simp only [peels_iff, recognise_iff, wrapperKind_iff]
  constructor
  · rintro agree text decoded ⟨name, named, wrapper⟩
    obtain ⟨kind, known⟩ := fromElement_isSome.mpr wrapper
    obtain ⟨again, same, other, detected, -⟩ :=
      (agree kind).mpr ⟨text, decoded, name, elementOf_eq_some.mpr named, known⟩
    cases decoded.symm.trans same
    rw [elementOf_trimStart padding] at detected
    split at detected
    · rename_i plain
      exact plain
    · cases detected
  · intro plain kind
    refine exists_congr fun text => and_congr_right fun decoded => exists_congr fun name =>
      and_congr_left fun known => ?_
    rw [elementOf_trimStart padding]
    split
    · rfl
    · rename_i odd
      refine ⟨nofun, fun found =>
        absurd (plain text decoded ⟨name, elementOf_eq_some.mp found, ?_⟩) odd⟩
      exact fromElement_isSome.mp ⟨kind, known⟩

end Stages

/-- A wrapper around no payload. -/
def emptyText : List Char :=
  "\x7b\"MA_RxDataPayload\":\x7b\"MessageData\":\x7b".toList ++
    "\"EncodedPayload\":\"\",\"MessageType\":\"Ping\"\x7d\x7d\x7d".toList

def emptyValue : Value :=
  .object [("MA_RxDataPayload", .object [("MessageData",
    .object [("EncodedPayload", .string ""), ("MessageType", .string "Ping")])])]

def emptyCrates : Crates := paddedCrates emptyText emptyValue

theorem emptyText_ends : emptyText.head? = some '{' ∧
    emptyText.getLast? = some '}' := by decide +kernel

theorem padding_emptyCrates : Padding emptyCrates :=
  padding_paddedCrates emptyText_ends.1 (by decide +kernel) _

/-- The wrapper and a no-break space. -/
def spacedText : String := .ofList (emptyText ++ ['\u00a0'])

theorem elementOf_spacedText : elementOf emptyCrates (trimText spacedText) = some rxElement :=
  elementOf_braced emptyText_ends.1 emptyText_ends.2 (by decide) _ _

theorem trailing_spacedText : trailing spacedText.toList = ['\u00a0'] := by
  rw [spacedText, String.toList_ofList]
  exact (trim_braced emptyText_ends.1 emptyText_ends.2 (by decide)).2

/-- The wrapper is missed, though it would be turned inside out. -/
theorem spaced_wrapper_missed :
    Padding emptyCrates ∧ wrapperKind emptyCrates (utf8 spacedText) = none ∧
      Peels emptyCrates (⟨"w"⟩, ⟨"i"⟩) "t" (utf8 spacedText) .rx := by
  refine ⟨padding_emptyCrates, ?_, ?_⟩
  · rw [wrapperKind, fromUtf8_utf8, Option.bind_some, elementOf_trimStart padding_emptyCrates,
      trailing_spacedText, if_neg (by decide)]
    rfl
  · exact peels_iff.mpr (recognise_iff.mpr ⟨_, fromUtf8_utf8 _, _, elementOf_spacedText, rfl⟩)

/-- With a line end in its place, both take it. -/
theorem empty_wrapper_peeled :
    wrapperKind emptyCrates (utf8 (.ofList (emptyText ++ ['\n']))) = some .rx ↔
      Peels emptyCrates (⟨"w"⟩, ⟨"i"⟩) "t" (utf8 (.ofList (emptyText ++ ['\n']))) .rx := by
  refine (wrapperKind_iff_peels padding_emptyCrates (⟨"w"⟩, ⟨"i"⟩) "t" _).mpr
    (fun text decoded _ => ?_) .rx
  have same := Option.some.inj ((fromUtf8_utf8 _).symm.trans decoded)
  rw [← same, String.toList_ofList, (trim_braced emptyText_ends.1 emptyText_ends.2 (by decide)).2]
  decide

end OaGateway.Agra
