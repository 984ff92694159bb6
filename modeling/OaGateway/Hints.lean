import OaGateway.Agra.Padding
import OaGateway.Owp.Publish
import OaGateway.Stomp.Adapter

/-! The type of a payload as each edge takes it from the text. -/
namespace OaGateway

open Lib Lib.Json OaGateway.Core Agra

/-- The type an OWP publish takes from its payload. -/
def publishHint (crates : Owp.OwpCrates) (payload : String) : Except String String :=
  if Uci.looksLikeXml (utf8 payload) then
    match xmlRootLocalName crates.toCrates payload with
    | some hint => .ok hint
    | none => .error "XML payload has no element to take a type from"
  else match Owp.typeHintFromJson crates payload with
    | .ok hint => .ok hint
    | .error error => .error error.display

section
variable {crates : Owp.OwpCrates}

/-- What a publish that is no wrapper hands on. -/
theorem outgoing_eq {session : Owp.Session} (ids : MessageId × MessageId) (topic : String)
    {payload : String}
    (plain : (session.config.unwrapMaPayloads &&
      (wrapperKind crates.toCrates (utf8 payload)).isSome) = false) :
    Owp.outgoing crates session ids topic payload = (publishHint crates payload).map fun hint =>
      [(Envelope.new ids.1 (.typed topic hint) (utf8 payload)).withContentType
        (if Uci.looksLikeXml (utf8 payload) then .xml else .json)] := by
  rw [Owp.outgoing, plain, publishHint]
  by_cases xml : Uci.looksLikeXml (utf8 payload) = true
  · simp only [xml, if_true, Bool.false_eq_true, if_false]
    cases xmlRootLocalName crates.toCrates payload <;> rfl
  · simp only [xml, Bool.false_eq_true, if_false]
    cases Owp.typeHintFromJson crates payload <;> rfl

theorem typeHintFromJson_toOption (text : String) :
    (Owp.typeHintFromJson crates text).toOption = singleMember crates.toCrates text := by
  rw [Owp.typeHintFromJson, singleMember]
  cases crates.jsonParse text with
  | error message => rfl
  | ok value =>
    dsimp only [Except.toOption, Option.bind_some]
    cases value.asObject with
    | none => rfl
    | some members =>
      rcases members with _ | ⟨⟨name, body⟩, _ | ⟨second, more⟩⟩ <;> rfl

/-- Between the white space of a text. -/
theorem padded_eq (text : String) :
    String.ofList (leading text.toList ++ trim text.toList ++ trailing text.toList) = text := by
  rw [List.append_assoc, trim_append, leading_append, String.ofList_toList]

theorem padded_blank (text : List Char) : (leading text ++ trailing text).all isWhitespace =
    true := by
  rw [List.all_append, leading_blank, trailing_blank]
  rfl

/-- White space around a document that every reader takes for such. -/
def isPadding (text : List Char) : Bool :=
  (leading text ++ trailing text).all Xml.isSpace && !(isDeclared (trim text) && leading text != [])

theorem head_declared {text : List Char} (starts : isDeclared text = true) :
    text.head? = some '<' := by
  obtain ⟨rest, rfl⟩ := List.isPrefixOf_iff_prefix.mp starts
  rfl

/-- Which reader the first character of a payload asks for. -/
theorem publishHint_reader (text : String) :
    (publishHint crates text).toOption =
      if (trimStart text.toList).head? = some '<' then xmlRootLocalName crates.toCrates text
      else singleMember crates.toCrates text := by
  rw [publishHint, Uci.looksLikeXml, fromUtf8_utf8, Option.any_some, ← typeHintFromJson_toOption]
  by_cases angle : (trimStart text.toList).head? = some '<'
  · simp only [angle, beq_self_eq_true, if_true]
    cases xmlRootLocalName crates.toCrates text <;> rfl
  · rw [if_neg (by simpa using angle), if_neg angle]
    cases Owp.typeHintFromJson crates text <;> rfl

/-- The hint at the OWP edge. -/
theorem publishHint_toOption (padding : Padding crates.toCrates) (text : String) :
    (publishHint crates text).toOption =
      if isPadding text.toList then elementOf crates.toCrates (trimText text) else none := by
  have spelled (c : Char) : startsWith c (trimText text) =
      ((trimStart text.toList).head? == some c) := by
    rw [startsWith, trimText, String.toList_ofList, head_trim]
  have tight {c : Char} (starts : (trimStart text.toList).head? = some c) :
    Tight c (trim text.toList) :=
    tight_trim ((head_trim _).trans starts)
  have blank := padded_blank text.toList
  rw [publishHint_reader, elementOf, spelled, spelled, isPadding]
  by_cases angle : (trimStart text.toList).head? = some '<'
  · have name := xmlRootLocalName_padded padding blank (tight angle)
    rw [padded_eq] at name
    rw [if_pos angle, name, angle]
    rfl
  by_cases brace : (trimStart text.toList).head? = some '{'
  · have name := singleMember_padded padding blank (tight brace)
    rw [padded_eq] at name
    have undeclared : isDeclared (trim text.toList) = false := by
      rw [← Bool.not_eq_true]
      intro starts
      rw [← head_trim, head_declared starts] at brace
      cases brace
    rw [if_neg angle, name, undeclared, brace, Bool.false_and, Bool.not_false, Bool.and_true]
    rfl
  · have nameless : singleMember crates.toCrates text = none := by
      rw [Option.eq_none_iff_forall_ne_some]
      intro name found
      obtain ⟨body, parsed⟩ := singleMember_eq_some.mp found
      exact brace (padding.opened parsed)
    simp [angle, brace, nameless]

/-- The hint at the STOMP edge. -/
theorem sniffTypeHint_eq (padding : Padding crates.toCrates) (text : String) :
    Stomp.sniffTypeHint crates.toCrates (utf8 text) =
      if (trailing text.toList).all Xml.isSpace then elementOf crates.toCrates (trimText text)
          else none := by
  rw [Stomp.sniffTypeHint, fromUtf8_utf8, Option.bind_some, elementOf_trimStart padding]

/-- The hint inside a wrapper. -/
theorem typeHintFromInner_eq (text fallback : String) :
    typeHintFromInner crates.toCrates (utf8 text) fallback =
      (elementOf crates.toCrates (trimText text)).getD fallback := by
  rw [typeHintFromInner, fromUtf8_utf8, Option.bind_some]

/-- One name for a payload at every edge, or none. -/
def OneHint (crates : Owp.OwpCrates) (payload : String) : Prop :=
  ∃ hint : Option String, (publishHint crates payload).toOption = hint ∧
    Stomp.sniffTypeHint crates.toCrates (utf8 payload) = hint ∧
    ∀ fallback, typeHintFromInner crates.toCrates (utf8 payload) fallback = hint.getD fallback

theorem eq_of_getD {one two : Option String}
    (same : ∀ fallback, one.getD fallback = two.getD fallback) : one = two := by
  have both (name : String) (every : ∀ fallback : String, fallback = name) : False :=
    absurd ((every "a").trans (every "b").symm) (by decide)
  cases one with
  | none =>
    cases two with
    | none => rfl
    | some name => exact (both name same).elim
  | some name =>
    cases two with
    | none => exact (both name fun fallback => (same fallback).symm).elim
    | some other => exact congrArg some (same "a")

/-- The edges agree on a payload unless it has a name and some of them stop at
the white space around it. -/
theorem oneHint_iff (padding : Padding crates.toCrates) (payload : String) :
    OneHint crates payload ↔
      ((∃ name, RootNamed crates.toCrates (trimText payload) name) →
          isPadding payload.toList = true) := by
  simp only [← elementOf_eq_some]
  rw [OneHint, publishHint_toOption padding, sniffTypeHint_eq padding]
  simp only [typeHintFromInner_eq]
  constructor
  · rintro ⟨hint, owp, -, inner⟩ ⟨name, named⟩
    rw [← eq_of_getD inner, named] at owp
    split at owp
    · assumption
    · cases owp
  · intro known
    refine ⟨elementOf crates.toCrates (trimText payload), ?_, ?_, fun _ => rfl⟩
    · cases named : elementOf crates.toCrates (trimText payload) with
      | none => exact ite_self _
      | some name => rw [if_pos (known ⟨name, named⟩)]
    · cases named : elementOf crates.toCrates (trimText payload) with
      | none => exact ite_self _
      | some name =>
        have plain := known ⟨name, named⟩
        rw [isPadding, List.all_append, Bool.and_eq_true, Bool.and_eq_true] at plain
        rw [if_pos plain.1.2]

end

section Sample

def fooText : List Char := "\x7b\"Foo\":\x7b\x7d\x7d".toList

def fooCrates : Owp.OwpCrates where
  toCrates := paddedCrates fooText (.object [("Foo", .object [])])
  initParse _ := .error "expected value"
  uuidV5 name := name

theorem fooText_ends : fooText.head? = some '{' ∧ fooText.getLast? = some '}' := by decide +kernel

theorem padding_fooCrates : Padding fooCrates.toCrates :=
  padding_paddedCrates fooText_ends.1 (by decide +kernel) _

/-- A document and a no-break space. -/
def spacedFoo : String := .ofList (fooText ++ ['\u00a0'])

theorem elementOf_spacedFoo : elementOf fooCrates.toCrates (trimText spacedFoo) = some "Foo" :=
  elementOf_braced fooText_ends.1 fooText_ends.2 (by decide) _ _

theorem trailing_spacedFoo : trailing spacedFoo.toList = ['\u00a0'] := by
  rw [spacedFoo, String.toList_ofList]
  exact (trim_braced fooText_ends.1 fooText_ends.2 (by decide)).2

theorem wrapperKind_spacedFoo : wrapperKind fooCrates.toCrates (utf8 spacedFoo) = none := by
  rw [wrapperKind, fromUtf8_utf8, Option.bind_some, elementOf_trimStart padding_fooCrates,
    trailing_spacedFoo, if_neg (by decide)]
  rfl

/-- The wrapper's sniffing finds a name the other edges do not. -/
theorem spaced_hint_parted :
    Padding fooCrates.toCrates ∧ wrapperKind fooCrates.toCrates (utf8 spacedFoo) = none ∧
      ¬ OneHint fooCrates spacedFoo := by
  refine ⟨padding_fooCrates, wrapperKind_spacedFoo, ?_⟩
  rintro ⟨hint, owp, -, inner⟩
  have wide : ¬ isPadding spacedFoo.toList = true := by
    rw [isPadding, trailing_spacedFoo, List.all_append]
    simp [show (['\u00a0'] : List Char).all Xml.isSpace = false from rfl]
  rw [publishHint_toOption padding_fooCrates, if_neg wide] at owp
  have named := inner "fallback"
  rw [typeHintFromInner_eq, elementOf_spacedFoo, ← owp] at named
  exact absurd named (by decide)

theorem foo_hint : OneHint fooCrates (.ofList (fooText ++ ['\n'])) := by
  refine (oneHint_iff padding_fooCrates (.ofList (fooText ++ ['\n']))).mpr fun _ => ?_
  decide +kernel

end Sample

end OaGateway
