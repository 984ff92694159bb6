import OaGateway.Agra.Unwrap
import OaGateway.Lib.Printed
import OaGateway.Lib.Xml.Padding

/-! White space around a document, as the parsers and the gateway's own sniffing
take it. -/
namespace OaGateway.Agra

open Lib Lib.Json Lib.Xml OaGateway.Core

/-- A text with no white space at its ends. -/
structure Tight (first : Char) (text : List Char) : Prop where
  starts : text.head? = some first
  solid : isWhitespace first = false
  ends : ∀ last, text.getLast? = some last → isWhitespace last = false

/-- An XML document that starts with its declaration. -/
def isDeclared (text : List Char) : Bool := "<?xml ".toList.isPrefixOf text

/-- What is relied on the parsers for: white space around a document is read over
where the formats have it, which is less than `str::trim` removes, nothing else is,
and nothing may stand before an XML declaration. An object starts with its brace. -/
structure Padding (crates : Crates) : Prop where
  json : (lead ++ trail).all isWhitespace = true → Tight '{' text →
    (crates.jsonParse (.ofList (lead ++ text ++ trail))).toOption =
      if (lead ++ trail).all isSpace then (crates.jsonParse (.ofList text)).toOption else none
  xml : (lead ++ trail).all isWhitespace = true → Tight '<' text →
    (crates.xmlParse (.ofList (lead ++ text ++ trail))).toOption =
      if (lead ++ trail).all isSpace && !(isDeclared text && lead != []) then
        (crates.xmlParse (.ofList text)).toOption else none
  opened : crates.jsonParse text = .ok (.object members) → (trimStart text.toList).head? = some '{'

section Split

/-- What is left of a text between its white space. -/
theorem tight_trim {text : List Char} (starts : (trim text).head? = some first) :
    Tight first (trim text) where
  starts
  solid := by
    have whole : (trimStart text).head? = some first := by
      rw [← trim_append, List.head?_append, starts]
      rfl
    have solid := List.head?_dropWhile_not isWhitespace text
    rw [trimStart] at whole
    rw [whole] at solid
    simpa using solid
  ends last closes := by
    rw [trim, List.getLast?_reverse] at closes
    have solid := List.head?_dropWhile_not isWhitespace (trimStart text).reverse
    rw [trimStart] at closes
    rw [closes] at solid
    simpa using solid

end Split

section Scan

theorem not_blank {blank : List Char} (all : blank.all isWhitespace = true) {c : Char}
    (solid : isWhitespace c = false) :
    c ∉ blank := by
  intro member
  have white := List.all_eq_true.mp all c member
  rw [solid] at white
  cases white

/-- White space closes nothing the scanner knows. -/
theorem quiet_blank {blank : List Char} (all : blank.all isWhitespace = true) :
    Quiet [.comment, .pi] (encode blank) := by
  have apart (marks : List Char)
    (plain : (marks.all fun c => decide (IsAscii c) && !isWhitespace c) = true) :
      ∀ b ∈ encode blank, b ∉ marks.map byte := by
    intro b member inside
    obtain ⟨c, mark, rfl⟩ := List.mem_map.mp inside
    have visible := List.all_eq_true.mp plain c mark
    simp only [Bool.and_eq_true, decide_eq_true_eq, Bool.not_eq_true'] at visible
    exact not_blank all visible.2 ((byte_mem_encode visible.1 blank).mp member)
  constructor
  · exact apart ['<', '>', '!', '/', '"', '\''] (by decide)
  · rintro construct known
    rcases List.mem_pair.mp known with rfl | rfl
    · exact apart ['!', '-', '-'] (by decide)
    · exact apart ['?'] (by decide)
  · rintro construct known
    rcases List.mem_pair.mp known with rfl | rfl
    · exact apart ['-', '-', '>'] (by decide)
    · exact apart ['?', '>'] (by decide)
  · rintro construct known
    rcases List.mem_pair.mp known with rfl | rfl <;> simp [Construct.comment, Construct.pi]

/-- White space around a text does not nest. -/
theorem nestingExceeds_padded {lead trail : List Char}
    (blank : (lead ++ trail).all isWhitespace = true) (text : List Char) (limit : Nat) :
    nestingExceeds (.ofList (lead ++ text ++ trail)) limit =
      nestingExceeds (.ofList text) limit := by
  rw [List.all_append, Bool.and_eq_true] at blank
  have plain : '<' ∉ lead := not_blank blank.1 (by decide)
  simp only [nestingExceeds, utf8, String.toList_ofList]
  rw [List.append_assoc, encode_append, Transparent.plain plain, encode_append,
    exceeds_append _ (quiet_blank blank.2)]

end Scan

/-- A text that is one JSON object of one member, or an XML document no deeper
than the guard allows, and the name at its root. -/
inductive RootNamed (crates : Crates) (text : String) : String → Prop where
  | json (starts : startsWith '{' text = true)
      (parsed : crates.jsonParse text = .ok (.object [(name, body)])) :
      RootNamed crates text name
  | xml (starts : startsWith '<' text = true)
      (parsed : parseChecked (fun text => (crates.xmlParse text).toOption) text = some root) :
      RootNamed crates text root.localName

section Readers
variable {crates : Crates}

theorem singleMember_eq_some {text : String} :
    singleMember crates text = some name ↔
      ∃ body, crates.jsonParse text = .ok (.object [(name, body)]) := by
  rw [singleMember]
  constructor
  · intro found
    split at found
    · rename_i member body single
      cases found
      cases parsed : crates.jsonParse text with
      | error reason =>
        rw [parsed] at single
        cases single
      | ok value =>
        rw [parsed] at single
        cases value with
        | object members =>
          cases single
          exact ⟨body, rfl⟩
        | _ => cases single
    · cases found
  · rintro ⟨body, parsed⟩
    rw [parsed]
    rfl

theorem startsWith_iff {text : String} {c : Char} : startsWith c text = true ↔
    text.toList.head? = some c := by
  rw [startsWith, beq_iff_eq]

theorem elementOf_eq_some {text : String} : elementOf crates text = some name ↔
    RootNamed crates text name := by
  rw [elementOf]
  constructor
  · intro found
    split at found
    · rename_i brace
      obtain ⟨body, parsed⟩ := singleMember_eq_some.mp found
      exact .json brace parsed
    · split at found
      · rename_i angle
        obtain ⟨root, parsed, rfl⟩ := Option.map_eq_some_iff.mp found
        exact .xml angle parsed
      · cases found
  · intro named
    cases named with
    | json brace parsed =>
      rw [if_pos brace]
      exact singleMember_eq_some.mpr ⟨_, parsed⟩
    | xml angle parsed =>
      have brace : ¬ startsWith '{' text = true := by
        rw [startsWith_iff] at angle ⊢
        rw [angle]
        decide
      rw [if_neg brace, if_pos angle, xmlRootLocalName, parsed]
      rfl

variable {lead text trail : List Char}

theorem singleMember_padded (padding : Padding crates)
    (blank : (lead ++ trail).all isWhitespace = true) (tight : Tight '{' text) :
    singleMember crates (.ofList (lead ++ text ++ trail)) =
      if (lead ++ trail).all isSpace then singleMember crates (.ofList text) else none := by
  rw [singleMember, padding.json blank tight, singleMember]
  by_cases plain : (lead ++ trail).all isSpace = true
  · rw [if_pos plain, if_pos plain]
  · rw [if_neg plain, if_neg plain]
    rfl

theorem xmlRootLocalName_padded (padding : Padding crates)
    (blank : (lead ++ trail).all isWhitespace = true) (tight : Tight '<' text) :
    xmlRootLocalName crates (.ofList (lead ++ text ++ trail)) =
      if (lead ++ trail).all isSpace && !(isDeclared text && lead != []) then
        xmlRootLocalName crates (.ofList text) else none := by
  rw [xmlRootLocalName, parseChecked, nestingExceeds_padded blank, padding.xml blank tight,
    xmlRootLocalName, parseChecked]
  split
  · split <;> rfl
  · split <;> rfl

/-- A text read from its first character on, with whatever white space behind it. -/
theorem elementOf_trimStart (padding : Padding crates) (text : String) :
    elementOf crates (trimStartText text) =
      if (trailing text.toList).all isSpace then elementOf crates (trimText text) else none := by
  have split : trimStartText text = .ofList ([] ++ trim text.toList ++ trailing text.toList) := by
    rw [trimStartText, List.nil_append, trim_append]
  have heads (c : Char) : startsWith c (trimStartText text) = startsWith c (trimText text) := by
    rw [startsWith, startsWith, trimStartText, trimText, String.toList_ofList,
      String.toList_ofList, head_trim]
  have tight {c : Char} (starts : startsWith c (trimText text) = true) :
      Tight c (trim text.toList) := by
    rw [startsWith_iff, trimText, String.toList_ofList] at starts
    exact tight_trim starts
  have blank : ([] ++ trailing text.toList).all isWhitespace = true := trailing_blank _
  rw [elementOf, heads, heads, elementOf]
  split
  · rename_i brace
    rw [split, singleMember_padded padding blank (tight brace)]
    rfl
  · split
    · rename_i angle
      rw [split, xmlRootLocalName_padded padding blank (tight angle)]
      simp only [bne_self_eq_false, Bool.and_false, Bool.not_false, Bool.and_true, List.nil_append]
      rfl
    · split <;> rfl

end Readers

section Sample

/-- A text without the white space of the format at its ends. -/
def stripPlain (text : List Char) : List Char :=
  ((text.dropWhile isSpace).reverse.dropWhile isSpace).reverse

/-- Crates that read one JSON document, with white space of the format around it. -/
def paddedCrates (document : List Char) (value : Value) : Crates :=
  { Uci.bareCrates with
    jsonParse text := if stripPlain text.toList = document then .ok value
      else .error "expected value" }

theorem jsonParse_paddedCrates {document : List Char} {value : Value} {text : String}
    (stripped : stripPlain text.toList = document) : (paddedCrates document value).jsonParse text =
      .ok value := by
  simp only [paddedCrates, stripped, ↓reduceIte]

theorem mem_dropWhile {text : List Char} {test : Char → Bool} (member : c ∈ text)
    (kept : test c = false) :
    c ∈ text.dropWhile test := by
  rw [← List.takeWhile_append_dropWhile (p := test) (l := text), List.mem_append] at member
  rcases member with dropped | later
  · have passed := List.all_eq_true.mp (List.all_takeWhile (p := test)) c dropped
    rw [kept] at passed
    cases passed
  · exact later

theorem mem_stripPlain {text : List Char} (member : c ∈ text) (kept : isSpace c = false) :
    c ∈ stripPlain text :=
  List.mem_reverse.mpr (mem_dropWhile (List.mem_reverse.mpr (mem_dropWhile member kept)) kept)

theorem dropWhile_tight {text : List Char} {first : Char} (starts : text.head? = some first)
    (solid : isWhitespace first = false) : text.dropWhile isSpace = text := by
  obtain ⟨rest, rfl⟩ := List.head?_eq_some_iff.mp starts
  refine List.dropWhile_cons_of_neg fun plain => ?_
  rw [isWhitespace_of_isSpace plain] at solid
  cases solid

theorem stripPlain_padded {lead text trail : List Char} (plain : (lead ++ trail).all isSpace = true)
    (tight : Tight first text) : stripPlain (lead ++ text ++ trail) = text := by
  rw [List.all_append, Bool.and_eq_true] at plain
  obtain ⟨rest, whole⟩ := List.head?_eq_some_iff.mp tight.starts
  have front : (text ++ trail).head? = some first := by
    rw [List.head?_append, tight.starts]
    rfl
  obtain ⟨last, closes⟩ : ∃ last, text.getLast? = some last := by
    rw [whole]
    exact ⟨_, List.getLast?_cons⟩
  have back : text.reverse.head? = some last := by rw [List.head?_reverse, closes]
  have behind : ∀ c ∈ trail.reverse, isSpace c = true := by simpa using plain.2
  have ahead : ∀ c ∈ lead, isSpace c = true := by simpa using plain.1
  rw [stripPlain, List.append_assoc, List.dropWhile_append_of_pos ahead,
    dropWhile_tight front tight.solid, List.reverse_append, List.dropWhile_append_of_pos behind,
      dropWhile_tight back (tight.ends last closes),
    List.reverse_reverse]

theorem head_trimStart_of_stripPlain {text : List Char}
    (starts : (stripPlain text).head? = some first) (solid : isWhitespace first = false) :
    (trimStart text).head? = some first := by
  have inside : stripPlain text <+: text.dropWhile isSpace := by
    rw [← List.reverse_suffix, stripPlain, List.reverse_reverse]
    exact List.dropWhile_suffix _
  obtain ⟨more, rest⟩ := inside
  have opens : (text.dropWhile isSpace).head? = some first := by
    rw [← rest, List.head?_append, starts]
    rfl
  obtain ⟨tail, whole⟩ := List.head?_eq_some_iff.mp opens
  have blank : ∀ c ∈ text.takeWhile isSpace, isWhitespace c = true :=
    fun c member => isWhitespace_of_isSpace (List.all_eq_true.mp List.all_takeWhile c member)
  rw [← List.takeWhile_append_dropWhile (p := isSpace) (l := text), trimStart,
    List.dropWhile_append_of_pos blank, whole, List.dropWhile_cons_of_neg (by simp [solid])]
  rfl

/-- They read white space as they should. -/
theorem padding_paddedCrates {document : List Char} (opens : document.head? = some '{')
    (spaces : (document.all fun c => !isWhitespace c || isSpace c) = true) (value : Value) :
    Padding (paddedCrates document value) where
  json {lead trail text} blank tight := by
    simp only [paddedCrates, String.toList_ofList]
    by_cases plain : (lead ++ trail).all isSpace = true
    · have alone : stripPlain ([] ++ text ++ []) = text := stripPlain_padded rfl tight
      rw [List.nil_append, List.append_nil] at alone
      rw [if_pos plain, stripPlain_padded plain tight, alone]
    · have foreign : stripPlain (lead ++ text ++ trail) ≠ document := by
        intro same
        simp only [Bool.not_eq_true, List.all_eq_false] at plain
        obtain ⟨c, inside, odd⟩ := plain
        have odd : isSpace c = false := by simpa using odd
        have member : c ∈ lead ++ text ++ trail := by
          rcases List.mem_append.mp inside with front | back
          · exact List.mem_append_left _ (List.mem_append_left _ front)
          · exact List.mem_append_right _ back
        have white := List.all_eq_true.mp blank c inside
        have known := List.all_eq_true.mp spaces c (same ▸ mem_stripPlain member odd)
        rw [white, odd] at known
        cases known
      rw [if_neg plain, if_neg foreign]
      rfl
  xml {lead trail text} blank tight := by
    simp only [paddedCrates, Uci.bareCrates, Except.toOption, ite_self]
  opened {text members} parsed := by
    simp only [paddedCrates] at parsed
    split at parsed
    · rename_i same
      exact head_trimStart_of_stripPlain (by rw [same, opens]) (by decide)
    · cases parsed

variable {document : List Char}

theorem tight_braced (opens : document.head? = some '{') (closes : document.getLast? = some '}') :
    Tight '{' document where
  starts := opens
  solid := by decide
  ends last found := by
    cases closes.symm.trans found
    decide

/-- A document before one more character of white space. -/
theorem trim_braced (opens : document.head? = some '{') (closes : document.getLast? = some '}')
    (white : isWhitespace blank = true) :
    trim (document ++ [blank]) = document ∧ trailing (document ++ [blank]) = [blank] := by
  have trimmed := trim_of_ends opens (by decide) closes (by decide)
  exact ⟨trim_spaced opens (by decide) trimmed white,
    trailing_spaced opens (by decide) trimmed white⟩

theorem elementOf_braced (opens : document.head? = some '{') (closes : document.getLast? = some '}')
    (white : isWhitespace blank = true) (name : String) (body : Value) :
    elementOf (paddedCrates document (.object [(name, body)]))
      (trimText (.ofList (document ++ [blank]))) = some name := by
  have alone : stripPlain ([] ++ document ++ []) = document :=
    stripPlain_padded rfl (tight_braced opens closes)
  rw [List.nil_append, List.append_nil] at alone
  rw [trimText, String.toList_ofList, (trim_braced opens closes white).1]
  refine elementOf_eq_some.mpr (.json ?starts (jsonParse_paddedCrates ?stripped))
  case starts => rw [startsWith_iff, String.toList_ofList, opens]
  case stripped => rw [String.toList_ofList, alone]

end Sample

end OaGateway.Agra
