import OaGateway.Lib.Xml.Grammar

/-! What a document says: its elements, and its character data after line ends
are normalized. -/
namespace OaGateway.Lib.Xml

/-- Literal character data, with each line end read as a line feed. -/
def normalizeLines : List Char → List Char
  | [] => []
  | '\r' :: '\n' :: rest => '\n' :: normalizeLines rest
  | '\r' :: rest => '\n' :: normalizeLines rest
  | c :: rest => c :: normalizeLines rest

/-- The characters of a run of text. A reference stands for its character
whatever that is. -/
def pieceChars : List Piece → List Char
  | [] => []
  | .char '\r' :: .char '\n' :: rest => '\n' :: pieceChars rest
  | .char '\r' :: rest => '\n' :: pieceChars rest
  | .char c :: rest => c :: pieceChars rest
  | .ref reference :: rest => reference.value :: pieceChars rest

theorem pieceChars_char {c : Char} (notReturn : c ≠ '\r') (rest : List Piece) :
    pieceChars (.char c :: rest) = c :: pieceChars rest := by
  rw [pieceChars]
  · exact fun _ _ same => notReturn same
  · exact notReturn

theorem Reference.isChar_value {reference : Reference} (valid : reference.valid = true) :
    isChar reference.value = true := by
  cases reference with
  | entity name => cases name <;> rfl
  | decimal digits | hex digits =>
    simp only [Reference.valid, Reference.validNumber, Bool.and_eq_true] at valid
    exact valid.2.2

/-- Normalized data has no carriage return, and no character it did not have
but a line feed. -/
theorem mem_normalizeLines {body : List Char} {c : Char} (member : c ∈ normalizeLines body) :
    c = '\n' ∨ c ≠ '\r' ∧ c ∈ body := by
  induction body using normalizeLines.induct with
  | case1 => simp [normalizeLines] at member
  | case2 rest ih =>
    simp only [normalizeLines, List.mem_cons] at member
    rcases member with same | later
    · exact .inl same
    · exact (ih later).imp_right fun known => ⟨known.1, by simp [known.2]⟩
  | case3 rest single ih =>
    rw [normalizeLines, List.mem_cons] at member
    · rcases member with same | later
      · exact .inl same
      · exact (ih later).imp_right fun known => ⟨known.1, by simp [known.2]⟩
    · exact single
  | case4 first rest pair single ih =>
    rw [normalizeLines, List.mem_cons] at member
    · rcases member with same | later
      · exact .inr ⟨fun isReturn => single (same ▸ isReturn), by simp [same]⟩
      · exact (ih later).imp_right fun known => ⟨known.1, by simp [known.2]⟩
    · exact pair
    · exact single

/-- Where a character of a run of text comes from. -/
theorem mem_pieceChars {pieces : List Piece} {c : Char} (member : c ∈ pieceChars pieces) :
    (c = '\n' ∨ c ≠ '\r' ∧ .char c ∈ pieces) ∨
      ∃ reference, .ref reference ∈ pieces ∧ reference.value = c := by
  have wider {piece : Piece} {rest : List Piece}
      (known : (c = '\n' ∨ c ≠ '\r' ∧ .char c ∈ rest) ∨
        ∃ reference, .ref reference ∈ rest ∧ reference.value = c) :
      (c = '\n' ∨ c ≠ '\r' ∧ .char c ∈ piece :: rest) ∨
        ∃ reference, .ref reference ∈ piece :: rest ∧ reference.value = c := by
    rcases known with (same | ⟨other, inside⟩) | ⟨reference, inside, same⟩
    · exact .inl (.inl same)
    · exact .inl (.inr ⟨other, by simp [inside]⟩)
    · exact .inr ⟨reference, by simp [inside], same⟩
  induction pieces using pieceChars.induct with
  | case1 => simp [pieceChars] at member
  | case2 rest ih =>
    simp only [pieceChars, List.mem_cons] at member
    rcases member with same | later
    · exact .inl (.inl same)
    · exact wider (wider (ih later))
  | case3 rest single ih =>
    rw [pieceChars, List.mem_cons] at member
    · rcases member with same | later
      · exact .inl (.inl same)
      · exact wider (ih later)
    · exact single
  | case4 first rest pair single ih =>
    rw [pieceChars, List.mem_cons] at member
    · rcases member with same | later
      · exact .inl (.inr ⟨fun isReturn => single (same ▸ isReturn), by simp [same]⟩)
      · exact wider (ih later)
    · exact pair
    · exact single
  | case5 reference rest ih =>
    simp only [pieceChars, List.mem_cons] at member
    rcases member with same | later
    · exact .inr ⟨reference, by simp, same.symm⟩
    · exact wider (ih later)

/-- An element of some content. -/
structure Elem where
  tag : Tag
  inner : Content

namespace Content

/-- The child elements, in document order. -/
def elements : Content → List Elem
  | nil => []
  | text _ next | comment _ next | pi _ _ next | cdata _ next => next.elements
  | empty tag next => ⟨tag, nil⟩ :: next.elements
  | element tag inner _ next => ⟨tag, inner⟩ :: next.elements

/-- The character data between the child elements. -/
def charData : Content → List Char
  | nil => []
  | text pieces next => pieceChars pieces ++ next.charData
  | cdata body next => normalizeLines body ++ next.charData
  | comment _ next | pi _ _ next | empty _ next | element _ _ _ next => next.charData

/-- Character data is made of XML characters. -/
theorem isChar_of_charData {content : Content} (valid : content.valid = true) :
    ∀ c ∈ content.charData, isChar c = true := by
  induction content with
  | nil => simp [charData]
  | text pieces next ih =>
    simp only [Content.valid, Bool.and_eq_true, List.all_eq_true] at valid
    intro c member
    rcases List.mem_append.mp member with here | later
    · rcases mem_pieceChars here with (rfl | ⟨-, literal⟩) | ⟨reference, inside, rfl⟩
      · rfl
      · have accepted := valid.1.1.1 _ literal
        simp only [Piece.valid, Bool.and_eq_true] at accepted
        exact accepted.1.1.1
      · exact Reference.isChar_value (valid.1.1.1 _ inside)
    · exact ih valid.2 c later
  | cdata body next ih =>
    simp only [Content.valid, validCdata, Bool.and_eq_true, List.all_eq_true] at valid
    intro c member
    rcases List.mem_append.mp member with here | later
    · rcases mem_normalizeLines here with rfl | ⟨-, literal⟩
      · rfl
      · exact valid.1.1 c literal
    · exact ih valid.2 c later
  | comment body next ih | pi target body next ih | empty tag next ih =>
    simp only [Content.valid, Bool.and_eq_true] at valid
    exact ih valid.2
  | element tag inner endSpace next _ ih =>
    simp only [Content.valid, Bool.and_eq_true] at valid
    exact ih valid.2

/-- A carriage return in character data is written as a character reference. -/
theorem reference_of_return {content : Content} (member : '\r' ∈ content.charData) :
    ['&', '#'] <:+: content.render := by
  induction content with
  | nil => simp [charData] at member
  | text pieces next ih =>
    rcases List.mem_append.mp member with here | later
    · rcases mem_pieceChars here with (same | ⟨other, -⟩) | ⟨reference, inside, same⟩
      · exact absurd same (by decide)
      · exact absurd rfl other
      · have written : ['&', '#'] <:+: reference.render := by
          cases reference with
          | entity name => cases name <;> exact absurd same (by decide)
          | decimal digits => exact ⟨[], digits ++ [';'], by simp [Reference.render]⟩
          | hex digits => exact ⟨[], 'x' :: digits ++ [';'], by simp [Reference.render]⟩
        obtain ⟨front, back, rfl⟩ := List.append_of_mem inside
        refine written.trans ⟨renderPieces front, renderPieces back ++ next.render, ?_⟩
        simp [render, renderPieces, Piece.render]
    · exact (ih later).trans (List.suffix_append _ _).isInfix
  | cdata body next ih =>
    rcases List.mem_append.mp member with here | later
    · rcases mem_normalizeLines here with same | ⟨other, -⟩
      · exact absurd same (by decide)
      · exact absurd rfl other
    · exact (ih later).trans (List.suffix_append _ _).isInfix
  | comment body next ih | pi target body next ih | empty tag next ih
  | element tag inner endSpace next _ ih =>
    exact (ih member).trans (List.suffix_append _ _).isInfix

theorem elements_valid {content : Content} (valid : content.valid = true) :
    ∀ elem ∈ content.elements, elem.tag.valid = true ∧ elem.inner.valid = true := by
  induction content with
  | nil => simp [elements]
  | text pieces next ih | comment text next ih | pi target text next ih | cdata text next ih =>
    simp only [Content.valid, Bool.and_eq_true] at valid
    exact ih valid.2
  | empty tag next ih =>
    simp only [Content.valid, Bool.and_eq_true] at valid
    intro elem member
    rcases List.mem_cons.mp member with rfl | later
    · exact ⟨valid.1, rfl⟩
    · exact ih valid.2 elem later
  | element tag inner endSpace next _ ih =>
    simp only [Content.valid, Bool.and_eq_true] at valid
    intro elem member
    rcases List.mem_cons.mp member with rfl | later
    · exact ⟨valid.1.1.1, valid.1.1.2⟩
    · exact ih valid.2 elem later

/-- What is written inside a child element is written inside its parent. -/
theorem elements_infix {content : Content} :
    ∀ elem ∈ content.elements, elem.inner.render <:+: content.render := by
  induction content with
  | nil => simp [elements]
  | text pieces next ih | comment text next ih | pi target text next ih | cdata text next ih =>
    intro elem member
    exact (ih elem member).trans (List.suffix_append _ _).isInfix
  | empty tag next ih =>
    intro elem member
    rcases List.mem_cons.mp member with rfl | later
    · exact List.nil_infix
    · exact (ih elem later).trans (List.suffix_append _ _).isInfix
  | element tag inner endSpace next _ ih =>
    intro elem member
    rcases List.mem_cons.mp member with rfl | later
    · refine ⟨renderStart tag, renderEnd tag.name endSpace ++ next.render, ?_⟩
      simp [render]
    · exact (ih elem later).trans (List.suffix_append _ _).isInfix

end Content

/-- The root element of a document. -/
def Document.rootElement (document : Document) : Option Elem := document.root.elements.head?

private theorem exists_markup_root {content : Content} (root : content.isRoot = true)
    (tail : List Char) :
    ∃ rest, content.render ++ tail = '<' :: rest := by
  unfold Content.isRoot at root
  split at root
  · exact ⟨_, rfl⟩
  · exact ⟨_, rfl⟩
  · cases root

private theorem exists_markup_misc {content : Content} (misc : content.isMisc = true)
    (apart : content.startsWithText = false) {rest : List Char} :
    ∃ later, content.render ++ '<' :: rest = '<' :: later := by
  cases content with
  | nil | comment | pi => exact ⟨_, rfl⟩
  | text => cases apart
  | cdata | empty | element => cases misc

/-- A document is white space and then markup. -/
theorem Document.exists_markup {document : Document} (valid : document.valid = true) :
    ∃ space rest, document.render = space ++ '<' :: rest ∧ ∀ c ∈ space, isSpace c = true := by
  simp only [Document.valid, Bool.and_eq_true] at valid
  obtain ⟨⟨⟨⟨⟨⟨-, misc⟩, prolog⟩, whole⟩, -⟩, -⟩, -⟩ := valid
  obtain ⟨rest, starts⟩ := exists_markup_root whole document.epilog.render
  rw [Document.render, List.append_assoc, starts]
  cases declared : document.declaration with
  | some declaration =>
    simp only [renderDeclaration, declared, Declaration.render, List.cons_append]
    exact ⟨[], _, rfl, by simp⟩
  | none =>
    rw [renderDeclaration, declared]
    cases first : document.prolog with
    | text pieces next =>
      simp only [first, Content.isMisc, Content.valid, Bool.and_eq_true,
        Bool.not_eq_true'] at misc prolog
      obtain ⟨later, follows⟩ := @exists_markup_misc next misc.2 prolog.1.2 rest
      refine ⟨renderPieces pieces, later, ?_, ?_⟩
      · simp [Content.render, follows]
      · intro c member
        obtain ⟨piece, inside, written⟩ := List.mem_flatMap.mp member
        have blank := List.all_eq_true.mp misc.1 piece inside
        cases piece with
        | char d =>
          simp only [Piece.render, List.mem_singleton] at written
          exact written ▸ blank
        | ref => cases blank
    | nil | comment | pi | cdata | empty | element =>
      rw [first] at misc
      obtain ⟨later, follows⟩ := exists_markup_misc misc rfl
      exact ⟨[], later, by simpa using follows, by simp⟩

end OaGateway.Lib.Xml
