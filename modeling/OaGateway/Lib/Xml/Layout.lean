import OaGateway.Lib.Xml.Infoset
import OaGateway.Lib.Xml.Skip

/-! Writing documents: elements put in front of the content after them, and
child elements laid out one to a line. -/
namespace OaGateway.Lib.Xml
universe u

theorem isChar_of_isNameChar {c : Char} (named : isNameChar c = true) : isChar c = true := by
  simp only [isNameChar, isNameStart, within, List.any_cons, List.any_nil, Bool.or_false,
    Bool.or_eq_true, Bool.and_eq_true, decide_eq_true_eq] at named
  simp only [isChar, Bool.or_eq_true, Bool.and_eq_true, decide_eq_true_eq]
  omega

theorem isNameChar_of_isName {name : List Char} (named : isName name = true) :
    ∀ c ∈ name, isNameChar c = true := by
  intro c member
  by_contra refused
  exact notMem_of_isName named (Bool.of_not_eq_true refused) member

theorem renderPieces_chars (text : List Char) : renderPieces (text.map .char) = text := by
  induction text with
  | nil => rfl
  | cons c text ih =>
    rw [renderPieces] at ih ⊢
    simp [Piece.render, ih]

/-- `wrap` puts one element, written as `text`, in front of other content. -/
structure Wraps (wrap : Content → Content) (elem : Elem) (text : List Char) : Prop where
  render : ∀ next, (wrap next).render = text ++ next.render
  elements : ∀ next, (wrap next).elements = elem :: next.elements
  valid : ∀ next, next.valid = true → (wrap next).valid = true
  separates : ∀ next, (wrap next).startsWithText = false
  root : (wrap .nil).isRoot = true

theorem Wraps.empty {tag : Tag} (valid : tag.valid = true) :
    Wraps (.empty tag) ⟨tag, .nil⟩ (Content.renderEmpty tag) where
  render _ := rfl
  elements _ := rfl
  valid next later := by simp [Content.valid, valid, later]
  separates _ := rfl
  root := rfl

theorem Wraps.element {tag : Tag} {inner : Content} (valid : tag.valid = true)
    (below : inner.valid = true) :
    Wraps (.element tag inner []) ⟨tag, inner⟩
      (Content.renderStart tag ++ inner.render ++ Content.renderEnd tag.name []) where
  render _ := rfl
  elements _ := rfl
  valid next later := by simp [Content.valid, valid, below, later]
  separates _ := rfl
  root := rfl

/-- White space between elements. -/
def gap (space : List Char) (next : Content) : Content := .text (('\n' :: space).map .char) next

theorem render_gap (space : List Char) (next : Content) :
    (gap space next).render = '\n' :: space ++ next.render := by
  rw [gap, Content.render, renderPieces_chars]

theorem gap_valid {space : List Char} {next : Content} (blank : space.all isSpace = true)
    (apart : next.startsWithText = false) (later : next.valid = true) :
    (gap space next).valid = true := by
  have all : ∀ c ∈ '\n' :: space, isSpace c = true := by
    simpa [isSpace] using blank
  have pieces : (('\n' :: space).map Piece.char).all (Piece.valid []) = true := by
    rw [List.all_map, List.all_eq_true]
    intro c member
    have known := all c member
    simp only [isSpace, Bool.or_eq_true, beq_iff_eq] at known
    rcases known with ((rfl | rfl) | rfl) | rfl <;> rfl
  have bracket : ']' ∉ '\n' :: space := fun member => absurd (all _ member) (by decide)
  have closes : occurs [']', ']', '>'] ('\n' :: space) = false := by
    have whole := @occurs_append_of_notMem ']' [']', '>'] _ [] bracket
    rw [List.append_nil] at whole
    exact whole
  rw [gap, Content.valid, pieces, renderPieces_chars, closes, apart, later]
  rfl

/-- Elements one to a line, each behind `inner`, and `outer` before what closes
their parent. -/
def lines (inner outer : List Char) (wraps : List (Content → Content)) : Content :=
  wraps.foldr (fun wrap next => gap inner (wrap next)) (gap outer .nil)

section Lines
variable {Item : Type u} {wrapOf : Item → Content → Content} {inner outer : List Char}
  {items : List Item}

theorem render_lines {texts : List (List Char)}
    (each : List.Forall₂ (fun item text =>
      ∀ next, inner ++ (wrapOf item next).render = text ++ next.render)
      items texts) :
    (lines inner outer (items.map wrapOf)).render = '\n' ::
      texts.flatMap (· ++ ['\n']) ++ outer := by
  induction each with
  | nil => simp [lines, render_gap, Content.render]
  | cons here _ ih =>
    rw [List.map_cons, lines, List.foldr_cons, ← lines, render_gap, List.cons_append, here, ih]
    simp

theorem elements_lines {elemOf : Item → Elem}
    (each : ∀ item ∈ items, ∀ next, (wrapOf item next).elements = elemOf item :: next.elements) :
    (lines inner outer (items.map wrapOf)).elements = items.map elemOf := by
  induction items with
  | nil => rfl
  | cons item rest ih =>
    obtain ⟨here, later⟩ := List.forall_mem_cons.mp each
    rw [List.map_cons, lines, List.foldr_cons, ← lines, gap, Content.elements, here,
      ih later, List.map_cons]

theorem lines_valid (blank : inner.all isSpace = true) (last : outer.all isSpace = true)
    (each : ∀ item ∈ items, ∃ elem text, Wraps (wrapOf item) elem text) :
    (lines inner outer (items.map wrapOf)).valid = true := by
  induction items with
  | nil => exact gap_valid last rfl rfl
  | cons item rest ih =>
    obtain ⟨⟨elem, text, here⟩, later⟩ := List.forall_mem_cons.mp each
    rw [List.map_cons, lines, List.foldr_cons, ← lines]
    exact gap_valid blank (here.separates _) (here.valid _ (ih later))

end Lines

end OaGateway.Lib.Xml
