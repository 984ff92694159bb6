import OaGateway.Lib.Xml.Depth

/-! The guard in front of the wrapper parser. Its scan has no case for a
character data section, which it skips like a declaration: to the next `>`. -/
namespace OaGateway.Agra

open Lib Lib.Xml

def maxWrapperDepth : Nat := 64

def nestingExceeds (text : String) (limit : Nat) : Bool :=
  exceeds [.comment, .pi] limit (utf8 text) 0

/-- Parse `xml` unless the scan finds it too deep. What the parser returns is
an argument: it recurses without a bound of its own. -/
def parseChecked {Tree : Type} (parse : String → Option Tree) (xml : String) : Option Tree :=
  if nestingExceeds xml maxWrapperDepth then none else parse xml

/-- The section shows the scanner a `<` after a `>`: the scanner, which left
the section at that `>`, takes it for markup. -/
def hidesMarkup (body : List Char) : Bool := (body.dropWhile (· != '>')).contains '<'

/-- A declaration-shaped construct that is no comment is skipped to its first `>`. -/
theorem exceeds_declaration {front : List Char} (notComment : front.head? ≠ some '-')
    (closed : '>' ∉ front) (rest : Bytes) (limit depth : Nat) :
    exceeds [.comment, .pi] limit (encode (['<', '!'] ++ front ++ ['>']) ++ rest) depth =
      exceeds [.comment, .pi] limit rest depth := by
  have absent : byte '>' ∉ byte '!' :: encode front := by
    rw [List.mem_cons, byte_mem_encode (by decide)]
    rintro (bang | inside)
    · exact absurd bang (by decide)
    · exact closed inside
  have split : encode (['<', '!'] ++ front ++ ['>']) ++ rest =
      byte '<' :: ((byte '!' :: encode front) ++ byte '>' :: rest) := by
    simp [encode_cons, utf8EncodeChar_ascii]
  have comment : skipPast ((byte '!' :: encode front) ++ byte '>' :: rest) .comment = none := by
    refine skipPast_of_not_prefix fun starts => ?_
    have dashes : byte '-' :: [byte '-'] <+: encode front ++ byte '>' :: rest := by
      simpa [Construct.comment] using starts
    cases front with
    | nil =>
      rw [encode_nil, List.nil_append, List.cons_prefix_cons] at dashes
      exact absurd dashes.1 (by decide)
    | cons c front =>
      have different : '-' ≠ c := by
        rintro rfl
        exact notComment rfl
      have head := head_encode (a := '-') (by decide) different front (byte '>' :: rest)
      obtain ⟨tail, same⟩ := dashes
      exact head (by rw [← same]; rfl)
  have pi : skipPast ((byte '!' :: encode front) ++ byte '>' :: rest) .pi = none := by
    refine skipPast_of_not_prefix fun starts => ?_
    have question : byte '?' = byte '!' := by simpa [Construct.pi] using starts
    exact absurd question (by decide)
  have left : ((byte '!' :: encode front) ++ byte '>' :: rest).drop
      ((byte '!' :: encode front).length + 1) = rest := by
    rw [← List.drop_drop, List.drop_left]
    rfl
  rw [split, exceeds_cons, if_neg (by simp)]
  simp only [List.findSome?, comment, pi, pastClose_append absent, left]
  simp

/-- A section that shows no `<` after a `>` is passed without harm. -/
theorem transparent_cdata {body : List Char} (harmless : hidesMarkup body = false) (limit : Nat) :
    Transparent [.comment, .pi] limit (Content.renderCdata body) := by
  -- The first `>` is in the body or closes the section; no `<` follows it either way.
  obtain ⟨front, after, split, closed, plain⟩ : ∃ front after, Content.renderCdata body =
      (['<', '!'] ++ ('[' :: front) ++ ['>']) ++ after ∧ '>' ∉ '[' :: front ∧ '<' ∉ after := by
    have parts : body.takeWhile (· != '>') ++ body.dropWhile (· != '>') = body :=
      List.takeWhile_append_dropWhile
    have outside : '>' ∉ body.takeWhile (· != '>') := by
      intro inside
      simpa using List.all_eq_true.mp List.all_takeWhile _ inside
    cases tail : body.dropWhile (· != '>') with
    | nil =>
      rw [tail, List.append_nil] at parts
      rw [parts] at outside
      exact ⟨['C', 'D', 'A', 'T', 'A', '['] ++ body ++ [']', ']'],
        [], by simp [Content.renderCdata],
        by simp [outside], by simp⟩
    | cons first post =>
      have shown : first = '>' := by
        have stopped := List.head_dropWhile_not (l := body) (· != '>') (by simp [tail])
        simpa [tail] using stopped
      subst shown
      have plain : '<' ∉ post := by
        simpa [hidesMarkup, tail] using harmless
      refine ⟨['C', 'D', 'A', 'T', 'A', '['] ++ body.takeWhile (· != '>'),
        post ++ [']', ']', '>'], ?_,
        by simp [outside], by simp [plain]⟩
      rw [tail] at parts
      generalize body.takeWhile (· != '>') = before at parts
      rw [Content.renderCdata, ← parts]
      simp
  intro rest depth
  rw [split, encode_append, List.append_assoc, exceeds_declaration (by simp) closed,
    Transparent.plain plain]

/-- While the sections read so far show no `<` after a `>`, a text that begins
like a well-formed document never nests deeper than the guard says, and the
parser is not reached past the limit. -/
theorem nestingExceeds_of_open (document : Document) (valid : document.valid = true) (text : String)
    (shared : List Char) (ofDocument : shared <+: document.render) (ofText : shared <+: text.toList)
    (harmless : ∀ body ∈ document.cdatasBefore shared.length, hidesMarkup body = false) :
    (∀ limit, limit < document.openAt shared.length → nestingExceeds text limit = true) ∧
    ∀ (Tree : Type) (parse : String → Option Tree),
      maxWrapperDepth < document.openAt shared.length →
      parseChecked parse text = none := by
  have guarded (limit : Nat) (deep : limit < document.openAt shared.length) :
      nestingExceeds text limit = true := by
    refine exceeds_of_prefix skips_without_cdata valid ?_ ofDocument ofText deep
    exact fun body member => transparent_cdata (harmless body member) limit
  refine ⟨guarded, fun Tree parse deep => ?_⟩
  rw [parseChecked, if_pos (guarded _ deep)]

/-- `<a><![CDATA[>]]><b/></a>`: the section ends at its own `>`. -/
def harmlessDocument : Document where
  declaration := none
  prolog := .nil
  root := .element ⟨['a'], [], []⟩ (.cdata ['>'] (.empty ⟨['b'], [], []⟩ .nil)) [] .nil
  epilog := .nil

theorem nestingExceeds_harmlessDocument :
    harmlessDocument.openAt 18 = 2 ∧ nestingExceeds "<a><![CDATA[>]]><bad" 1 = true :=
  ⟨by decide, (nestingExceeds_of_open harmlessDocument (by decide) "<a><![CDATA[>]]><bad"
    (harmlessDocument.render.take 18) (by decide) (by decide) (by decide)).1 1 (by decide)⟩

/-- `<a><![CDATA[></a>]]><b/></a>`: the section holds an end tag after a `>`. -/
def hidingDocument : Document where
  declaration := none
  prolog := .nil
  root := .element ⟨['a'], [], []⟩
    (.cdata ['>', '<', '/', 'a', '>'] (.empty ⟨['b'], [], []⟩ .nil)) [] .nil
  epilog := .nil

/-- Two elements are open inside `<b/>`, and a limit of one is not exceeded. -/
theorem nestingExceeds_hidingDocument :
    hidingDocument.valid = true ∧ hidingDocument.render = "<a><![CDATA[></a>]]><b/></a>".toList ∧
      1 < hidingDocument.openAt 22 ∧ nestingExceeds "<a><![CDATA[></a>]]><b/></a>" 1 = false := by
  decide

end OaGateway.Agra
