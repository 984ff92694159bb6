import OaGateway.Lib.Xml.Depth

/-! The guard in front of the UCI XML reader: nesting is bounded on the text,
before a parser recurses into it. -/
namespace OaGateway.Uci

open Lib Lib.Xml

/-- Comments, character data sections and processing instructions are skipped. -/
def nestingExceeds (text : String) (limit : Nat) : Bool :=
  exceeds [.comment, .cdata, .pi] limit (utf8 text) 0

theorem nestingExceeds_ofList (text : List Char) (limit : Nat) :
    nestingExceeds (.ofList text) limit = exceeds [.comment, .cdata, .pi] limit
      (encode text) 0 := by
  simp [nestingExceeds, utf8]

/-- A valid section is transparent to this scan wherever it stands. -/
theorem cdataTransparent_of_valid {content : Content} (valid : content.valid = true) (limit : Nat) :
    CdataTransparent [.comment, .cdata, .pi] limit content.cdatas := by
  intro body member
  refine Transparent.cdata ?_
  induction content with
  | nil => cases member
  | text pieces next ih | comment text next ih | pi target text next ih | empty tag next ih =>
    simp only [Content.valid, Bool.and_eq_true] at valid
    exact ih valid.2 member
  | cdata text next ih =>
    simp only [Content.valid, Bool.and_eq_true] at valid
    rcases List.mem_cons.mp member with rfl | later
    · exact valid.1
    · exact ih valid.2 later
  | element tag inner endSpace next ihInner ihNext =>
    simp only [Content.valid, Bool.and_eq_true] at valid
    rcases List.mem_append.mp member with inside | later
    · exact ihInner valid.1.1.2 inside
    · exact ihNext valid.2 later

private theorem cdatasBefore_subset (content : Content) (read : Nat) :
    content.cdatasBefore read ⊆ content.cdatas := by
  induction content generalizing read with
  | nil => exact List.Subset.refl _
  | text pieces next ih | comment text next ih | pi target text next ih | empty tag next ih =>
    exact ih _
  | cdata text next ih =>
    simp only [Content.cdatasBefore, Content.cdatas]
    refine List.append_subset.mpr ⟨?_, List.Subset.trans (ih _) (List.subset_cons_self _ _)⟩
    split <;> simp
  | element tag inner endSpace next ihInner ihNext =>
    exact List.append_subset.mpr
      ⟨List.Subset.trans (ihInner _) (List.subset_append_left _ _),
        List.Subset.trans (ihNext _) (List.subset_append_right _ _)⟩

/-- On a well-formed document the guard finds exactly the elements too deep. -/
theorem nestingExceeds_document {document : Document} (valid : document.valid = true)
    (limit : Nat) :
    nestingExceeds (.ofList document.render) limit = document.depths.any (limit < ·) := by
  have root : document.root.valid = true := by
    simp only [Document.valid, Bool.and_eq_true] at valid
    exact valid.1.1.2
  rw [nestingExceeds_ofList]
  exact exceeds_document skips_with_cdata valid (cdataTransparent_of_valid root limit)

/-- Exact on every well-formed document, and true of every text that begins
like a well-formed document with more than `limit` elements open. -/
theorem nestingExceeds_iff_depth (document : Document) (valid : document.valid = true)
    (limit : Nat) : (nestingExceeds (.ofList document.render) limit = true ↔
      ∃ depth ∈ document.depths, limit < depth) ∧
    ∀ (text : String) (shared : List Char), shared <+: document.render → shared <+: text.toList →
      limit < document.openAt shared.length → nestingExceeds text limit = true := by
  have root : document.root.valid = true := by
    simp only [Document.valid, Bool.and_eq_true] at valid
    exact valid.1.1.2
  have sections := cdataTransparent_of_valid root limit
  constructor
  · simp [nestingExceeds_document valid]
  · intro text shared ofDocument ofText deep
    exact exceeds_of_prefix skips_with_cdata valid (sections.of_subset (cdatasBefore_subset _ _))
      ofDocument ofText deep

/-- `<a x="/>"><![CDATA[><b>]]><!-- <c> --><b/></a>` -/
def sampleDocument : Document where
  declaration := none
  prolog := .nil
  root := .element ⟨['a'], [⟨[' '], ['x'], [], [], .double, [.char '/', .char '>']⟩], []⟩
    (.cdata ['>', '<', 'b', '>'] (.comment [' ', '<', 'c', '>', ' '] (.empty ⟨['b'], [], []⟩ .nil)))
      [] .nil
  epilog := .nil

theorem nestingExceeds_sampleDocument :
    (nestingExceeds (.ofList sampleDocument.render) 1 = true ↔
      ∃ depth ∈ sampleDocument.depths, 1 < depth) ∧
      nestingExceeds "<a x=\"/>\"><![CDATA[><b>]]><!-- <c> --><b unfinished" 1 = true := by
  have guarded := nestingExceeds_iff_depth sampleDocument (by decide) 1
  exact ⟨guarded.1, guarded.2 _ (sampleDocument.render.take 40) (by decide) (by decide) (by decide)⟩

end OaGateway.Uci
