import OaGateway.Lib.Xml.Skip

/-! The scanner against the grammar: exact on a well-formed document, and
never low on a text that begins like one. -/
namespace OaGateway.Lib.Xml

namespace Content

/-- The character data sections of some content. -/
def cdatas : Content → List (List Char)
  | nil => []
  | text _ next | comment _ next | pi _ _ next | empty _ next => next.cdatas
  | cdata body next => body :: next.cdatas
  | element _ inner _ next => inner.cdatas ++ next.cdatas

/-- The sections that end within the first `read` characters. -/
def cdatasBefore (read : Nat) : Content → List (List Char)
  | nil => []
  | text pieces next => next.cdatasBefore (read - (renderPieces pieces).length)
  | comment body next => next.cdatasBefore (read - (renderComment body).length)
  | pi target body next => next.cdatasBefore (read - (renderPi target body).length)
  | cdata body next =>
    (if (renderCdata body).length ≤ read then [body] else []) ++
      next.cdatasBefore (read - (renderCdata body).length)
  | empty tag next => next.cdatasBefore (read - (renderEmpty tag).length)
  | element tag inner endSpace next =>
    inner.cdatasBefore (read - (renderStart tag).length) ++
      next.cdatasBefore
        (read - (renderStart tag ++ inner.render ++ renderEnd tag.name endSpace).length)

theorem cdatasBefore_end (content : Content) (read : Nat) (past : content.render.length ≤ read) :
    content.cdatasBefore read = content.cdatas := by
  induction content generalizing read with
  | nil => rfl
  | text pieces next ih | comment body next ih | pi target body next ih | empty tag next ih =>
    simp only [render, List.length_append] at past
    exact ih _ (by omega)
  | cdata body next ih =>
    simp only [render, List.length_append] at past
    simp only [cdatasBefore, cdatas,
      ih _ (show next.render.length ≤ read - (renderCdata body).length by omega)]
    rw [if_pos (by omega)]
    rfl
  | element tag inner endSpace next ihInner ihNext =>
    simp only [render, List.length_append] at past
    simp only [cdatasBefore, cdatas, List.length_append]
    rw [ihInner _ (by omega), ihNext _ (by omega)]

@[simp] theorem openAt_zero (content : Content) : content.openAt 0 = 0 := by
  induction content <;> simp_all [openAt]

/-- Nothing is open once everything is read. -/
theorem openAt_end (content : Content) (read : Nat) (past : content.render.length ≤ read) :
    content.openAt read = 0 := by
  induction content generalizing read with
  | nil => rfl
  | text pieces next ih | comment body next ih | pi target body next ih | cdata body next ih =>
    simp only [render, List.length_append] at past
    simp only [openAt]
    exact ih _ (by omega)
  | empty tag next ih =>
    simp only [render, List.length_append] at past
    simp only [openAt, ih _ (show next.render.length ≤ read - (renderEmpty tag).length by omega)]
    rw [if_neg (by omega)]
  | element tag inner endSpace next ihInner ihNext =>
    simp only [render, List.length_append] at past
    simp only [openAt, List.length_append,
      ihInner _ (show inner.render.length ≤ read - (renderStart tag).length by omega),
      ihNext _ (show next.render.length ≤ read - ((renderStart tag).length + inner.render.length +
        (renderEnd tag.name endSpace).length) by omega)]
    rw [if_neg (by omega)]

end Content

section Content
variable {constructs : List Construct} {limit : Nat}

/-- Character data sections that do not disturb the scan. -/
def CdataTransparent (constructs : List Construct) (limit : Nat)
    (sections : List (List Char)) : Prop :=
  ∀ body ∈ sections, Transparent constructs limit (Content.renderCdata body)

theorem CdataTransparent.of_subset {some all : List (List Char)}
    (sections : CdataTransparent constructs limit all) (subset : some ⊆ all) :
    CdataTransparent constructs limit some :=
  fun body member => sections body (subset member)

private theorem plain_of_valid {pieces : List Piece} (valid : pieces.all (Piece.valid []) = true) :
    '<' ∉ renderPieces pieces :=
  notMem_renderPieces valid (by decide) (by decide) (.inl rfl)

theorem exceeds_content (skips : Skips constructs) {content : Content}
    (valid : content.valid = true) (sections : CdataTransparent constructs limit content.cdatas)
    (rest : Bytes) (depth : Nat) :
    exceeds constructs limit (encode content.render ++ rest) depth =
      ((content.depths depth).any (limit < ·) || exceeds constructs limit rest depth) := by
  induction content generalizing rest depth with
  | nil => simp [Content.render, Content.depths]
  | text pieces next ih =>
    simp only [Content.valid, Bool.and_eq_true] at valid
    rw [Content.render, encode_append, List.append_assoc,
      Transparent.plain (plain_of_valid valid.1.1.1)]
    exact ih valid.2 sections rest depth
  | comment body next ih =>
    simp only [Content.valid, Bool.and_eq_true] at valid
    rw [Content.render, encode_append, List.append_assoc, Transparent.comment skips valid.1]
    exact ih valid.2 sections rest depth
  | pi target body next ih =>
    simp only [Content.valid, Bool.and_eq_true] at valid
    rw [Content.render, encode_append, List.append_assoc, Transparent.pi skips valid.1]
    exact ih valid.2 sections rest depth
  | cdata body next ih =>
    simp only [Content.valid, Bool.and_eq_true] at valid
    rw [Content.render, encode_append, List.append_assoc, sections body (by simp [Content.cdatas])]
    exact ih valid.2 (sections.of_subset (by simp [Content.cdatas])) rest depth
  | empty tag next ih =>
    simp only [Content.valid, Bool.and_eq_true] at valid
    rw [Content.render, encode_append, List.append_assoc, exceeds_empty skips valid.1,
      ih valid.2 sections rest depth]
    simp [Content.depths, Bool.or_assoc]
  | element tag inner endSpace next ihInner ihNext =>
    simp only [Content.valid, Bool.and_eq_true] at valid
    obtain ⟨⟨⟨tagValid, innerValid⟩, spaced⟩, nextValid⟩ := valid
    have named : isName tag.name = true := Tag.isName_of_valid tagValid
    have inInner : CdataTransparent constructs limit inner.cdatas :=
      sections.of_subset (by simp [Content.cdatas])
    have inNext : CdataTransparent constructs limit next.cdatas :=
      sections.of_subset (by simp [Content.cdatas])
    simp only [Content.render, encode_append, List.append_assoc]
    rw [exceeds_start skips tagValid, ihInner innerValid inInner, exceeds_end skips named spaced,
      ihNext nextValid inNext]
    simp [Content.depths, Bool.or_assoc]

/-- A text that begins with `read` characters of `front ++ back` and goes past
`front` begins with `front`. -/
private theorem prefix_split {front back text : List Char} {read : Nat} (long : front.length ≤ read)
    (agree : (front ++ back).take read <+: text) :
    ∃ left, text = front ++ left ∧ back.take (read - front.length) <+: left := by
  obtain ⟨tail, rfl⟩ := agree
  refine ⟨back.take (read - front.length) ++ tail, ?_, List.prefix_append _ _⟩
  rw [List.take_append, List.take_of_length_le long, List.append_assoc]

/-- A text that begins like a tag, cut after at least its first name character,
counts the tag. -/
private theorem exceeds_cut_tag (skips : Skips constructs) {tag : Tag} (valid : tag.valid = true)
    {back text : List Char} {read depth : Nat} (begun : 2 ≤ read)
    (agree : (('<' :: tag.render) ++ back).take read <+: text) (deep : limit < depth + 1) :
    exceeds constructs limit (encode text) depth = true := by
  obtain ⟨c, more, split, starts⟩ := isNameStart_of_valid valid
  obtain ⟨tail, rfl⟩ := agree
  obtain ⟨extra, rfl⟩ : ∃ extra, read = extra + 2 := ⟨read - 2, by omega⟩
  rw [split, List.cons_append, List.cons_append, List.take_succ_cons, List.take_succ_cons]
  have scanned := @exceeds_tag constructs limit skips c starts
    ((more ++ back).take extra ++ tail) [] depth
  simp only [List.append_nil] at scanned
  rw [List.cons_append, List.cons_append, scanned, if_pos deep]

/-- A front with nothing open in it is passed whole, or the count is still zero. -/
private theorem exceeds_past {front : List Char} {next : Content} {text : List Char}
    {read depth : Nat} (transparent : front.length ≤ read → Transparent constructs limit front)
    (ih : ∀ left, next.render.take (read - front.length) <+: left →
      exceeds constructs limit (encode left) depth = true)
    (agree : (front ++ next.render).take read <+: text) (shallow : depth ≤ limit)
    (deep : limit < depth + next.openAt (read - front.length)) :
    exceeds constructs limit (encode text) depth = true := by
  by_cases long : front.length ≤ read
  · obtain ⟨left, rfl, onward⟩ := prefix_split long agree
    rw [encode_append, transparent long]
    exact ih left onward
  · rw [show read - front.length = 0 by omega, Content.openAt_zero] at deep
    omega

theorem exceeds_of_open (skips : Skips constructs) {content : Content}
    (valid : content.valid = true) {text : List Char} {read depth : Nat}
    (sections : CdataTransparent constructs limit (content.cdatasBefore read))
    (agree : content.render.take read <+: text) (shallow : depth ≤ limit)
    (deep : limit < depth + content.openAt read) :
    exceeds constructs limit (encode text) depth = true := by
  induction content generalizing text read depth with
  | nil =>
    simp only [Content.openAt] at deep
    omega
  | text pieces next ih =>
    simp only [Content.valid, Bool.and_eq_true] at valid
    exact exceeds_past (fun _ => .plain (plain_of_valid valid.1.1.1))
      (fun _ onward => ih valid.2 sections onward shallow deep) agree shallow deep
  | comment body next ih =>
    simp only [Content.valid, Bool.and_eq_true] at valid
    exact exceeds_past (fun _ => .comment skips valid.1)
      (fun _ onward => ih valid.2 sections onward shallow deep) agree shallow deep
  | pi target body next ih =>
    simp only [Content.valid, Bool.and_eq_true] at valid
    exact exceeds_past (fun _ => .pi skips valid.1)
      (fun _ onward => ih valid.2 sections onward shallow deep) agree shallow deep
  | cdata body next ih =>
    simp only [Content.valid, Bool.and_eq_true] at valid
    have here (long : (Content.renderCdata body).length ≤ read) :
        Transparent constructs limit (Content.renderCdata body) :=
      sections body (by simp [Content.cdatasBefore, long])
    have later : CdataTransparent constructs limit
        (next.cdatasBefore (read - (Content.renderCdata body).length)) :=
      sections.of_subset (by simp [Content.cdatasBefore])
    exact exceeds_past here (fun _ onward => ih valid.2 later onward shallow deep)
      agree shallow deep
  | empty tag next ih =>
    simp only [Content.valid, Bool.and_eq_true] at valid
    simp only [Content.openAt] at deep
    simp only [Content.render] at agree
    by_cases long : (Content.renderEmpty tag).length ≤ read
    · rw [if_neg (by omega)] at deep
      obtain ⟨left, rfl, onward⟩ := prefix_split long agree
      have later := ih valid.2 sections onward shallow (show limit < depth + next.openAt _ by omega)
      rw [encode_append, exceeds_empty skips valid.1, later, Bool.or_true]
    · rw [show read - (Content.renderEmpty tag).length = 0 by omega, Content.openAt_zero] at deep
      have begun : 2 ≤ read := by
        by_contra early
        rw [if_neg (by omega)] at deep
        omega
      rw [if_pos ⟨begun, by omega⟩] at deep
      rw [Content.renderEmpty, List.append_assoc] at agree
      exact exceeds_cut_tag skips valid.1 begun agree (by omega)
  | element tag inner endSpace next ihInner ihNext =>
    simp only [Content.valid, Bool.and_eq_true] at valid
    obtain ⟨⟨⟨tagValid, innerValid⟩, spaced⟩, nextValid⟩ := valid
    have named : isName tag.name = true := Tag.isName_of_valid tagValid
    have inInner : CdataTransparent constructs limit
        (inner.cdatasBefore (read - (Content.renderStart tag).length)) :=
      sections.of_subset (by simp [Content.cdatasBefore])
    have inNext : CdataTransparent constructs limit (next.cdatasBefore (read -
        (Content.renderStart tag ++ inner.render ++ Content.renderEnd tag.name endSpace).length)) :=
      sections.of_subset (by simp [Content.cdatasBefore])
    rw [List.length_append, List.length_append] at inNext
    have twoLong : 2 ≤ (Content.renderStart tag).length := by simp [Content.renderStart]
    simp only [Content.openAt, List.length_append] at deep
    simp only [Content.render] at agree
    by_cases counted : limit < depth + 1
    · -- The element itself is one too many, and its start tag is enough to see it.
      have begun : 2 ≤ read := by
        by_contra early
        rw [if_neg (by omega), show read - (Content.renderStart tag).length = 0 by omega,
          show read - ((Content.renderStart tag).length + inner.render.length +
            (Content.renderEnd tag.name endSpace).length) = 0 by omega] at deep
        simp only [Content.openAt_zero] at deep
        omega
      rw [Content.renderStart, List.append_assoc, List.append_assoc, List.append_assoc] at agree
      exact exceeds_cut_tag skips tagValid begun agree counted
    · have entered : (Content.renderStart tag).length ≤ read := by
        by_contra early
        rw [show read - (Content.renderStart tag).length = 0 by omega,
          show read - ((Content.renderStart tag).length + inner.render.length +
            (Content.renderEnd tag.name endSpace).length) = 0 by omega] at deep
        simp only [Content.openAt_zero] at deep
        split at deep <;> omega
      rw [List.append_assoc, List.append_assoc] at agree
      obtain ⟨left, rfl, onward⟩ := prefix_split entered agree
      rw [encode_append, exceeds_start skips tagValid, decide_eq_false counted, Bool.false_or]
      rw [← List.append_assoc] at onward
      by_cases finished : (Content.renderStart tag).length + inner.render.length +
          (Content.renderEnd tag.name endSpace).length ≤ read
      · have closed : (inner.render ++ Content.renderEnd tag.name endSpace).length ≤
            read - (Content.renderStart tag).length := by
          rw [List.length_append]
          omega
        obtain ⟨after, rfl, later⟩ := prefix_split closed onward
        rw [if_neg (by omega), Content.openAt_end inner _ (by omega)] at deep
        rw [Content.cdatasBefore_end inner _ (by omega)] at inInner
        rw [List.length_append, Nat.sub_sub, ← Nat.add_assoc] at later
        rw [encode_append, encode_append, List.append_assoc,
          exceeds_content skips innerValid inInner, exceeds_end skips named spaced,
            Nat.add_sub_cancel,
          ihNext nextValid inNext later shallow (by omega), Bool.or_true]
      · rw [show read - ((Content.renderStart tag).length + inner.render.length +
          (Content.renderEnd tag.name endSpace).length) = 0 by omega, Content.openAt_zero] at deep
        have inside : inner.render.take (read - (Content.renderStart tag).length) <+: left := by
          rw [List.append_assoc, List.take_append] at onward
          exact (List.prefix_append _ _).trans onward
        refine ihInner innerValid inInner inside (by omega) ?_
        split at deep <;> omega

end Content

/-- The character data sections a document ends within its first `read` characters. -/
def Document.cdatasBefore (document : Document) (read : Nat) : List (List Char) :=
  document.root.cdatasBefore
    (read - (document.renderDeclaration ++ document.prolog.render).length)

section Document
variable {constructs : List Construct} {limit : Nat}

private theorem question_notMem_pseudo {name : String} {accepts : List Char → Bool}
    {attr : Attribute} (valid : Declaration.validAttribute name accepts attr = true)
    (refuses : ∀ value, accepts value = true → '?' ∉ value) : '?' ∉ attr.render := by
  simp only [Declaration.validAttribute, Attribute.valid, Bool.and_eq_true] at valid
  obtain ⟨⟨⟨⟨⟨⟨⟨⟨-, space⟩, named⟩, before⟩, after⟩, -⟩, -⟩, -⟩, accepted⟩ := valid
  have inSpace : '?' ∉ attr.space := notMem_of_all space (by decide)
  have inName : '?' ∉ attr.name := notMem_of_isName named (by decide)
  have inBefore : '?' ∉ attr.before := notMem_of_all before (by decide)
  have inAfter : '?' ∉ attr.after := notMem_of_all after (by decide)
  have inValue : '?' ∉ renderPieces attr.value := refuses _ accepted
  have quote : '?' ≠ attr.quote.char := by cases attr.quote <;> decide
  simp [Attribute.render, inSpace, inName, inBefore, inAfter, inValue, quote]

private theorem isVersion_refuses (value : List Char)
    (accepted : Declaration.isVersion value = true) :
    '?' ∉ value := by
  unfold Declaration.isVersion at accepted
  split at accepted
  · rename_i digits
    simp only [Bool.and_eq_true] at accepted
    have inDigits : '?' ∉ digits := notMem_of_all accepted.2 (by decide)
    simp [inDigits]
  · cases accepted

private theorem isEncoding_refuses (value : List Char)
    (accepted : Declaration.isEncoding value = true) :
    '?' ∉ value := by
  cases value with
  | nil => simp
  | cons first rest =>
    simp only [Declaration.isEncoding, Bool.and_eq_true] at accepted
    have inRest : '?' ∉ rest := notMem_of_all accepted.2 (by decide)
    have atFirst : '?' ≠ first := by
      rintro rfl
      exact absurd accepted.1 (by decide)
    simp [inRest, atFirst]

private theorem isStandalone_refuses (value : List Char)
    (accepted : Declaration.isStandalone value = true) : '?' ∉ value := by
  simp only [Declaration.isStandalone, Bool.or_eq_true, beq_iff_eq] at accepted
  rcases accepted with rfl | rfl <;> decide

theorem Transparent.declaration (skips : Skips constructs) {declaration : Declaration}
    (valid : declaration.valid = true) : Transparent constructs limit declaration.render := by
  simp only [Declaration.valid, Bool.and_eq_true, Option.all_eq_true] at valid
  obtain ⟨⟨⟨version, encoding⟩, standalone⟩, space⟩ := valid
  have inAttributes : '?' ∉ declaration.attributes.flatMap Attribute.render := by
    intro member
    obtain ⟨attr, listed, inside⟩ := List.mem_flatMap.mp member
    simp only [Declaration.attributes, List.mem_cons, List.mem_append, Option.mem_toList] at listed
    rcases listed with rfl | isEncoding | isStandalone
    · exact question_notMem_pseudo version isVersion_refuses inside
    · exact question_notMem_pseudo (encoding attr isEncoding) isEncoding_refuses inside
    · exact question_notMem_pseudo (standalone attr isStandalone) isStandalone_refuses inside
  have inSpace : '?' ∉ declaration.space := notMem_of_all space (by decide)
  have absent : occurs (['?'] ++ ['>']) (['x', 'm', 'l'] ++
      declaration.attributes.flatMap Attribute.render ++ declaration.space) = false := by
    have apart : '?' ∉ ['x', 'm', 'l'] ++ declaration.attributes.flatMap Attribute.render ++
        declaration.space := by simp [inAttributes, inSpace]
    have whole := @occurs_append_of_notMem '?' ['>'] _ [] apart
    rw [List.append_nil] at whole
    exact whole
  have known := @Transparent.skipped constructs limit ['?'] ['?'] '>' _
    skips.pi (List.all_iff_forall_prop.mp (by decide)) (List.all_iff_forall_prop.mp (by decide))
      (by decide) absent
  simpa [Declaration.render] using known

theorem Content.isMisc_bare {content : Content} (misc : content.isMisc = true) :
    content.cdatas = [] ∧ ∀ outer, content.depths outer = [] := by
  induction content with
  | nil => exact ⟨rfl, fun _ => rfl⟩
  | text pieces next ih =>
    simp only [Content.isMisc, Bool.and_eq_true] at misc
    exact ih misc.2
  | comment body next ih | pi target body next ih => exact ih misc
  | cdata | empty | element => cases misc

theorem Transparent.misc (skips : Skips constructs) {content : Content}
    (misc : content.isMisc = true) (valid : content.valid = true) :
    Transparent constructs limit content.render := by
  obtain ⟨noSections, flat⟩ := Content.isMisc_bare misc
  intro rest depth
  rw [exceeds_content skips valid (by simp [CdataTransparent, noSections])]
  simp [flat]

/-- What stands before the root. -/
private theorem Transparent.front (skips : Skips constructs) {document : Document}
    (valid : document.valid = true) :
    Transparent constructs limit (document.renderDeclaration ++ document.prolog.render) := by
  simp only [Document.valid, Bool.and_eq_true] at valid
  obtain ⟨⟨⟨⟨⟨⟨declared, misc⟩, prolog⟩, -⟩, -⟩, -⟩, -⟩ := valid
  have opening : Transparent constructs limit document.renderDeclaration := by
    unfold Document.renderDeclaration
    split
    · rename_i declaration found
      simp only [found, Option.all_some] at declared
      exact .declaration skips declared
    · exact fun _ _ => rfl
  intro rest depth
  rw [encode_append, List.append_assoc, opening, Transparent.misc skips misc prolog]

/-- On a whole document the scan finds exactly the elements that are too deep. -/
theorem exceeds_document (skips : Skips constructs) {document : Document}
    (valid : document.valid = true)
    (sections : CdataTransparent constructs limit document.root.cdatas) :
    exceeds constructs limit (encode document.render) 0 = document.depths.any (limit < ·) := by
  have front := @Transparent.front constructs limit skips _ valid
  simp only [Document.valid, Bool.and_eq_true] at valid
  obtain ⟨⟨⟨-, root⟩, misc⟩, epilog⟩ := valid
  have back := @Transparent.misc constructs limit skips _ misc epilog [] 0
  rw [List.append_nil] at back
  rw [Document.render, List.append_assoc, encode_append, front, encode_append,
    exceeds_content skips root sections, back]
  simp [Document.depths]

/-- A text that shares a prefix with a document is too deep when the document
is, at the end of that prefix. -/
theorem exceeds_of_prefix (skips : Skips constructs) {document : Document}
    (valid : document.valid = true) {shared text : List Char}
    (sections : CdataTransparent constructs limit (document.cdatasBefore shared.length))
    (ofDocument : shared <+: document.render) (ofText : shared <+: text)
    (deep : limit < document.openAt shared.length) :
    exceeds constructs limit (encode text) 0 = true := by
  have front := @Transparent.front constructs limit skips _ valid
  simp only [Document.valid, Bool.and_eq_true] at valid
  obtain ⟨⟨⟨-, root⟩, -⟩, -⟩ := valid
  have entered : (document.renderDeclaration ++ document.prolog.render).length ≤ shared.length := by
    by_contra early
    rw [Document.openAt, show shared.length -
      (document.renderDeclaration ++ document.prolog.render).length = 0 by omega,
      Content.openAt_zero] at deep
    omega
  have agree : document.render.take shared.length <+: text := by
    rwa [← List.prefix_iff_eq_take.mp ofDocument]
  rw [Document.render, List.append_assoc] at agree
  obtain ⟨left, rfl, onward⟩ := prefix_split entered agree
  rw [List.take_append] at onward
  rw [encode_append, front]
  refine exceeds_of_open skips root sections ((List.prefix_append _ _).trans onward)
    (Nat.zero_le _) ?_
  rw [Nat.zero_add]
  exact deep

end Document

end OaGateway.Lib.Xml
