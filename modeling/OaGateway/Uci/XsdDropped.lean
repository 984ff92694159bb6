import OaGateway.Uci.XsdFacets

/-! Which one more child the schema compiler takes without a trace. -/
namespace OaGateway.Uci.Xsd

open Lib
open Lib.Xml (ElementNode Header Site)

/-- Elements that are not annotations. -/
def kept (nodes : List ElementNode) : List ElementNode :=
  nodes.filter fun node => node.localName != "annotation"

/-- What a node is read as. -/
inductive Role where
  | schema
  | complexType
  | compositor
  | complexContent
  | extension
  | simpleType
  | restriction

/-- A bound that a later one replaces, or that is in force already. -/
def Overridden (child : ElementNode) (front back : List ElementNode) : Prop :=
  ∃ value, nodeBound child = some value ∧
    (boundsOf child.localName (kept back) ≠ [] ∨
      (boundsOf child.localName (kept front)).getLast? = some value)

/-- The compiler does not see the child: it is put where nothing is looked at,
which is inside an element declaration, behind the first child of a
`complexContent` or a `simpleType`, or anywhere below such; or it says again what
is said there already. -/
def Dropped (crates : Crates) (child : ElementNode) : Role → String → Site → Prop
  | .schema, _, .here .. => False
  | .schema, _, .inside _ _ site _ =>
    if site.localName = "complexType" then
      Dropped crates child .complexType ((site.before.attributeOf "name").getD "") site
    else if site.localName = "simpleType" then
      Dropped crates child .simpleType ((site.before.attributeOf "name").getD "") site
    else True
  | .complexType, _, .here .. => False
  | .complexType, owner, .inside _ _ site _ =>
    if site.localName = "annotation" then True
    else if site.localName = "complexContent" then Dropped crates child .complexContent owner site
    else Dropped crates child .compositor owner site
  | .compositor, _, .here .. => False
  | .compositor, _, .inside .. => True
  | .complexContent, owner, .here _ front back =>
    kept front ≠ [] ∨ ∃ first ∈ (kept back).head?, ∃ content,
      extension owner first = .ok content ∧ extension owner child = .ok content
  | .complexContent, owner, .inside _ front site _ =>
    kept front ≠ [] ∨ site.localName = "annotation" ∨ Dropped crates child .extension owner site
  | .extension, _, .here .. => False
  | .extension, owner, .inside _ _ site _ =>
    site.localName = "annotation" ∨ Dropped crates child .compositor owner site
  | .simpleType, name, .here _ front back =>
    kept front ≠ [] ∨ ∃ first ∈ (kept back).head?, ∃ simple,
      restriction crates name first = .ok simple ∧ restriction crates name child = .ok simple
  | .simpleType, name, .inside _ front site _ =>
    kept front ≠ [] ∨ site.localName = "annotation" ∨ Dropped crates child .restriction name site
  | .restriction, _, .here _ front back => Overridden child front back
  | .restriction, _, .inside .. => True

/-- The kinds of nodes a child may be added to. -/
def parents : List String :=
  ["element", "complexType", "complexContent", "extension", "sequence", "choice",
    "simpleType", "restriction"]

/-- A child of XML Schema for a node of XML Schema, wherever that stands. It is
no annotation, and no white space facet. -/
structure Fits (child : ElementNode) (site : Site) : Prop where
  xsParent : site.parent.tagName.space = some xs
  parent : site.parent.tagName.name ∈ parents
  xsChild : isXs child = true
  documented : child.localName ≠ "annotation"
  constrains : site.parent.tagName.name = "restriction" → child.localName ≠ "whiteSpace"

section Same
variable {site : Site} {child : ElementNode}

theorem localName_after : (site.after child).localName = site.localName := by
  simp [ElementNode.localName, Site.localName]

theorem localName_before : site.before.localName = site.localName := by
  simp [ElementNode.localName, Site.localName]

theorem attributeOf_after (name : String) : (site.after child).attributeOf name =
    site.before.attributeOf name := by
  simp [ElementNode.attributeOf]

theorem isXs_after : isXs (site.after child) = isXs site.before := by
  simp [isXs, ElementNode.space]

theorem required_after (attr : String) : required (site.after child) attr =
    required site.before attr := by
  simp [required, attributeOf_after, localName_after, localName_before]

theorem typeRef_after (qname : String) : typeRef (site.after child) qname =
    typeRef site.before qname := by
  simp [typeRef, ElementNode.lookupNamespaceUri]

/-- A local element is read from its tag alone. -/
theorem localElement_after (owner : String) : localElement owner (site.after child) =
    localElement owner site.before := by
  simp only [localElement, required_after, attributeOf_after, typeRef_after, minOccurs, maxOccurs]

theorem member_after (owner : String) : member owner (site.after child) =
    member owner site.before := by
  simp only [member, localElement_after, localName_after, localName_before]

theorem facet_after (crates : Crates) (name : String) :
    facet crates name (site.after child) = facet crates name site.before := by
  simp only [facet, required_after, localName_after, localName_before]

end Same

section Readers
variable {crates : Crates} {child : ElementNode} {site : Site} {header : Header}
  {front back children : List ElementNode}
  {owner name : String}

theorem Fits.inside (fits : Fits child (.inside header front site back)) : Fits child site :=
  ⟨fits.xsParent, fits.parent, fits.xsChild, fits.documented, fits.constrains⟩

/-- One more child is one more definition. -/
theorem definitions_here (fits : Fits child (.here header front back))
    (found : definitions (Site.here header front back).before = .ok children) :
    children = kept front ++ kept back ∧
      definitions ((Site.here header front back).after child) =
          .ok (kept front ++ child :: kept back) := by
  obtain ⟨all, rfl⟩ := definitions_eq_ok.mp found
  simp only [Site.before, ElementNode.elements_mk, List.mem_append] at all
  refine ⟨List.filter_append .., definitions_eq_ok.mpr ⟨?_, ?_⟩⟩
  · simp only [Site.after, ElementNode.elements_mk, List.mem_append, List.mem_cons]
    rintro node (inFront | rfl | inBack)
    · exact all node (.inl inFront)
    · exact fits.xsChild
    · exact all node (.inr inBack)
  · have named : (child.localName != "annotation") = true := bne_iff_ne.mpr fits.documented
    simp [topLevel, Site.after, kept, named]

theorem topLevel_middle (header : Header) (front : List ElementNode) (node : ElementNode)
    (back : List ElementNode) :
    topLevel (.mk header (front ++ node :: back)) = kept front ++ kept [node] ++ kept back := by
  change kept (front ++ ([node] ++ back)) = _
  rw [kept, List.filter_append, List.filter_append, List.append_assoc]
  rfl

/-- A child that grows is still where it was. -/
theorem definitions_inside (child : ElementNode)
    (found : definitions (Site.inside header front site back).before = .ok children) :
    children = kept front ++ kept [site.before] ++ kept back ∧
      definitions ((Site.inside header front site back).after child) =
        .ok (kept front ++ kept [site.after child] ++ kept back) := by
  obtain ⟨all, rfl⟩ := definitions_eq_ok.mp found
  simp only [Site.before, ElementNode.elements_mk, List.mem_append, List.mem_cons] at all
  refine ⟨topLevel_middle .., definitions_eq_ok.mpr ⟨?_, (topLevel_middle ..).symm⟩⟩
  · simp only [Site.after, ElementNode.elements_mk, List.mem_append, List.mem_cons]
    rintro node (inFront | rfl | inBack)
    · exact all node (.inl inFront)
    · rw [isXs_after]
      exact all _ (.inr (.inl rfl))
    · exact all node (.inr (.inr inBack))

theorem kept_documented {node : ElementNode} (tag : node.localName = "annotation") :
    kept [node] = [] := by
  simp [kept, tag]

theorem kept_other {node : ElementNode} (tag : node.localName ≠ "annotation") :
    kept [node] = [node] := by
  simp [kept, tag]

theorem compositor_eq_ok {node : ElementNode} {elements : List Element} :
    compositor owner node = .ok elements ↔
      ((node.attributeOf "minOccurs").isSome || (node.attributeOf "maxOccurs").isSome) = false ∧
        ∃ children, definitions node = .ok children ∧
            collect (member owner) children = .ok elements := by
  rw [compositor]
  cases (node.attributeOf "minOccurs").isSome || (node.attributeOf "maxOccurs").isSome with
  | true => simp [fail]
  | false => simp [bind_eq_ok]

/-- A sequence or a choice notices every child, and nothing below one. -/
theorem compositor_after (fits : Fits child site) {elements : List Element}
    (read : compositor owner site.before = .ok elements) :
    compositor owner (site.after child) = .ok elements ↔
      Dropped crates child .compositor owner site := by
  obtain ⟨plain, children, found, collected⟩ := compositor_eq_ok.mp read
  rw [compositor_eq_ok]
  simp only [attributeOf_after, plain, true_and]
  cases site with
  | here header front back =>
    obtain ⟨rfl, again⟩ := definitions_here fits found
    simp only [Dropped, iff_false, again, Except.ok.injEq, exists_eq_left']
    exact collect_longer collected
  | inside header front site back =>
    obtain ⟨rfl, again⟩ := definitions_inside child found
    simp only [Dropped, iff_true, again, Except.ok.injEq, exists_eq_left']
    by_cases tag : site.localName = "annotation"
    · rw [kept_documented (localName_before.trans tag)] at collected
      rw [kept_documented (localName_after.trans tag)]
      exact collected
    · rw [kept_other (by rwa [localName_before]), List.append_assoc,
        List.singleton_append] at collected
      rw [kept_other (by rwa [localName_after]), List.append_assoc, List.singleton_append]
      exact (collect_middle collected).mpr (member_after owner)

section First
variable {Result : Type} {run : ElementNode → Except UciError Result} {result : Result}
  {first : ElementNode}

/-- Where only the first child is read, one more is noticed if it is the first
and read as something else. -/
theorem first_here (fits : Fits child (.here header front back))
    (found : definitions (Site.here header front back).before = .ok children)
    (leading : first ∈ children.head?) (ran : run first = .ok result) :
    (∃ children, definitions ((Site.here header front back).after child) = .ok children ∧
      ∃ first ∈ children.head?, run first = .ok result) ↔
      kept front ≠ [] ∨ ∃ first ∈ (kept back).head?,
          ∃ result, run first = .ok result ∧ run child = .ok result := by
  obtain ⟨rfl, again⟩ := definitions_here fits found
  simp only [again, Except.ok.injEq, exists_eq_left']
  cases lead : kept front with
  | nil =>
    rw [lead, List.nil_append] at leading
    simp only [List.nil_append, List.head?_cons, Option.mem_some_iff, exists_eq_left', ne_eq,
      not_true_eq_false, false_or]
    constructor
    · intro displaced
      exact ⟨first, leading, result, ran, displaced⟩
    · rintro ⟨other, here, same, again, displaced⟩
      obtain rfl := Option.mem_unique here leading
      rw [ran] at again
      cases again
      exact displaced
  | cons one rest =>
    rw [lead] at leading
    simp only [List.cons_append, List.head?_cons, Option.mem_some_iff, exists_eq_left',
      ne_eq, reduceCtorEq, not_false_eq_true, true_or, iff_true] at leading ⊢
    rw [leading]
    exact ran

/-- Below a child, only what the first one notices is noticed. -/
theorem first_inside {Noticed : Prop}
    (found : definitions (Site.inside header front site back).before = .ok children)
    (leading : first ∈ children.head?) (ran : run first = .ok result)
    (after : run site.before = .ok result → (run (site.after child) = .ok result ↔ Noticed)) :
    (∃ children, definitions ((Site.inside header front site back).after child) = .ok children ∧
      ∃ first ∈ children.head?, run first = .ok result) ↔
      kept front ≠ [] ∨ site.localName = "annotation" ∨ Noticed := by
  obtain ⟨rfl, again⟩ := definitions_inside child found
  simp only [again, Except.ok.injEq, exists_eq_left']
  cases lead : kept front with
  | cons one rest =>
    rw [lead] at leading
    simp only [List.cons_append, List.head?_cons, Option.mem_some_iff, exists_eq_left',
      ne_eq, reduceCtorEq, not_false_eq_true, true_or, iff_true] at leading ⊢
    rw [leading]
    exact ran
  | nil =>
    rw [lead] at leading
    by_cases tag : site.localName = "annotation"
    · rw [kept_documented (localName_before.trans tag)] at leading
      rw [kept_documented (localName_after.trans tag)]
      simp only [tag, true_or, or_true, iff_true]
      exact ⟨first, leading, ran⟩
    · rw [kept_other (by rwa [localName_before])] at leading
      rw [kept_other (by rwa [localName_after])]
      simp only [List.nil_append, List.cons_append, List.head?_cons, Option.mem_some_iff,
        exists_eq_left', ne_eq, not_true_eq_false, tag, false_or] at leading ⊢
      rw [← leading] at ran
      exact after ran

end First

theorem sequence_injective : Function.Injective sequence := fun _ _ same => (Group.mk.inj same).2

theorem choice_injective : Function.Injective choice := fun _ _ same => (Group.mk.inj same).2

theorem extraGroup_after (fits : Fits child site) {group : Group}
    (read : extraGroup owner site.before = .ok group) :
    extraGroup owner (site.after child) = .ok group ↔
      Dropped crates child .compositor owner site := by
  rw [extraGroup, localName_before] at read
  rw [extraGroup, localName_after]
  split at read
  · rename_i tag
    obtain ⟨elements, composed, rfl⟩ := map_eq_ok.mp read
    rw [if_pos tag, map_ok_iff sequence_injective]
    exact compositor_after fits composed
  · rename_i noSequence
    rw [if_neg noSequence]
    split at read
    · rename_i tag
      obtain ⟨elements, composed, rfl⟩ := map_eq_ok.mp read
      rw [if_pos tag, map_ok_iff choice_injective]
      exact compositor_after fits composed
    · cases read

theorem extension_eq_ok {node : ElementNode} {content : ComplexContent} :
    extension owner node = .ok content ↔ node.localName = "extension" ∧
      ∃ base, node.attributeOf "base" = some base ∧ ∃ children, definitions node = .ok children ∧
      ∃ extra, collect (extraGroup owner) children = .ok extra ∧
        .extension (typeRef node base) extra = content := by
  rw [extension]
  split
  · rename_i tag
    simp [fail, tag]
  · rename_i tag
    simp only [not_not] at tag
    simp only [bind_eq_ok, required_eq_ok, tag, true_and, Except.ok.injEq]

theorem extension_after (fits : Fits child site) {content : ComplexContent}
    (read : extension owner site.before = .ok content) :
    extension owner (site.after child) = .ok content ↔
      Dropped crates child .extension owner site := by
  obtain ⟨tag, base, based, children, found, extra, collected, rfl⟩ := extension_eq_ok.mp read
  have reduced : extension owner (site.after child) =
    .ok (.extension (typeRef site.before base) extra) ↔
      ∃ children, definitions (site.after child) = .ok children ∧
          collect (extraGroup owner) children = .ok extra := by
    rw [extension_eq_ok]
    simp only [localName_after, ← localName_before, tag, attributeOf_after, based,
      Option.some.injEq, exists_eq_left', typeRef_after, ComplexContent.extension.injEq, true_and,
        exists_eq_right]
  rw [reduced]
  cases site with
  | here header front back =>
    obtain ⟨rfl, again⟩ := definitions_here fits found
    simp only [Dropped, iff_false, again, Except.ok.injEq, exists_eq_left']
    exact collect_longer collected
  | inside header front site back =>
    obtain ⟨rfl, again⟩ := definitions_inside child found
    simp only [Dropped, again, Except.ok.injEq, exists_eq_left']
    by_cases tag : site.localName = "annotation"
    · rw [kept_documented (localName_before.trans tag)] at collected
      rw [kept_documented (localName_after.trans tag)]
      simp only [tag, true_or, iff_true]
      exact collected
    · rw [kept_other (by rwa [localName_before]), List.append_assoc,
        List.singleton_append] at collected
      rw [kept_other (by rwa [localName_after]), List.append_assoc, List.singleton_append,
        collect_middle collected]
      obtain ⟨group, -, grouped⟩ :=
        mem_of_collect collected (List.mem_append_right _ (List.mem_cons_self ..))
      simp only [tag, false_or, grouped]
      exact extraGroup_after fits.inside grouped

theorem complexContent_eq_ok {node : ElementNode} {content : ComplexContent} :
    complexContent owner node = .ok content ↔
      ∃ children, definitions node = .ok children ∧ ∃ first ∈ children.head?,
          extension owner first = .ok content := by
  rw [complexContent, bind_eq_ok]
  refine exists_congr fun children => and_congr_right fun _ => ?_
  cases children <;> simp [fail]

theorem complexContent_after (fits : Fits child site) {content : ComplexContent}
    (read : complexContent owner site.before = .ok content) :
    complexContent owner (site.after child) = .ok content ↔
      Dropped crates child .complexContent owner site := by
  obtain ⟨children, found, first, leading, extended⟩ := complexContent_eq_ok.mp read
  rw [complexContent_eq_ok]
  cases site with
  | here header front back => exact first_here fits found leading extended
  | inside header front site back =>
    exact first_inside found leading extended (extension_after fits.inside)

/-- A content model is never nothing. -/
theorem contentModel_ne_nil {node : ElementNode} : contentModel owner node ≠ .ok (.groups []) := by
  intro read
  rw [contentModel] at read
  split at read
  · obtain ⟨elements, -, ⟨⟩⟩ := map_eq_ok.mp read
  · split at read
    · obtain ⟨elements, -, ⟨⟩⟩ := map_eq_ok.mp read
    · split at read
      · obtain ⟨children, -, first, -, extended⟩ := complexContent_eq_ok.mp read
        obtain ⟨-, base, -, children, -, extra, -, ⟨⟩⟩ := extension_eq_ok.mp extended
      · cases read

theorem contentModel_after (fits : Fits child site) {content : ComplexContent}
    (read : contentModel owner site.before = .ok content) :
    contentModel owner (site.after child) = .ok content ↔
      if site.localName = "complexContent" then Dropped crates child .complexContent owner site
      else Dropped crates child .compositor owner site := by
  have groups {kind : List Element → Group} (injective : Function.Injective kind) :
      Function.Injective fun elements => ComplexContent.groups [kind elements] := by
    intro one two same
    simpa [injective.eq_iff] using same
  rw [contentModel, localName_before] at read
  rw [contentModel, localName_after]
  split at read
  · rename_i tag
    obtain ⟨elements, composed, rfl⟩ := map_eq_ok.mp read
    rw [if_pos tag, if_neg (by simp [tag])]
    exact (map_ok_iff (groups sequence_injective)).trans (compositor_after fits composed)
  · rename_i noSequence
    rw [if_neg noSequence]
    split at read
    · rename_i tag
      obtain ⟨elements, composed, rfl⟩ := map_eq_ok.mp read
      rw [if_pos tag, if_neg (by simp [tag])]
      exact (map_ok_iff (groups choice_injective)).trans (compositor_after fits composed)
    · rename_i noChoice
      rw [if_neg noChoice]
      split at read
      · rename_i tag
        rw [if_pos tag, if_pos tag]
        exact complexContent_after fits read
      · cases read

theorem complexType_eq_ok {node : ElementNode} {definition : ComplexType} :
    complexType node = .ok (name, definition) ↔ node.attributeOf "name" = some name ∧
      definition.abstract = (node.attributeOf "abstract" == some "true") ∧
      ((definitions node = .ok [] ∧ definition.content = .groups []) ∨
        ∃ model, definitions node = .ok [model] ∧
            contentModel name model = .ok definition.content) := by
  obtain ⟨isAbstract, content⟩ := definition
  rw [complexType, bind_eq_ok]
  simp only [required_eq_ok, bind_eq_ok]
  constructor
  · rintro ⟨own, named, children, found, read⟩
    split at read
    · cases read
      exact ⟨named, rfl, .inl ⟨found, rfl⟩⟩
    · rename_i model
      obtain ⟨content, modelled, ⟨⟩⟩ := bind_eq_ok.mp read
      exact ⟨named, rfl, .inr ⟨model, found, modelled⟩⟩
    · obtain ⟨content, -, ⟨⟩⟩ := bind_eq_ok.mp read
  · rintro ⟨named, rfl, ⟨found, rfl⟩ | ⟨model, found, modelled⟩⟩
    · exact ⟨name, named, [], found, rfl⟩
    · exact ⟨name, named, [model], found, bind_eq_ok.mpr ⟨content, modelled, rfl⟩⟩

/-- A complex type notices every child. -/
theorem complexType_after (fits : Fits child site) {definition : ComplexType}
    (read : complexType site.before = .ok (name, definition)) :
    complexType (site.after child) = .ok (name, definition) ↔
      Dropped crates child .complexType name site := by
  obtain ⟨named, isAbstract, content⟩ := complexType_eq_ok.mp read
  rw [complexType_eq_ok]
  simp only [attributeOf_after, named, isAbstract, true_and]
  cases site with
  | here header front back =>
    simp only [Dropped, iff_false]
    obtain ⟨found, empty⟩ | ⟨model, found, modelled⟩ := content
    · obtain ⟨none, again⟩ := definitions_here fits found
      obtain ⟨noFront, noBack⟩ := List.append_eq_nil_iff.mp none.symm
      rw [again, noFront, noBack, empty]
      rintro (⟨⟨⟩, -⟩ | ⟨model, ⟨⟩, modelled⟩)
      exact contentModel_ne_nil modelled
    · obtain ⟨one, again⟩ := definitions_here fits found
      have count := congrArg List.length one
      rw [again]
      rintro (⟨same, -⟩ | ⟨other, same, -⟩)
      · simpa using congrArg List.length (Except.ok.inj same)
      · have longer := congrArg List.length (Except.ok.inj same)
        simp only [List.length_append, List.length_cons, List.length_nil] at count longer
        omega
  | inside header front site back =>
    by_cases tag : site.localName = "annotation"
    · simp only [Dropped, tag, if_true, iff_true]
      have same {children : List ElementNode}
        (found : definitions (Site.inside header front site back).before = .ok children) :
          definitions ((Site.inside header front site back).after child) = .ok children := by
        obtain ⟨rfl, again⟩ := definitions_inside child found
        rw [again, kept_documented (localName_before.trans tag),
          kept_documented (localName_after.trans tag)]
      obtain ⟨found, empty⟩ | ⟨model, found, modelled⟩ := content
      · exact .inl ⟨same found, empty⟩
      · exact .inr ⟨model, same found, modelled⟩
    · simp only [Dropped, tag, if_false]
      obtain ⟨found, empty⟩ | ⟨model, found, modelled⟩ := content
      · obtain ⟨none, -⟩ := definitions_inside child found
        simp [kept_other (show site.before.localName ≠
          "annotation" by rwa [localName_before])] at none
      · obtain ⟨one, again⟩ := definitions_inside child found
        rw [kept_other (by rwa [localName_before])] at one
        rw [kept_other (by rwa [localName_after])] at again
        have count := congrArg List.length one
        simp only [List.length_append, List.length_cons, List.length_nil] at count
        obtain ⟨noFront, noBack⟩ : kept front = [] ∧ kept back = [] :=
          ⟨List.length_eq_zero_iff.mp (by omega), List.length_eq_zero_iff.mp (by omega)⟩
        rw [noFront, noBack] at one again
        obtain rfl : model = site.before := by simpa using one
        rw [again, ← contentModel_after fits.inside modelled]
        simp

theorem restriction_eq_ok {node : ElementNode} {simple : SimpleType} :
    restriction crates name node = .ok simple ↔ node.localName = "restriction" ∧
      ∃ base, node.attributeOf "base" = some base ∧ ∃ children, definitions node = .ok children ∧
        ∃ results, collect (facet crates name) children = .ok results ∧
          ⟨typeRef node base, results.reduceOption.foldl put {}⟩ = simple := by
  rw [restriction]
  split
  · rename_i tag
    simp [fail, tag]
  · rename_i tag
    simp only [not_not] at tag
    simp only [bind_eq_ok, required_eq_ok, tag, true_and, Except.ok.injEq]

/-- Only white space handling is read as no facet. -/
theorem facet_ne_none {node : ElementNode} (tag : node.localName ≠ "whiteSpace") :
    facet crates name node ≠ .ok none := by
  intro read
  rw [facet, if_neg tag] at read
  obtain ⟨value, -, read⟩ := bind_eq_ok.mp read
  split at read
  case h_1 | h_2 | h_10 => cases read
  all_goals
    obtain ⟨result, -, ⟨⟩⟩ := map_eq_ok.mp read

/-- One more facet among others. -/
theorem collect_facet_middle (constrains : child.localName ≠ "whiteSpace")
    {results : List (Option Facet)}
    (collected : collect (facet crates name) (kept front ++ kept back) = .ok results) :
    (∃ others, collect (facet crates name) (kept front ++ child :: kept back) = .ok others ∧
      others.reduceOption.foldl put {} = results.reduceOption.foldl put {}) ↔
          Overridden child front back := by
  obtain ⟨first, later, rfl, one, two⟩ := collect_append.mp collected
  have middle (read : Facet) (here : facet crates name child = .ok (some read)) :
      (first ++ some read :: later).reduceOption.foldl put {} =
        (first ++ later).reduceOption.foldl put {} ↔
        Overridden child front back := by
    have bound : read.bound = (nodeBound child).map fun value => (child.localName, value) :=
      facet_bound here
    rw [List.reduceOption_append, List.reduceOption_append, List.reduceOption_cons_of_some,
      foldl_put_middle, Overridden]
    constructor
    · rintro ⟨tag, value, bounded, idle⟩
      rw [bound] at bounded
      obtain ⟨_, here, same⟩ := Option.map_eq_some_iff.mp bounded
      cases same
      rw [boundsOf_eq one, boundsOf_eq two] at idle
      exact ⟨value, here, idle⟩
    · rintro ⟨value, here, idle⟩
      rw [← boundsOf_eq one, ← boundsOf_eq two] at idle
      exact ⟨child.localName, value, by rw [bound, here]; rfl, idle⟩
  constructor
  · rintro ⟨others, again, same⟩
    obtain ⟨first', later', rfl, one', two'⟩ := collect_append.mp again
    obtain ⟨read, rest, here, last, rfl⟩ := collect_cons_eq_ok.mp two'
    rw [one] at one'
    cases one'
    rw [two] at last
    cases last
    cases read with
    | none => exact absurd here (facet_ne_none constrains)
    | some read => exact (middle read here).mp same
  · intro overridden
    obtain ⟨value, bound, -⟩ := id overridden
    obtain ⟨read, here⟩ := @facet_of_nodeBound crates name child value bound
    refine ⟨first ++ some read :: later, collect_append.mpr ⟨first, _, rfl, one, ?_⟩,
      (middle read here).mpr overridden⟩
    exact collect_cons_eq_ok.mpr ⟨_, later, here, two, rfl⟩

theorem restriction_after (fits : Fits child site) {simple : SimpleType}
    (read : restriction crates name site.before = .ok simple) :
    restriction crates name (site.after child) = .ok simple ↔
      Dropped crates child .restriction name site := by
  obtain ⟨tag, base, based, children, found, results, collected, rfl⟩ := restriction_eq_ok.mp read
  have reduced : restriction crates name (site.after child) =
        .ok ⟨typeRef site.before base, results.reduceOption.foldl put {}⟩ ↔
      ∃ children, definitions (site.after child) = .ok children ∧
      ∃ others, collect (facet crates name) children = .ok others ∧
        others.reduceOption.foldl put {} = results.reduceOption.foldl put {} := by
    rw [restriction_eq_ok]
    simp only [localName_after, ← localName_before, tag, attributeOf_after, based,
      Option.some.injEq, exists_eq_left', typeRef_after, SimpleType.mk.injEq, true_and]
  rw [reduced]
  cases site with
  | here header front back =>
    obtain ⟨rfl, again⟩ := definitions_here fits found
    simp only [Dropped, again, Except.ok.injEq, exists_eq_left']
    exact collect_facet_middle (fits.constrains tag) collected
  | inside header front site back =>
    obtain ⟨rfl, again⟩ := definitions_inside child found
    simp only [Dropped, again, Except.ok.injEq, exists_eq_left', iff_true]
    refine ⟨results, ?_, rfl⟩
    by_cases tag : site.localName = "annotation"
    · rw [kept_documented (localName_before.trans tag)] at collected
      rw [kept_documented (localName_after.trans tag)]
      exact collected
    · rw [kept_other (by rwa [localName_before]), List.append_assoc,
        List.singleton_append] at collected
      rw [kept_other (by rwa [localName_after]), List.append_assoc, List.singleton_append]
      exact (collect_middle collected).mpr (facet_after crates name)

theorem simpleType_eq_ok {node : ElementNode} {simple : SimpleType} :
    simpleType crates node = .ok (name, simple) ↔ node.attributeOf "name" = some name ∧
      ∃ children, definitions node = .ok children ∧ ∃ first ∈ children.head?,
          restriction crates name first = .ok simple := by
  rw [simpleType, bind_eq_ok]
  simp only [required_eq_ok, bind_eq_ok]
  constructor
  · rintro ⟨own, named, children, found, read⟩
    split at read
    · cases read
    · rename_i first rest
      obtain ⟨simple, restricted, ⟨⟩⟩ := bind_eq_ok.mp read
      exact ⟨named, _, found, first, rfl, restricted⟩
  · rintro ⟨named, children, found, first, leading, restricted⟩
    cases children with
    | nil => cases leading
    | cons other rest =>
      cases leading
      exact ⟨name, named, _, found, bind_eq_ok.mpr ⟨simple, restricted, rfl⟩⟩

theorem simpleType_after (fits : Fits child site) {simple : SimpleType}
    (read : simpleType crates site.before = .ok (name, simple)) :
    simpleType crates (site.after child) = .ok (name, simple) ↔
      Dropped crates child .simpleType name site := by
  obtain ⟨named, children, found, first, leading, restricted⟩ := simpleType_eq_ok.mp read
  rw [simpleType_eq_ok]
  simp only [attributeOf_after, named, true_and]
  cases site with
  | here header front back => exact first_here fits found leading restricted
  | inside header front site back =>
    exact first_inside found leading restricted (restriction_after fits.inside)

/-- A definition at the top of a schema. -/
theorem readDefinition_after (fits : Fits child site) {defined : Option Defined}
    (read : readDefinition crates site.before = .ok defined) :
    readDefinition crates (site.after child) = .ok defined ↔
      if site.localName = "complexType" then
        Dropped crates child .complexType ((site.before.attributeOf "name").getD "") site
      else if site.localName = "simpleType" then
        Dropped crates child .simpleType ((site.before.attributeOf "name").getD "") site
      else True := by
  rw [readDefinition, localName_before] at read
  rw [readDefinition, localName_after]
  split at read
  · rename_i tag
    simp only [tag, if_true, required_after, typeRef_after, read]
    simp
  · rename_i noElement
    rw [if_neg noElement]
    split at read
    · rename_i tag
      obtain ⟨⟨name, complex⟩, typed, ⟨⟩⟩ := bind_eq_ok.mp read
      rw [if_pos tag, if_pos tag, (complexType_eq_ok.mp typed).1, Option.getD_some,
        ← complexType_after fits typed, bind_eq_ok]
      constructor
      · rintro ⟨⟨other, changed⟩, typed, ⟨⟩⟩
        exact typed
      · intro typed
        exact ⟨_, typed, rfl⟩
    · rename_i noComplex
      rw [if_neg noComplex, if_neg noComplex]
      split at read
      · rename_i tag
        obtain ⟨⟨name, simple⟩, typed, ⟨⟩⟩ := bind_eq_ok.mp read
        rw [if_pos tag, if_pos tag, (simpleType_eq_ok.mp typed).1, Option.getD_some,
          ← simpleType_after fits typed, bind_eq_ok]
        constructor
        · rintro ⟨⟨other, changed⟩, typed, ⟨⟩⟩
          exact typed
        · intro typed
          exact ⟨_, typed, rfl⟩
      · rename_i noSimple
        rw [if_neg noSimple, if_neg noSimple]
        split at read
        · rename_i tag
          rw [if_pos tag]
          simpa using read
        · cases read

/-- The key of what a top-level element defines. -/
def keyOf (node : ElementNode) : Option (Definition × String) :=
  if node.localName = "element" then (node.attributeOf "name").map (.element, ·)
  else if node.localName = "complexType" then (node.attributeOf "name").map (.complex, ·)
  else if node.localName = "simpleType" then (node.attributeOf "name").map (.simple, ·)
  else none

theorem readDefinition_key {node : ElementNode} {defined : Option Defined}
    (read : readDefinition crates node = .ok defined) : defined.map Defined.key = keyOf node := by
  rw [readDefinition] at read
  rw [keyOf]
  split at read
  · rename_i tag
    obtain ⟨name, named, read⟩ := bind_eq_ok.mp read
    obtain ⟨qname, -, ⟨⟩⟩ := bind_eq_ok.mp read
    rw [if_pos tag, required_eq_ok.mp named]
    rfl
  · rename_i noElement
    rw [if_neg noElement]
    split at read
    · rename_i tag
      obtain ⟨⟨name, complex⟩, typed, ⟨⟩⟩ := bind_eq_ok.mp read
      rw [if_pos tag, (complexType_eq_ok.mp typed).1]
      rfl
    · rename_i noComplex
      rw [if_neg noComplex]
      split at read
      · rename_i tag
        obtain ⟨⟨name, simple⟩, typed, ⟨⟩⟩ := bind_eq_ok.mp read
        rw [if_pos tag, (simpleType_eq_ok.mp typed).1]
        rfl
      · rename_i noSimple
        rw [if_neg noSimple]
        split at read
        · cases read
          rfl
        · cases read

theorem keyOf_after : keyOf (site.after child) = keyOf site.before := by
  simp only [keyOf, localName_after, localName_before, attributeOf_after]

end Readers

/-- Of one key a schema has one definition. -/
theorem Defines.eq_of_key {defs others : List Defined} {schema : Schema} (one : Defines defs schema)
    (two : Defines others schema) {first second : Defined} (here : first ∈ defs)
    (there : second ∈ others) (same : first.key = second.key) : first = second := by
  cases first <;> cases second <;> cases same
  · have := ((one.element ..).mpr here).symm.trans ((two.element ..).mpr there)
    rw [Option.some.inj this]
  · have := ((one.complex ..).mpr here).symm.trans ((two.complex ..).mpr there)
    rw [Option.some.inj this]
  · have := ((one.simple ..).mpr here).symm.trans ((two.simple ..).mpr there)
    rw [Option.some.inj this]

section Compile
variable {crates : XsdCrates} {child : ElementNode} {site : Site} {header : Header}
  {front back : List ElementNode}
  {early late : List String} {text grown : String} {schema : Schema}

theorem Accepts.unique {one two : ElementNode} (first : Accepts crates text one)
    (second : Accepts crates text two) :
    one = two :=
  Except.ok.inj (first.2.1.symm.trans second.2.1)

theorem accepts_unique {documents : List String} {one two : List ElementNode}
    (first : List.Forall₂ (Accepts crates) documents one)
    (second : List.Forall₂ (Accepts crates) documents two) :
    one = two := by
  induction first generalizing two with
  | nil => cases second; rfl
  | cons here _ ih =>
    cases second with
    | cons there later => rw [here.unique there, ih later]

theorem accepts_middle {roots : List ElementNode} :
    List.Forall₂ (Accepts crates) (early ++ text :: late) roots ↔
      ∃ ahead root behind, roots = ahead ++ root :: behind ∧
      List.Forall₂ (Accepts crates) early ahead ∧
        Accepts crates text root ∧ List.Forall₂ (Accepts crates) late behind := by
  induction early generalizing roots with
  | nil =>
    rw [List.nil_append, List.forall₂_cons_left_iff]
    constructor
    · rintro ⟨root, behind, here, last, rfl⟩
      exact ⟨[], root, behind, rfl, .nil, here, last⟩
    · rintro ⟨_, root, behind, rfl, ⟨⟩, here, last⟩
      exact ⟨root, behind, here, last, rfl⟩
  | cons document early ih =>
    rw [List.cons_append, List.forall₂_cons_left_iff]
    simp only [ih]
    constructor
    · rintro ⟨first, _, taken, ⟨ahead, root, behind, rfl, front, here, last⟩, rfl⟩
      exact ⟨first :: ahead, root, behind, rfl, .cons taken front, here, last⟩
    · rintro ⟨_, root, behind, rfl, front, here, last⟩
      cases front with
      | cons taken front => exact ⟨_, _, taken, ⟨_, root, behind, rfl, front, here, last⟩, rfl⟩

/-- A schema stays one when something grows in it. -/
theorem isSchema_after (isSchema : IsSchema (Site.inside header front site back).before) :
    IsSchema ((Site.inside header front site back).after child) := by
  obtain ⟨space, named, all⟩ := isSchema
  refine ⟨space, named, ?_⟩
  simp only [Site.after, Site.before, ElementNode.elements_mk,
    List.mem_append, List.mem_cons] at all ⊢
  rintro node (inFront | rfl | inBack)
  · exact all node (.inl inFront)
  · rw [isXs_after]
    exact all _ (.inr (.inl rfl))
  · exact all node (.inr (.inr inBack))

theorem flatMap_topLevel (ahead behind : List ElementNode) (node : ElementNode) :
    (ahead ++ .mk header (front ++ node :: back) :: behind).flatMap topLevel =
      (ahead.flatMap topLevel ++ kept front) ++
          (kept [node] ++ (kept back ++ behind.flatMap topLevel)) := by
  rw [List.flatMap_append, List.flatMap_cons, topLevel_middle]
  simp only [List.append_assoc]

/-- Two schemas of the same definitions but one have that one in common. -/
theorem defined_eq {first later : List (Option Defined)} {one two : Option Defined}
    (defines : Defines (first ++ one :: later).reduceOption schema)
    (again : Defines (first ++ two :: later).reduceOption schema)
    (same : one.map Defined.key = two.map Defined.key) : one = two := by
  cases one with
  | none => simpa [eq_comm] using same
  | some one =>
    cases two with
    | none => cases same
    | some two =>
      have here : one ∈ (first ++ some one :: later).reduceOption :=
        List.reduceOption_mem_iff.mpr (List.mem_append_right _ (List.mem_cons_self ..))
      have there : two ∈ (first ++ some two :: later).reduceOption :=
        List.reduceOption_mem_iff.mpr (List.mem_append_right _ (List.mem_cons_self ..))
      rw [defines.eq_of_key again here there (Option.some.inj same)]

/-- With one more child the documents compile to the same schema exactly when
they are not nested too deep and the child is dropped. -/
theorem compile_after (fits : Fits child site)
    (compiled : compile crates (early ++ text :: late) = .ok schema)
    (parsed : crates.documentParse text = .ok site.before)
    (parsedGrown : crates.documentParse grown = .ok (site.after child)) :
    compile crates (early ++ grown :: late) = .ok schema ↔
      nestingExceeds grown maxDepth = false ∧ Dropped crates.toCrates child .schema "" site := by
  obtain ⟨_, read, each, collected, apart, defines, resolved⟩ := compile_eq_ok.mp compiled
  obtain ⟨ahead, root, behind, rfl, first, here, last⟩ := accepts_middle.mp each
  obtain rfl : site.before = root := Except.ok.inj (parsed.symm.trans here.2.1)
  cases site with
  | here header front back =>
    have named : header.tagName.name = "schema" := here.2.2.2.1
    have parent : header.tagName.name ∈ parents := fits.parent
    rw [named] at parent
    exact absurd parent (by decide)
  | inside header front site back =>
    have isSchema : IsSchema ((Site.inside header front site back).after child) :=
      isSchema_after here.2.2
    have reduced : compile crates (early ++ grown :: late) = .ok schema ↔
        nestingExceeds grown maxDepth = false ∧ ∃ others,
          collect (readDefinition crates.toCrates) ((ahead.flatMap topLevel ++ kept front) ++
            (kept [site.after child] ++ (kept back ++ behind.flatMap topLevel))) = .ok others ∧
          (others.reduceOption.map Defined.key).Nodup ∧ Defines others.reduceOption schema := by
      rw [compile_eq_ok, ← @flatMap_topLevel header]
      constructor
      · rintro ⟨_, others, again, collected, apart, defines, -⟩
        obtain ⟨ahead', root', behind', rfl, first', here', last'⟩ := accepts_middle.mp again
        obtain rfl : _ = root' := Except.ok.inj (parsedGrown.symm.trans here'.2.1)
        rw [accepts_unique first first', accepts_unique last last']
        exact ⟨here'.1, others, collected, apart, defines⟩
      · rintro ⟨shallow, others, collected, apart, defines⟩
        exact ⟨_, others, accepts_middle.mpr ⟨ahead, _, behind, rfl, first,
          ⟨shallow, parsedGrown, isSchema⟩, last⟩, collected, apart, defines, resolved⟩
    rw [reduced]
    refine and_congr_right fun _ => ?_
    rw [Site.before, flatMap_topLevel] at collected
    by_cases tag : site.localName = "annotation"
    · rw [kept_documented (localName_before.trans tag)] at collected
      rw [kept_documented (localName_after.trans tag)]
      simp only [Dropped, tag, String.reduceEq, if_false, iff_true]
      exact ⟨read, collected, apart, defines⟩
    · rw [kept_other (by rwa [localName_before]), List.singleton_append] at collected
      rw [kept_other (by rwa [localName_after]), List.singleton_append]
      obtain ⟨one, _, rfl, fronts, rest⟩ := collect_append.mp collected
      obtain ⟨defined, two, ran, backs, rfl⟩ := collect_cons_eq_ok.mp rest
      rw [Dropped, ← readDefinition_after fits.inside ran]
      constructor
      · rintro ⟨others, again, -, alike⟩
        obtain ⟨one', _, rfl, fronts', rest'⟩ := collect_append.mp again
        obtain ⟨changed, two', changes, backs', rfl⟩ := collect_cons_eq_ok.mp rest'
        rw [fronts] at fronts'
        cases fronts'
        rw [backs] at backs'
        cases backs'
        have keys : defined.map Defined.key = changed.map Defined.key := by
          rw [readDefinition_key ran, readDefinition_key changes, keyOf_after]
        rw [changes, defined_eq defines alike keys]
      · intro unchanged
        exact ⟨one ++ defined :: two, collect_append.mpr ⟨one, _, rfl, fronts,
          collect_cons_eq_ok.mpr ⟨defined, two, unchanged, backs, rfl⟩⟩, apart, defines⟩

/-- The compiler fails or builds another schema exactly when it does not drop the child. -/
theorem noticed_iff (fits : Fits child site)
    (compiled : compile crates (early ++ text :: late) = .ok schema)
    (parsed : crates.documentParse text = .ok site.before)
    (parsedGrown : crates.documentParse grown = .ok (site.after child)) :
    ((∃ error, compile crates (early ++ grown :: late) = .error error) ∨
      ∃ other, compile crates (early ++ grown :: late) = .ok other ∧ other ≠ schema) ↔
      nestingExceeds grown maxDepth = true ∨ ¬ Dropped crates.toCrates child .schema "" site := by
  have same := compile_after fits compiled parsed parsedGrown
  rw [← Bool.not_eq_false, ← not_and_or, ← same]
  cases compile crates (early ++ grown :: late) <;> simp

end Compile

section Samples

/-- A global element of text, with some content. -/
def textElement (content : Xml.Content) : Xml.Document :=
  schemaDocument (.element (xsTag "element" [("name", "E"), ("type", "xs:string")]) content [] .nil)

def uniqueTag : Xml.Tag := xsTag "unique" [("name", "once")]

/-- The place in the element, and the constraint to be put there. -/
def elementSite : Site :=
  .inside (textElement .nil).elementTree.header []
    (.here (((textElement .nil).elementTree.elements.map ElementNode.header).headD
      (textElement .nil).elementTree.header) [] []) []

def uniqueNode : ElementNode :=
  .mk ⟨⟨some xs, "unique"⟩, [(⟨none, "name"⟩, "once")], elementSite.header.scope⟩ []

def uniqueCrates : XsdCrates := parserOf [textElement .nil, textElement (.empty uniqueTag .nil)]

/-- A constraint on an element compiles to nothing. -/
theorem unique_dropped : ∃ schema, Fits uniqueNode elementSite ∧
    uniqueCrates.documentParse (.ofList (textElement .nil).render) = .ok elementSite.before ∧
    uniqueCrates.documentParse (.ofList (textElement (.empty uniqueTag .nil)).render) =
      .ok (elementSite.after uniqueNode) ∧
    compile uniqueCrates [.ofList (textElement .nil).render] = .ok schema ∧
    compile uniqueCrates [.ofList (textElement (.empty uniqueTag .nil)).render] = .ok schema := by
  let read : List (Option Defined) := [some (.element "E" "xs:string")]
  have parsed : uniqueCrates.documentParse (.ofList (textElement .nil).render) =
    .ok (textElement .nil).elementTree :=
    parse_head ..
  have parsedGrown : uniqueCrates.documentParse
    (.ofList (textElement (.empty uniqueTag .nil)).render) =
      .ok (textElement (.empty uniqueTag .nil)).elementTree := parse_second _ _ (by decide +kernel)
  have accepts := accepts_document (by decide) (by decide) ⟨rfl, rfl, by decide⟩ parsed
  have acceptsGrown := accepts_document (by decide) (by decide) ⟨rfl, rfl, by decide⟩ parsedGrown
  have collected : collect (readDefinition bareCrates) (topLevel (textElement .nil).elementTree) =
    .ok read := by rfl
  have collectedGrown : collect (readDefinition bareCrates)
    (topLevel (textElement (.empty uniqueTag .nil)).elementTree) =
    .ok read := by rfl
  refine ⟨_, ⟨rfl, by decide, rfl, by decide, by decide⟩, parsed, parsedGrown,
    compile_single accepts collected (by decide) (by decide),
      compile_single acceptsGrown collectedGrown (by decide) (by decide)⟩

/-- A complex type, with some content. -/
def emptyComplex (content : Xml.Content) : Xml.Document :=
  schemaDocument (.element (xsTag "complexType" [("name", "T")]) content [] .nil)

def sequenceTag : Xml.Tag := xsTag "sequence" []

def complexSite : Site :=
  .inside (emptyComplex .nil).elementTree.header []
    (.here (((emptyComplex .nil).elementTree.elements.map ElementNode.header).headD
      (emptyComplex .nil).elementTree.header) [] []) []

def sequenceNode : ElementNode := .mk ⟨⟨some xs, "sequence"⟩, [], complexSite.header.scope⟩ []

def sequenceCrates : XsdCrates :=
  parserOf [emptyComplex .nil, emptyComplex (.empty sequenceTag .nil)]

/-- Even an empty sequence is noticed in a complex type. -/
theorem sequence_noticed : ∃ schema,
    compile sequenceCrates [.ofList (emptyComplex .nil).render] = .ok schema ∧
      ((∃ error, compile sequenceCrates [.ofList (emptyComplex (.empty sequenceTag .nil)).render] =
        .error error) ∨
          ∃ other, compile sequenceCrates [.ofList (emptyComplex (.empty sequenceTag .nil)).render]
          = .ok other ∧
          other ≠ schema) := by
  have parsed : sequenceCrates.documentParse (.ofList (emptyComplex .nil).render) =
    .ok (emptyComplex .nil).elementTree :=
    parse_head ..
  have parsedGrown : sequenceCrates.documentParse
    (.ofList (emptyComplex (.empty sequenceTag .nil)).render) =
      .ok (emptyComplex (.empty sequenceTag .nil)).elementTree :=
        parse_second _ _ (by decide +kernel)
  let read : List (Option Defined) := [some (.complex "T" ⟨false, .groups []⟩)]
  have accepts := accepts_document (by decide) (by decide) ⟨rfl, rfl, by decide⟩ parsed
  have collected : collect (readDefinition bareCrates) (topLevel (emptyComplex .nil).elementTree) =
    .ok read := by rfl
  have compiled := compile_single accepts collected (by decide) (by decide)
  have fits : Fits sequenceNode complexSite := ⟨rfl, by decide, rfl, by decide, by decide⟩
  exact ⟨_, compiled, (@noticed_iff _ _ _ [] [] _ _ _ fits compiled parsed parsedGrown).mpr
    (.inr id)⟩

end Samples

end OaGateway.Uci.Xsd
