import OaGateway.Lib.Xml.Resolve

/-! A document element by element: each one's node, depth and text. -/
namespace OaGateway.Lib.Xml

/-- The node of an element where these bindings are in force. -/
def Elem.node (scope : Scope) (elem : Elem) : Node :=
  .element ((scope.enter elem.tag).elementName elem.tag.name)
    ((scope.enter elem.tag).attributes elem.tag)
    (elem.inner.nodes (scope.enter elem.tag))

private theorem filter_joinText (chars : List Char) (nodes : List Node) :
    (joinText chars nodes).filter Node.isElement = nodes.filter Node.isElement := by
  cases nodes with
  | nil => rfl
  | cons node rest => cases node <;> rfl

theorem filter_nodes (scope : Scope) (content : Content) :
    (content.nodes scope).filter Node.isElement = content.elements.map (Elem.node scope) := by
  induction content with
  | nil => rfl
  | text pieces next ih =>
    rw [Content.nodes, Content.elements]
    split
    · exact ih
    · rw [filter_joinText, ih]
  | comment body next ih | pi target body next ih => exact ih
  | cdata body next ih =>
    rw [Content.nodes, Content.elements, filter_joinText, ih]
  | empty tag next ih =>
    rw [Content.nodes, Content.elements, List.map_cons, ← ih]
    rfl
  | element tag inner endSpace next _ ih =>
    rw [Content.nodes, Content.elements, List.map_cons, ← ih]
    rfl

/-- The child elements of an element's node. -/
theorem elements_node (scope : Scope) (elem : Elem) :
    (elem.node scope).elements = elem.inner.elements.map (Elem.node (scope.enter elem.tag)) :=
  filter_nodes _ _

theorem localName_node (scope : Scope) (elem : Elem) :
    (elem.node scope).localName = .ofList (splitName elem.tag.name).2 := rfl

theorem descendantsOf_eq (nodes : List Node) : Node.descendantsOf nodes =
    nodes.flatMap Node.descendants := by
  induction nodes with
  | nil => rfl
  | cons node rest ih => rw [Node.descendantsOf, ih, List.flatMap_cons]

/-- The elements at and below an element: itself, and those at and below its child elements. -/
theorem filter_descendants {node : Node} (element : node.isElement = true) :
    node.descendants.filter Node.isElement =
      node :: node.elements.flatMap fun child => child.descendants.filter Node.isElement := by
  cases node with
  | text | comment | pi => cases element
  | element tagName attributes children =>
    rw [Node.descendants, descendantsOf_eq, List.filter_cons_of_pos rfl, List.filter_flatMap,
      Node.elements, Node.children]
    clear element
    congr 1
    induction children with
    | nil => rfl
    | cons child rest ih =>
      rw [List.flatMap_cons, ih, List.filter_cons]
      cases child <;> rfl

theorem Document.tree_eq {document : Document} {elem : Elem} (whole : document.root.isRoot = true)
    (first : document.rootElement = some elem) : document.tree = elem.node [] := by
  unfold Document.rootElement at first
  unfold Document.tree
  generalize document.root = content at whole first
  unfold Content.isRoot at whole
  split at whole
  · cases first
    rfl
  · cases first
    rfl
  · cases whole

/-- Depths are those of the child elements and of what is below them. -/
theorem Content.depths_eq (content : Content) (outer : Nat) :
    content.depths outer = content.elements.flatMap fun elem =>
      (outer + 1) :: elem.inner.depths (outer + 1) := by
  induction content with
  | nil => rfl
  | text pieces next ih | comment body next ih | pi target body next ih | cdata body next ih =>
    exact ih
  | empty tag next ih =>
    rw [Content.depths, Content.elements, List.flatMap_cons, ih]
    rfl
  | element tag inner endSpace next _ ih =>
    rw [Content.depths, Content.elements, List.flatMap_cons, ih]

section Text

private theorem mem_joinText {chars : List Char} {nodes : List Node} {value : String}
    (member : .text value ∈ joinText chars nodes) {c : Char} (inside : c ∈ value.toList) :
    c ∈ chars ∨ ∃ later, .text later ∈ nodes ∧ c ∈ later.toList := by
  unfold joinText at member
  split at member
  · rename_i later rest
    rcases List.mem_cons.mp member with same | other
    · cases same
      rw [String.toList_append, String.toList_ofList] at inside
      rcases List.mem_append.mp inside with here | there
      · exact .inl here
      · exact .inr ⟨later, by simp, there⟩
    · exact .inr ⟨value, List.mem_cons_of_mem _ other, inside⟩
  · rcases List.mem_cons.mp member with same | other
    · cases same
      rw [String.toList_ofList] at inside
      exact .inl inside
    · exact .inr ⟨value, other, inside⟩

/-- The characters of a text node are character data. -/
theorem mem_charData {content : Content} {scope : Scope} {value : String}
    (member : .text value ∈ content.nodes scope) {c : Char} (inside : c ∈ value.toList) :
    c ∈ content.charData := by
  induction content generalizing value with
  | nil => cases member
  | text pieces next ih =>
    rw [Content.nodes] at member
    rw [Content.charData, List.mem_append]
    split at member
    · exact .inr (ih member inside)
    · rcases mem_joinText member inside with here | ⟨later, other, there⟩
      · exact .inl here
      · exact .inr (ih other there)
  | cdata body next ih =>
    rw [Content.nodes] at member
    rw [Content.charData, List.mem_append]
    rcases mem_joinText member inside with here | ⟨later, other, there⟩
    · exact .inl here
    · exact .inr (ih other there)
  | comment body next ih | pi target body next ih | empty tag next ih
  | element tag inner endSpace next _ ih =>
    rw [Content.nodes] at member
    exact ih (by simpa using member) inside

/-- The text an element starts with is made of XML characters. -/
theorem isChar_of_textOf {elem : Elem} (valid : elem.inner.valid = true) {scope : Scope}
    {value : String} (found : (elem.node scope).textOf = some value) :
    ∀ c ∈ value.toList, isChar c = true := by
  intro c inside
  have first : .text value ∈ elem.inner.nodes (scope.enter elem.tag) := by
    unfold Elem.node at found
    unfold Node.textOf at found
    split at found
    · rename_i same
      cases found
      rw [Node.element.injEq] at same
      simp [same.2.2]
    · cases found
  exact Content.isChar_of_charData valid c (mem_charData first inside)

end Text

section Qualified

/-- A name, or a name after a namespace prefix. -/
def isQName (name : List Char) : Bool :=
  match splitName name with
  | (none, plain) => isNcName plain
  | (some bound, plain) => isNcName bound && isNcName plain

theorem isNcName_of_isQName {name : List Char} (qualified : isQName name = true) :
    isNcName (splitName name).2 = true := by
  unfold isQName at qualified
  split at qualified
  · rename_i same
    rw [same]
    exact qualified
  · rename_i same
    rw [same]
    rw [Bool.and_eq_true] at qualified
    exact qualified.2

/-- Every tag is a qualified name, as namespaces ask. -/
def Content.qualified : Content → Bool
  | nil => true
  | text _ next | comment _ next | pi _ _ next | cdata _ next => next.qualified
  | empty tag next => isQName tag.name && next.qualified
  | element tag inner _ next => isQName tag.name && inner.qualified && next.qualified

theorem Content.elements_qualified {content : Content} (qualified : content.qualified = true) :
    ∀ elem ∈ content.elements, isQName elem.tag.name = true ∧ elem.inner.qualified = true := by
  induction content with
  | nil => simp [Content.elements]
  | text pieces next ih | comment body next ih | pi target body next ih | cdata body next ih =>
    exact ih qualified
  | empty tag next ih =>
    rw [Content.qualified, Bool.and_eq_true] at qualified
    exact List.forall_mem_cons.mpr ⟨⟨qualified.1, rfl⟩, ih qualified.2⟩
  | element tag inner endSpace next _ ih =>
    rw [Content.qualified, Bool.and_eq_true, Bool.and_eq_true] at qualified
    exact List.forall_mem_cons.mpr ⟨qualified.1, ih qualified.2⟩

theorem Content.qualified_of_elements {content : Content}
    (each : ∀ elem ∈ content.elements, isQName elem.tag.name = true ∧ elem.inner.qualified = true) :
    content.qualified = true := by
  induction content with
  | nil => rfl
  | text pieces next ih | comment body next ih | pi target body next ih | cdata body next ih =>
    exact ih each
  | empty tag next ih =>
    obtain ⟨here, later⟩ := List.forall_mem_cons.mp each
    rw [Content.qualified, here.1, ih later]
    rfl
  | element tag inner endSpace next _ ih =>
    obtain ⟨here, later⟩ := List.forall_mem_cons.mp each
    rw [Content.qualified, here.1, here.2, ih later]
    rfl

/-- Well formed, also with its namespaces. -/
def Document.Namespaced (document : Document) : Prop :=
  document.valid = true ∧ document.root.qualified = true

/-- The root element of a well-formed document, its node, and what is known of it. -/
theorem Document.Namespaced.exists_root {document : Document} (formed : document.Namespaced) :
    ∃ elem, document.root.elements = [elem] ∧ document.tree = elem.node [] ∧
      elem.inner.valid = true ∧ isQName elem.tag.name = true ∧ elem.inner.qualified = true := by
  obtain ⟨valid, qualified⟩ := formed
  simp only [Document.valid, Bool.and_eq_true] at valid
  have whole : document.root.isRoot = true := valid.1.1.1.2
  obtain ⟨elem, only⟩ : ∃ elem, document.root.elements = [elem] := by
    generalize document.root = content at whole
    unfold Content.isRoot at whole
    split at whole
    · exact ⟨_, rfl⟩
    · exact ⟨_, rfl⟩
    · cases whole
  have member : elem ∈ document.root.elements := by simp [only]
  refine ⟨elem, only, Document.tree_eq whole (by simp [Document.rootElement, only]), ?_, ?_⟩
  · exact (Content.elements_valid valid.1.1.2 elem member).2
  · exact Content.elements_qualified qualified elem member

end Qualified

end OaGateway.Lib.Xml
