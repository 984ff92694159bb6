import OaGateway.Lib.Xml.Resolve

/-! The elements of a document, each with the namespaces in force at it. -/
namespace OaGateway.Lib.Xml

/-- What a start tag says of its element. -/
structure Header where
  tagName : ExpandedName
  attributes : List (ExpandedName × String)
  scope : Scope

/-- An element and the elements directly in it. Text, comments and processing
instructions are left out. -/
inductive ElementNode where
  | mk (header : Header) (elements : List ElementNode)

namespace ElementNode

def header : ElementNode → Header
  | mk header _ => header

def elements : ElementNode → List ElementNode
  | mk _ elements => elements

def localName (node : ElementNode) : String := node.header.tagName.name

def space (node : ElementNode) : Option String := node.header.tagName.space

/-- The value of an attribute in no namespace. -/
def attributeOf (node : ElementNode) (name : String) : Option String :=
  (node.header.attributes.find? fun entry => entry.1 == ⟨none, name⟩).map Prod.snd

def lookupNamespaceUri (node : ElementNode) (bound : Option (List Char)) : Option String :=
  node.header.scope.resolve bound

@[simp] theorem header_mk (header : Header) (elements : List ElementNode) :
    (mk header elements).header = header := rfl

@[simp] theorem elements_mk (header : Header) (elements : List ElementNode) :
    (mk header elements).elements = elements := rfl

end ElementNode

/-- A place for one more child in a tree: directly in the root, between some
children, or in one of them. -/
inductive Site where
  | here (header : Header) (front back : List ElementNode)
  | inside (header : Header) (front : List ElementNode) (site : Site) (back : List ElementNode)

namespace Site

def header : Site → Header
  | here header _ _ => header
  | inside header _ _ _ => header

def localName (site : Site) : String := site.header.tagName.name

/-- The tree without the child. -/
def before : Site → ElementNode
  | here header front back => .mk header (front ++ back)
  | inside header front site back => .mk header (front ++ site.before :: back)

/-- The tree with it. -/
def after (child : ElementNode) : Site → ElementNode
  | here header front back => .mk header (front ++ child :: back)
  | inside header front site back => .mk header (front ++ site.after child :: back)

/-- The start tag of the element the child is put in. -/
def parent : Site → Header
  | here header _ _ => header
  | inside _ _ site _ => site.parent

@[simp] theorem header_before (site : Site) : site.before.header = site.header := by
  cases site <;> rfl

@[simp] theorem header_after (site : Site) (child : ElementNode) : (site.after child).header =
    site.header := by
  cases site <;> rfl

end Site

namespace Content

/-- The elements of some content. -/
def elementNodes (scope : Scope) : Content → List ElementNode
  | nil => []
  | text _ next | comment _ next | pi _ _ next | cdata _ next => next.elementNodes scope
  | empty tag next =>
    let inside := scope.enter tag
    .mk ⟨inside.elementName tag.name, inside.attributes tag, inside⟩ [] :: next.elementNodes scope
  | element tag inner _ next =>
    let inside := scope.enter tag
    .mk ⟨inside.elementName tag.name, inside.attributes tag, inside⟩ (inner.elementNodes inside) ::
      next.elementNodes scope

/-- The elements of some content as they are written, each alone. -/
def items : Content → List Content
  | nil => []
  | text _ next | comment _ next | pi _ _ next | cdata _ next => next.items
  | empty tag next => empty tag nil :: next.items
  | element tag inner endSpace next => element tag inner endSpace nil :: next.items

theorem elementNodes_items (scope : Scope) (content : Content) :
    content.elementNodes scope = content.items.flatMap (elementNodes scope) := by
  induction content with
  | nil => rfl
  | text _ next ih | comment _ next ih | pi _ _ next ih | cdata _ next ih => exact ih
  | empty tag next ih => simp [elementNodes, items, ih]
  | element tag inner endSpace next _ ih => simp [elementNodes, items, ih]

theorem depths_items (content : Content) (outer : Nat) :
    content.depths outer = content.items.flatMap (depths outer) := by
  induction content with
  | nil => rfl
  | text _ next ih | comment _ next ih | pi _ _ next ih | cdata _ next ih => exact ih
  | empty tag next ih => simp [depths, items, ih]
  | element tag inner endSpace next _ ih => simp [depths, items, ih]

end Content

namespace Document

/-- The document element. A document without one is not well formed. -/
def elementTree (document : Document) : ElementNode :=
  ((document.root.elementNodes []).head?).getD (.mk ⟨⟨none, ""⟩, [], []⟩ [])

/-- The elements directly in the document element stand in another order. -/
def Rearranged (first second : Document) : Prop :=
  ∃ tag inner endSpace other otherSpace, first.root = .element tag inner endSpace .nil ∧
    second.root = .element tag other otherSpace .nil ∧ inner.items.Perm other.items

theorem Rearranged.symm {first second : Document} (moved : Rearranged first second) :
    Rearranged second first := by
  obtain ⟨tag, inner, endSpace, other, otherSpace, one, two, perm⟩ := moved
  exact ⟨tag, other, otherSpace, inner, endSpace, two, one, perm.symm⟩

theorem Rearranged.depths_perm {first second : Document} (moved : Rearranged first second) :
    first.depths.Perm second.depths := by
  obtain ⟨tag, inner, endSpace, other, otherSpace, one, two, perm⟩ := moved
  have below := perm.flatMap_right (Content.depths 1)
  rw [← Content.depths_items, ← Content.depths_items] at below
  rw [depths, depths, one, two]
  simpa [Content.depths] using below

theorem Rearranged.elementTree {first second : Document} (moved : Rearranged first second) :
    ∃ header elements others, first.elementTree = .mk header elements ∧
      second.elementTree = .mk header others ∧ elements.Perm others := by
  obtain ⟨tag, inner, endSpace, other, otherSpace, one, two, perm⟩ := moved
  let inside : Scope := Scope.enter [] tag
  refine ⟨⟨inside.elementName tag.name, inside.attributes tag, inside⟩, inner.elementNodes inside,
    other.elementNodes inside, ?_, ?_, ?_⟩
  · simp [Document.elementTree, one, Content.elementNodes, inside]
  · simp [Document.elementTree, two, Content.elementNodes, inside]
  · rw [Content.elementNodes_items, Content.elementNodes_items]
    exact perm.flatMap_right _

end Document

end OaGateway.Lib.Xml
