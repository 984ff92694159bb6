import OaGateway.Lib.Xml.Infoset
import OaGateway.Lib.Xml.Tree

/-! The tree a namespace-aware parser builds from a document, and documents
that differ only by comments and processing instructions. -/
namespace OaGateway.Lib.Xml

/-- Namespace bindings in force, innermost first. The default one has no prefix. -/
abbrev Scope := List (Option (List Char) × String)

/-- A qualified name as its prefix and its local part. -/
def splitName (name : List Char) : Option (List Char) × List Char :=
  match name.dropWhile (· != ':') with
  | [] => (none, name)
  | _ :: rest => (some (name.takeWhile (· != ':')), rest)

/-- An attribute's value after normalization. -/
def attributeChars : List Piece → List Char
  | [] => []
  | .char '\r' :: .char '\n' :: rest => ' ' :: attributeChars rest
  | .char c :: rest => (if isSpace c then ' ' else c) :: attributeChars rest
  | .ref reference :: rest => reference.value :: attributeChars rest

namespace Scope

def xmlSpace : String := "http://www.w3.org/XML/1998/namespace"

/-- The bindings one attribute declares. -/
def declared (attr : Attribute) : Scope :=
  if attr.name = ['x', 'm', 'l', 'n', 's'] then [(none, .ofList (attributeChars attr.value))]
  else match splitName attr.name with
    | (some ['x', 'm', 'l', 'n', 's'], bound) => [(some bound, .ofList (attributeChars attr.value))]
    | _ => []

/-- The bindings inside an element. -/
def enter (scope : Scope) (tag : Tag) : Scope := tag.attributes.flatMap declared ++ scope

/-- The namespace a prefix stands for; an empty one is none. -/
def resolve (scope : Scope) (bound : Option (List Char)) : Option String :=
  if bound = some ['x', 'm', 'l'] then some xmlSpace
  else (scope.lookup bound).filter (· != "")

def elementName (scope : Scope) (name : List Char) : ExpandedName :=
  ⟨scope.resolve (splitName name).1, .ofList (splitName name).2⟩

/-- An attribute without a prefix is in no namespace. -/
def attributeName (scope : Scope) (name : List Char) : ExpandedName :=
  ⟨(splitName name).1.bind fun bound => scope.resolve (some bound), .ofList (splitName name).2⟩

def attributes (scope : Scope) (tag : Tag) : List (ExpandedName × String) :=
  (tag.attributes.filter fun attr => (declared attr).isEmpty).map fun attr =>
    (scope.attributeName attr.name, .ofList (attributeChars attr.value))

end Scope

/-- Character data in front of other nodes joins the text they start with. -/
def joinText (chars : List Char) : List Node → List Node
  | .text later :: rest => .text (.ofList chars ++ later) :: rest
  | nodes => .text (.ofList chars) :: nodes

namespace Content

/-- The nodes of some content. -/
def nodes (scope : Scope) : Content → List Node
  | nil => []
  | text pieces next =>
    if pieces.isEmpty then next.nodes scope else joinText (pieceChars pieces) (next.nodes scope)
  | cdata body next => joinText (normalizeLines body) (next.nodes scope)
  | comment body next => .comment (.ofList (normalizeLines body)) :: next.nodes scope
  | pi target body next =>
    .pi (.ofList target) (.ofList (normalizeLines (body.dropWhile isSpace))) :: next.nodes scope
  | empty tag next =>
    let inside := scope.enter tag
    .element (inside.elementName tag.name) (inside.attributes tag) [] :: next.nodes scope
  | element tag inner _ next =>
    let inside := scope.enter tag
    .element (inside.elementName tag.name) (inside.attributes tag) (inner.nodes inside) ::
      next.nodes scope

/-- Put text in front, as one run with the text that follows. -/
def consText (pieces : List Piece) : Content → Content
  | text later next => text (pieces ++ later) next
  | content => if pieces.isEmpty then content else text pieces content

/-- Content without its comments and processing instructions. -/
def strip : Content → Content
  | nil => nil
  | text pieces next => consText pieces next.strip
  | comment _ next | pi _ _ next => next.strip
  | cdata body next => cdata body next.strip
  | empty tag next => empty tag next.strip
  | element tag inner endSpace next => element tag inner.strip endSpace next.strip

theorem depths_consText (pieces : List Piece) (content : Content) (outer : Nat) :
    (consText pieces content).depths outer = content.depths outer := by
  cases content <;> simp only [consText] <;> first | rfl | (split <;> rfl)

theorem depths_strip (content : Content) (outer : Nat) : content.strip.depths outer =
    content.depths outer := by
  induction content generalizing outer with
  | nil => rfl
  | text pieces next ih => rw [strip, depths_consText, ih]; rfl
  | comment _ next ih | pi _ _ next ih | cdata _ next ih => exact ih outer
  | empty tag next ih => simp only [strip, depths, ih]
  | element tag inner endSpace next inside ih => simp only [strip, depths, inside, ih]

end Content

namespace Document

/-- The document element as a node. -/
def tree (document : Document) : Node := ((document.root.nodes []).head?).getD (.comment "")

/-- The two differ only by comments and processing instructions in element content. -/
def SameMarkup (first second : Document) : Prop :=
  first.declaration = second.declaration ∧ first.prolog = second.prolog ∧
    first.epilog = second.epilog ∧ first.root.strip = second.root.strip

instance : DecidableRel SameMarkup := fun _ _ => inferInstanceAs (Decidable (_ ∧ _))

theorem SameMarkup.depths_eq {first second : Document} (same : SameMarkup first second) :
    first.depths = second.depths := by
  rw [depths, depths, ← Content.depths_strip first.root, same.2.2.2, Content.depths_strip]

end Document

section Skeleton

mutual

/-- An element without the text, comments and instructions in it. -/
def Node.skeleton : Node → Node
  | .element tagName attributes children => .element tagName attributes (skeletons children)
  | other => other

def skeletons : List Node → List Node
  | [] => []
  | node :: rest => if node.isElement then node.skeleton :: skeletons rest else skeletons rest

end

/-- The child elements of a node. -/
def Node.elements (node : Node) : List Node := node.children.filter Node.isElement

theorem skeletons_eq (nodes : List Node) :
    skeletons nodes = (nodes.filter Node.isElement).map Node.skeleton := by
  induction nodes with
  | nil => rfl
  | cons node rest ih =>
    rw [skeletons, List.filter_cons]
    split
    · rw [ih, List.map_cons]
    · exact ih

namespace Node

theorem localName_skeleton (node : Node) : node.skeleton.localName = node.localName := by
  cases node <;> rfl

theorem attributeOf_skeleton (node : Node) (space name : String) :
    node.skeleton.attributeOf space name = node.attributeOf space name := by
  cases node <;> rfl

theorem children_skeleton (node : Node) : node.skeleton.children = node.elements.map skeleton := by
  cases node with
  | element => exact skeletons_eq _
  | text | comment | pi => rfl

/-- Child elements of nodes with one skeleton, side by side. -/
theorem elements_paired {first second : Node} (same : first.skeleton = second.skeleton) :
    ∃ pairs : List (Node × Node), pairs = first.elements.zip second.elements ∧
      first.elements = pairs.map Prod.fst ∧ second.elements = pairs.map Prod.snd ∧
      ∀ pair ∈ pairs, pair.1.skeleton = pair.2.skeleton := by
  have below : first.elements.map skeleton = second.elements.map skeleton := by
    rw [← children_skeleton, ← children_skeleton, same]
  have count : first.elements.length = second.elements.length := by
    simpa using congrArg List.length below
  refine ⟨_, rfl, ?_, ?_, ?_⟩
  · rw [List.map_fst_zip (Nat.le_of_eq count)]
  · rw [List.map_snd_zip (Nat.le_of_eq count.symm)]
  · intro pair member
    obtain ⟨index, inside, rfl⟩ := List.mem_iff_getElem.mp member
    have alike := congrArg (fun list => list[index]?) below
    simp only [List.length_zip, Nat.lt_min] at inside
    simpa [inside.1, inside.2] using alike

end Node

private theorem skeletons_joinText (chars : List Char) (nodes : List Node) :
    skeletons (joinText chars nodes) = skeletons nodes := by
  cases nodes with
  | nil => rfl
  | cons node rest => cases node <;> rfl

private theorem skeletons_consText (scope : Scope) (pieces : List Piece) (content : Content) :
    skeletons ((Content.consText pieces content).nodes scope) =
      skeletons (content.nodes scope) := by
  have inFront (next : Content) :
      skeletons ((Content.text pieces next).nodes scope) = skeletons (next.nodes scope) := by
    rw [Content.nodes]
    split
    · rfl
    · exact skeletons_joinText _ _
  cases content with
  | text later next =>
    rw [Content.consText, Content.nodes, Content.nodes]
    split <;> split <;> simp [skeletons_joinText]
  | nil | comment | pi | cdata | empty | element =>
    simp only [Content.consText]
    split
    · rfl
    · exact inFront _

theorem skeletons_strip (scope : Scope) (content : Content) :
    skeletons (content.strip.nodes scope) = skeletons (content.nodes scope) := by
  induction content generalizing scope with
  | nil => rfl
  | text pieces next ih =>
    rw [Content.strip, skeletons_consText, ih, Content.nodes]
    split
    · rfl
    · rw [skeletons_joinText]
  | comment _ next ih | pi _ _ next ih => exact ih scope
  | cdata body next ih =>
    rw [Content.strip, Content.nodes, Content.nodes, skeletons_joinText, skeletons_joinText, ih]
  | empty tag next ih => simp [Content.strip, Content.nodes, skeletons, Node.skeleton, ih]
  | element tag inner endSpace next inside ih =>
    simp [Content.strip, Content.nodes, skeletons, Node.skeleton, Node.isElement, inside, ih]

theorem Document.skeletons_root {document : Document} (whole : document.root.isRoot = true) :
    skeletons (document.root.nodes []) = [document.tree.skeleton] := by
  unfold Document.tree
  generalize document.root = content at whole ⊢
  unfold Content.isRoot at whole
  split at whole
  · simp [Content.nodes, skeletons, Node.isElement]
  · simp [Content.nodes, skeletons, Node.isElement]
  · cases whole

/-- Documents that differ only by comments and instructions have one skeleton. -/
theorem Document.SameMarkup.skeleton_eq {first second : Document} (same : SameMarkup first second)
    (whole : first.root.isRoot = true) (other : second.root.isRoot = true) :
    first.tree.skeleton = second.tree.skeleton := by
  have alike : skeletons (first.root.nodes []) = skeletons (second.root.nodes []) := by
    rw [← skeletons_strip, same.2.2.2, skeletons_strip]
  rw [Document.skeletons_root whole, Document.skeletons_root other] at alike
  exact List.head_eq_of_cons_eq alike

end Skeleton

end OaGateway.Lib.Xml
