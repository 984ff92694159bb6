import OaGateway.Lib.Xml.Grammar

/-! The tree a namespace-aware parser builds, and the questions asked of it. -/
namespace OaGateway.Lib.Xml

/-- A name with the namespace its prefix stands for. -/
structure ExpandedName where
  space : Option String
  name : String
deriving DecidableEq, Repr

/-- A node below the document. Character data is split by comments and
processing instructions, and by nothing else. -/
inductive Node where
  | element (tagName : ExpandedName) (attributes : List (ExpandedName × String))
    (children : List Node)
  | text (value : String)
  | comment (value : String)
  | pi (target : String) (value : String)

namespace Node

def isElement : Node → Bool
  | element .. => true
  | _ => false

def children : Node → List Node
  | element _ _ children => children
  | _ => []

/-- Local name of an element. -/
def localName : Node → String
  | element tagName _ _ => tagName.name
  | _ => ""

def attributeOf (node : Node) (space name : String) : Option String :=
  match node with
  | element _ attributes _ =>
    (attributes.find? fun entry => entry.1 == ⟨some space, name⟩).map Prod.snd
  | _ => none

/-- The first child of an element, if that is text. -/
def textOf : Node → Option String
  | element _ _ (text value :: _) => some value
  | _ => none

mutual

/-- The node and everything below it, in document order. -/
def descendants : Node → List Node
  | element tagName attributes children =>
    element tagName attributes children :: descendantsOf children
  | other => [other]

def descendantsOf : List Node → List Node
  | [] => []
  | child :: rest => child.descendants ++ descendantsOf rest

end

end Node

end OaGateway.Lib.Xml
