import Mathlib.Data.Finset.Sort
import Mathlib.Data.List.ReduceOption
import Mathlib.Data.String.Basic
import OaGateway.Lib.Collect
import OaGateway.Lib.Xml.ElementTree
import OaGateway.Uci.Nesting
import OaGateway.Uci.Schema

/-! The schema compiler: XSD documents, of the subset the published schema keeps
to, into one `Schema`. -/
namespace OaGateway.Uci.Xsd

open Lib
open Lib.Xml (ElementNode)

/-- What the compiler takes from other crates besides the shared ones. -/
structure XsdCrates extends Crates where
  /-- `roxmltree::Document::parse`, down to the elements of its tree. -/
  documentParse : String → Except String ElementNode

def xs : String := "http://www.w3.org/2001/XMLSchema"

def isXs (node : ElementNode) : Bool := node.space == some xs

def fail {Result : Type} (message : String) : Except UciError Result := .error (.xsd message)

/-- Child elements without the annotations; all of them have to be of XML Schema. -/
def definitions (node : ElementNode) : Except UciError (List ElementNode) :=
  match node.elements.find? fun child => !isXs child with
  | some child =>
    fail ("unexpected element <" ++ child.localName ++ "> outside the XML Schema namespace")
  | none => .ok (node.elements.filter fun child => child.localName != "annotation")

def required (node : ElementNode) (attr : String) : Except UciError String :=
  match node.attributeOf attr with
  | some value => .ok value
  | none => fail ("<xs:" ++ node.localName ++ "> is missing the required " ++ attr ++ "= attribute")

def mapError {Result : Type} (error : UciError) : Except UciError Result → Except UciError Result
  | .ok result => .ok result
  | .error _ => .error error

/-- A qualified name: `xs:` and the local part for XML Schema's own, the local
part for any other. -/
def typeRef (node : ElementNode) (qname : String) : String :=
  let (bound, rest) := Xml.splitName qname.toList
  if node.lookupNamespaceUri bound = some xs then "xs:" ++ .ofList rest else .ofList rest

def minOccurs (node : ElementNode) (owner : String) : Except UciError Nat :=
  match node.attributeOf "minOccurs" with
  | none => .ok 1
  | some raw =>
    match parseU32 raw with
    | some count => .ok count.toNat
    | none => fail ("'" ++ owner ++ "' has an unreadable minOccurs='" ++ raw ++ "'")

def maxOccurs (node : ElementNode) (owner : String) : Except UciError MaxOccurs :=
  match node.attributeOf "maxOccurs" with
  | none => .ok (.bounded 1)
  | some raw =>
    if raw = "unbounded" then .ok .unbounded
    else match parseU32 raw with
      | some count => .ok (.bounded count.toNat)
      | none => fail ("'" ++ owner ++ "' has an unreadable maxOccurs='" ++ raw ++ "'")

/-- A local element declaration. What stands inside it is not looked at. -/
def localElement (owner : String) (node : ElementNode) : Except UciError Element := do
  let name ← mapError (.xsd ("an element of '" ++ owner ++ "' has no name=")) (required node "name")
  let typeName ← match node.attributeOf "type" with
    | some qname => .ok (typeRef node qname)
    | none =>
      fail ("element '" ++ owner ++ "/" ++ name ++
        "' has no type=; anonymous inline types are not supported")
  let min ← minOccurs node owner
  let max ← maxOccurs node owner
  .ok ⟨name, typeName, min, max⟩

def member (owner : String) (child : ElementNode) : Except UciError Element :=
  if child.localName = "element" then localElement owner child
  else fail ("complexType '" ++ owner ++ "' nests 'xs:" ++ child.localName ++
    "' inside a compositor, which is not supported")

def compositor (owner : String) (node : ElementNode) : Except UciError (List Element) := do
  if (node.attributeOf "minOccurs").isSome || (node.attributeOf "maxOccurs").isSome then
    fail ("complexType '" ++ owner ++
      "' puts occurrence constraints on a compositor, which the flat element model cannot represent")
  else
    let children ← definitions node
    collect (member owner) children

def sequence (elements : List Element) : Group := ⟨.sequence, elements⟩

def choice (elements : List Element) : Group := ⟨.choice, elements⟩

def extraGroup (owner : String) (inner : ElementNode) : Except UciError Group :=
  if inner.localName = "sequence" then (compositor owner inner).map sequence
  else if inner.localName = "choice" then (compositor owner inner).map choice
  else fail ("complexType '" ++ owner ++ "' extends its base with unsupported 'xs:" ++
    inner.localName ++ "'")

/-- The only derivation of `xs:complexContent` that is taken. -/
def extension (owner : String) (derivation : ElementNode) : Except UciError ComplexContent := do
  if derivation.localName ≠ "extension" then
    fail ("complexType '" ++ owner ++ "' derives by 'xs:" ++ derivation.localName ++
      "'; only extension is supported")
  else
    let base ← required derivation "base"
    let children ← definitions derivation
    let extra ← collect (extraGroup owner) children
    .ok (.extension (typeRef derivation base) extra)

/-- The first child is the derivation; no other is looked at. -/
def complexContent (owner : String) (node : ElementNode) : Except UciError ComplexContent := do
  match ← definitions node with
  | [] => fail ("complexType '" ++ owner ++ "' has an empty xs:complexContent")
  | derivation :: _ => extension owner derivation

def contentModel (owner : String) (child : ElementNode) : Except UciError ComplexContent :=
  if child.localName = "sequence" then (compositor owner child).map fun elements =>
    .groups [sequence elements]
  else if child.localName = "choice" then (compositor owner child).map fun elements =>
    .groups [choice elements]
  else if child.localName = "complexContent" then complexContent owner child
  else fail ("complexType '" ++ owner ++ "' uses unsupported content model 'xs:" ++
    child.localName ++ "'")

/-- One named `complexType`: a sequence, a choice, an extension or nothing. -/
def complexType (node : ElementNode) : Except UciError (String × ComplexType) := do
  let name ← required node "name"
  let isAbstract := node.attributeOf "abstract" == some "true"
  match ← definitions node with
  | [] => .ok (name, ⟨isAbstract, .groups []⟩)
  | [child] =>
    let content ← contentModel name child
    .ok (name, ⟨isAbstract, content⟩)
  | child :: _ =>
    let _ ← contentModel name child
    fail ("complexType '" ++ name ++ "' declares more than one content model")

inductive Facet where
  | enumeration (value : String)
  | pattern (pattern : Pattern)
  | length (count : Nat)
  | minLength (count : Nat)
  | maxLength (count : Nat)
  | minInclusive (number : F64)
  | maxInclusive (number : F64)
  | minExclusive (number : F64)
  | maxExclusive (number : F64)

/-- Values and patterns add up; of a length or a bound the last one counts. -/
def put (facets : Facets) : Facet → Facets
  | .enumeration value => { facets with enumeration := facets.enumeration ++ [value] }
  | .pattern pattern => { facets with patterns := facets.patterns ++ [pattern] }
  | .length count => { facets with length := some count }
  | .minLength count => { facets with minLength := some count }
  | .maxLength count => { facets with maxLength := some count }
  | .minInclusive number => { facets with minInclusive := some number }
  | .maxInclusive number => { facets with maxInclusive := some number }
  | .minExclusive number => { facets with minExclusive := some number }
  | .maxExclusive number => { facets with maxExclusive := some number }

def count (name value what : String) : Except UciError Nat :=
  match parseU64 value with
  | some count => .ok count.toNat
  | none =>
    fail ("simpleType '" ++ name ++ "' has " ++ what ++ " of '" ++ value ++
      "', which is not a length")

def number (name value what : String) : Except UciError F64 :=
  match F64.parse value with
  | some number => .ok number
  | none =>
    fail ("simpleType '" ++ name ++ "' has " ++ what ++ " of '" ++ value ++
      "', which is not a number")

/-- One child of a restriction. White space handling is no constraint. -/
def facet (crates : Crates) (name : String) (node : ElementNode) :
    Except UciError (Option Facet) := do
  if node.localName = "whiteSpace" then .ok none
  else
    let value ← mapError
      (.xsd ("simpleType '" ++ name ++ "' has an 'xs:" ++ node.localName ++
        "' facet with no value="))
      (required node "value")
    match node.localName with
    | "enumeration" => .ok (some (.enumeration value))
    | "pattern" => .ok (some (.pattern (.new crates value)))
    | "length" => (count name value "a length").map fun count => some (.length count)
    | "minLength" => (count name value "a minLength").map fun count => some (.minLength count)
    | "maxLength" => (count name value "a maxLength").map fun count => some (.maxLength count)
    | "minInclusive" =>
      (number name value "a minInclusive").map fun number => some (.minInclusive number)
    | "maxInclusive" =>
      (number name value "a maxInclusive").map fun number => some (.maxInclusive number)
    | "minExclusive" =>
      (number name value "a minExclusive").map fun number => some (.minExclusive number)
    | "maxExclusive" =>
      (number name value "a maxExclusive").map fun number => some (.maxExclusive number)
    | other => fail ("simpleType '" ++ name ++ "' uses unsupported facet 'xs:" ++ other ++ "'")

/-- The only derivation of a simple type that is taken. -/
def restriction (crates : Crates) (name : String) (node : ElementNode) :
    Except UciError SimpleType := do
  if node.localName ≠ "restriction" then
    fail ("simpleType '" ++ name ++ "' uses 'xs:" ++ node.localName ++
      "'; only restriction is supported")
  else
    let base ← required node "base"
    let children ← definitions node
    let facets ← collect (facet crates name) children
    .ok ⟨typeRef node base, facets.reduceOption.foldl put {}⟩

/-- The first child is the restriction; no other is looked at. -/
def simpleType (crates : Crates) (node : ElementNode) : Except UciError (String × SimpleType) := do
  let name ← required node "name"
  match ← definitions node with
  | [] => fail ("simpleType '" ++ name ++ "' has no xs:restriction")
  | node :: _ =>
    let simple ← restriction crates name node
    .ok (name, simple)

inductive Definition where
  | element
  | complex
  | simple
deriving DecidableEq, Repr

/-- Reject a redefinition. -/
def claim (schema : Schema) (name : String) (kind : Definition) : Except UciError Unit :=
  let taken := match kind with
    | .element => (schema.globalElements.lookup name).isSome
    | .complex => (schema.complexTypes.lookup name).isSome
    | .simple => (schema.simpleTypes.lookup name).isSome
  if taken then
    let what := match kind with
      | .element => "global element"
      | .complex => "complexType"
      | .simple => "simpleType"
    fail (what ++ " '" ++ name ++ "' is defined twice; is the same document passed more than once?")
  else .ok ()

def addDefinition (crates : Crates) (schema : Schema) (child : ElementNode) :
    Except UciError Schema := do
  if child.localName = "element" then
    let name ← required child "name"
    let qname ← mapError
      (.xsd ("global element '" ++ name ++
        "' has no type=; anonymous inline types are not supported"))
      (required child "type")
    claim schema name .element
    .ok { schema with globalElements := schema.globalElements.insert name (typeRef child qname) }
  else if child.localName = "complexType" then
    let (name, complex) ← complexType child
    claim schema name .complex
    .ok { schema with complexTypes := schema.complexTypes.insert name complex }
  else if child.localName = "simpleType" then
    let (name, simple) ← simpleType crates child
    claim schema name .simple
    .ok { schema with simpleTypes := schema.simpleTypes.insert name simple }
  else if child.localName = "include" ∨ child.localName = "import" then .ok schema
  else fail ("top-level 'xs:" ++ child.localName ++ "' is outside the supported subset")

def addDocument (crates : Crates) (root : ElementNode) (schema : Schema) :
    Except UciError Schema := do
  if !isXs root || root.localName != "schema" then
    fail ("root element is <" ++ root.localName ++ ">, expected <xs:schema>")
  else
    let children ← definitions root
    children.foldlM (addDefinition crates) schema

def maxReported : Nat := 10

/-- The type names a complex type refers to. -/
def ComplexContent.references : ComplexContent → List String
  | .groups groups => groups.flatMap fun group => group.elements.map Element.typeName
  | .extension base extra => base :: extra.flatMap fun group => group.elements.map Element.typeName

def references (schema : Schema) : Multiset String :=
  schema.globalElements.entries.map (fun entry => entry.2) +
    schema.complexTypes.entries.bind (fun entry => ↑(ComplexContent.references entry.2.content)) +
    schema.simpleTypes.entries.map (fun entry => entry.2.base)

def known (schema : Schema) (typeName : String) : Bool :=
  Schema.isXsName typeName || (schema.complexTypes.lookup typeName).isSome ||
    (schema.simpleTypes.lookup typeName).isSome

/-- Confirm that every type reference lands on something the schema defines. -/
def checkReferences (schema : Schema) : Except UciError Unit :=
  let missing := ((references schema).filter fun typeName => !known schema typeName).toFinset
  if missing = ∅ then .ok ()
  else
    let shown := (missing.sort (· ≤ ·)).take maxReported
    let suffix := if missing.card > shown.length then ", and " ++
      toString (missing.card - shown.length) ++ " more" else ""
    fail (toString missing.card ++
      " type reference(s) do not resolve, so a schema document is probably missing: " ++
        ", ".intercalate shown ++ suffix)

def addText (crates : XsdCrates) (schema : Schema) (document : String × Nat) :
    Except UciError Schema :=
  if nestingExceeds document.1 maxDepth then
    fail ("document " ++ toString document.2 ++ " nests deeper than " ++
      toString maxDepth ++ " elements")
  else match crates.documentParse document.1 with
    | .error error =>
      fail ("document " ++ toString document.2 ++ " is not well-formed XML: " ++ error)
    | .ok root => addDocument crates.toCrates root schema

/-- Compile XSD documents into one schema. -/
def compile (crates : XsdCrates) (documents : List String) : Except UciError Schema := do
  let schema ← documents.zipIdx.foldlM (addText crates) Schema.new
  checkReferences schema
  .ok schema

end OaGateway.Uci.Xsd
