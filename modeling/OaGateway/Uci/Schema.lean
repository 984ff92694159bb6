import OaGateway.Crates
import OaGateway.Lib.Index
import OaGateway.Lib.Text

/-! The compiled UCI schema: global elements, complex types with their
extension chains, and named simple types with their facets. -/
namespace OaGateway.Uci

open Lib

/-- Deepest element nesting accepted when converting a payload. -/
def maxDepth : Nat := 96

/-- Links of a simple type chain `primitive` follows. -/
def maxSimpleDepth : Nat := 16

inductive UciError where
  | notUtf8
  | json (message : String)
  | xml (message : String)
  | unknownElement (name : String)
  | unknownType (name : String)
  | xsd (message : String)
  | atPath (path message : String)
  | tooDeep (path : String)
deriving DecidableEq, Repr

def UciError.display : UciError → String
  | notUtf8 => "not valid UTF-8"
  | json message => "invalid OMS JSON: " ++ message
  | xml message => "invalid UCI XML: " ++ message
  | unknownElement name => "unknown global element '" ++ name ++ "'"
  | unknownType name => "unknown type '" ++ name ++ "'"
  | xsd message => "unsupported or malformed XSD: " ++ message
  | atPath path message => "at " ++ path ++ ": " ++ message
  | tooDeep path => "at " ++ path ++ ": nesting is deeper than " ++ toString maxDepth ++ " elements"

/-- A pattern facet: what the XSD wrote, and its matcher if it translates. -/
structure Pattern where
  source : String
  matcher : Option (String → Bool)

namespace Pattern

/-- The loop of `translate`, with what it has written so far. -/
def translateLoop (out : List Char) (inClass : Bool) : List Char → List Char
  | [] => out
  | '\\' :: [] => out ++ ['\\']
  | '\\' :: escaped :: rest => translateLoop (out ++ ['\\', escaped]) inClass rest
  | c :: rest =>
    if c = '[' ∧ !inClass then translateLoop (out ++ [c]) true rest
    else if c = ']' ∧ inClass then translateLoop (out ++ [c]) false rest
    else if c = '^' ∨ c = '$' then
      if c = '^' ∧ inClass ∧ out.getLast? = some '[' then translateLoop (out ++ [c]) inClass rest
      else translateLoop (out ++ ['\\', c]) inClass rest
    else translateLoop (out ++ [c]) inClass rest

/-- An XSD pattern as an anchored Rust regex. -/
def translate (xsd : String) : String :=
  .ofList (translateLoop ['\\', 'A', '(', '?', ':'] false xsd.toList ++ [')', '\\', 'z'])

def new (crates : Crates) (source : String) : Pattern := ⟨source, crates.regex (translate source)⟩

def isChecked (pattern : Pattern) : Bool := pattern.matcher.isSome

/-- An unchecked pattern accepts everything. -/
def accepts (pattern : Pattern) (value : String) : Bool :=
  pattern.matcher.all fun accepted => accepted value

end Pattern

/-- Constraints a simple type places on a value, as written. -/
structure Facets where
  enumeration : List String := []
  patterns : List Pattern := []
  length : Option Nat := none
  minLength : Option Nat := none
  maxLength : Option Nat := none
  minInclusive : Option F64 := none
  maxInclusive : Option F64 := none
  minExclusive : Option F64 := none
  maxExclusive : Option F64 := none

structure SimpleType where
  base : String
  facets : Facets

/-- The facets in force for a type, gathered along its restriction chain. -/
structure Effective where
  enumeration : Option (List String) := none
  patterns : List (List Pattern) := []
  length : Option Nat := none
  minLength : Option Nat := none
  maxLength : Option Nat := none
  minInclusive : Option F64 := none
  maxInclusive : Option F64 := none
  minExclusive : Option F64 := none
  maxExclusive : Option F64 := none

inductive MaxOccurs where
  | bounded (max : Nat)
  | unbounded
deriving DecidableEq, Repr

/-- Whether JSON carries the field as an array. -/
def MaxOccurs.isArray : MaxOccurs → Bool
  | unbounded => true
  | bounded max => max > 1

structure Element where
  name : String
  typeName : String
  minOccurs : Nat
  maxOccurs : MaxOccurs
deriving DecidableEq, Repr

inductive GroupKind where
  | sequence
  | choice
deriving DecidableEq, Repr

structure Group where
  kind : GroupKind
  elements : List Element
deriving DecidableEq, Repr

inductive ComplexContent where
  | groups (groups : List Group)
  | extension (base : String) (extra : List Group)
deriving DecidableEq, Repr

structure ComplexType where
  abstract : Bool
  content : ComplexContent
deriving DecidableEq, Repr

structure Schema where
  /-- Global element to the type it is declared as. -/
  globalElements : Table String String
  complexTypes : Table String ComplexType
  simpleTypes : Table String SimpleType

/-- Keep whichever bound `keep` prefers, when both are given. -/
def stricter {Bound : Type} (keep : Bound → Bound → Bound) : Option Bound →
    Option Bound → Option Bound
  | some a, some b => some (keep a b)
  | some a, none => some a
  | none, other => other

namespace Schema

def new : Schema := ⟨∅, ∅, ∅⟩

def globalType (schema : Schema) (element : String) : Option String :=
  schema.globalElements.lookup element

/-- The compositors of a type, base types first. `chain` holds the names on
the way, so that a cycle is named rather than followed; it can grow no longer
than there are types, which is the fuel. -/
def groupsChain (schema : Schema) : Nat → String → List String → Except UciError (List Group)
  | 0, typeName, _ => .error (.unknownType typeName)
  | fuel + 1, typeName, chain =>
    if chain.contains typeName then
      .error (.xsd ("cyclic extension chain: " ++ " -> ".intercalate (chain ++ [typeName])))
    else match schema.complexTypes.lookup typeName with
      | none => .error (.unknownType typeName)
      | some complex =>
        match complex.content with
        | .groups groups => .ok groups
        | .extension base extra =>
          match schema.groupsChain fuel base (chain ++ [typeName]) with
          | .ok out => .ok (out ++ extra)
          | .error error => .error error

def groups (schema : Schema) (typeName : String) : Except UciError (List Group) :=
  schema.groupsChain (schema.complexTypes.keys.card + 2) typeName []

/-- Every element declaration a type contributes, base types included. -/
def flatten (schema : Schema) (typeName : String) : Except UciError (List Element) :=
  match schema.groups typeName with
  | .ok groups => .ok (groups.flatMap (·.elements))
  | .error error => .error error

def isComplex (schema : Schema) (typeName : String) : Bool :=
  (schema.complexTypes.lookup typeName).isSome

def isXsName (typeName : String) : Bool := "xs:".toList.isPrefixOf typeName.toList

/-- Whether the type holds a scalar rather than child elements. -/
def isSimple (schema : Schema) (typeName : String) : Bool :=
  isXsName typeName || (schema.simpleTypes.lookup typeName).isSome

def primitiveLoop (schema : Schema) : Nat → String → String
  | 0, current => current
  | fuel + 1, current =>
    if isXsName current then current
    else match schema.simpleTypes.lookup current with
      | some simple => schema.primitiveLoop fuel simple.base
      | none => current

/-- The `xs:` primitive a type ultimately restricts. -/
def primitive (schema : Schema) (typeName : String) : String :=
  schema.primitiveLoop maxSimpleDepth typeName

/-- Gather one link of a restriction chain. -/
def addFacets (out : Effective) (facets : Facets) : Effective where
  enumeration :=
    if out.enumeration.isNone && !facets.enumeration.isEmpty then some facets.enumeration
    else out.enumeration
  patterns := if facets.patterns.isEmpty then out.patterns else out.patterns ++ [facets.patterns]
  length := out.length.or facets.length
  minLength := stricter Nat.max out.minLength facets.minLength
  maxLength := stricter Nat.min out.maxLength facets.maxLength
  minInclusive := stricter F64.max out.minInclusive facets.minInclusive
  maxInclusive := stricter F64.min out.maxInclusive facets.maxInclusive
  minExclusive := stricter F64.max out.minExclusive facets.minExclusive
  maxExclusive := stricter F64.min out.maxExclusive facets.maxExclusive

def facetsLoop (schema : Schema) : Nat → String → Effective → Effective
  | 0, _, out => out
  | fuel + 1, current, out =>
    match schema.simpleTypes.lookup current with
    | none => out
    | some simple => schema.facetsLoop fuel simple.base (addFacets out simple.facets)

/-- Every constraint a value of `typeName` has to satisfy. -/
def effectiveFacets (schema : Schema) (typeName : String) : Effective :=
  schema.facetsLoop maxSimpleDepth typeName {}

end Schema

end OaGateway.Uci
