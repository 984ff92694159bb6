import OaGateway.Uci.Instance
import OaGateway.Uci.Primitive
import OaGateway.Uci.Schema

/-! Checking a message against the schema it claims to follow. -/
namespace OaGateway.Uci

open Lib

/-- What an adapter does about a message that does not follow the schema. -/
inductive Mode where
  | off
  | warn
  | reject
deriving DecidableEq, Repr

def Mode.isOn : Mode → Bool
  | off => false
  | warn | reject => true

/-- How a message departed from the schema. -/
inductive ViolationKind where
  | undeclared (element : String)
  | missing (element : String)
  | tooFew (element : String) (min found : Nat)
  | tooMany (element : String) (max found : Nat)
  | noAlternative (alternatives : List String)
  | manyAlternatives (taken : List String)
  | abstractType (typeName : String)
  | unusableType (typeName reason : String)
  | tooDeep
  | notEnumerated (value : String) (allowed : List String) (total : Nat)
  | length (value : String) (len : Nat) (unit requirement : String)
  | range (value requirement : String)
  | patternMismatch (value : String) (patterns : List String)
  | notLexical (value primitive expected : String)
deriving DecidableEq, Repr

structure Violation where
  path : String
  kind : ViolationKind
deriving DecidableEq, Repr

section Report

/-- A long value is cut rather than repeated whole. -/
def abbreviated (text : String) : String :=
  if text.toList.length ≤ 60 then text else .ofList (text.toList.take 60) ++ "…"

def quoted (names : List String) : String :=
  ", ".intercalate (names.map fun name => "'" ++ name ++ "'")

def ViolationKind.display : ViolationKind → String
  | undeclared element => "'" ++ element ++ "' is not declared by this type"
  | missing element => "'" ++ element ++ "' is required and absent"
  | tooFew element min found =>
    "'" ++ element ++ "' appears " ++ toString found ++ " times, minOccurs is " ++ toString min
  | tooMany element max found =>
    "'" ++ element ++ "' appears " ++ toString found ++ " times, maxOccurs is " ++ toString max
  | noAlternative alternatives =>
    "none of " ++ quoted alternatives ++ " is present, and one of them must be"
  | manyAlternatives taken => quoted taken ++ " are all present, and they are alternatives"
  | abstractType typeName => "'" ++ typeName ++ "' is abstract, so a concrete type has to be named"
  | unusableType typeName reason =>
    "declared type '" ++ typeName ++ "' cannot be used: " ++ reason
  | tooDeep => "nests deeper than " ++ toString maxDepth ++ " elements"
  | notEnumerated value allowed total =>
    "'" ++ abbreviated value ++ "' is not one of the " ++ toString total ++
      " values this type allows: " ++
      quoted allowed ++ if total > allowed.length then ", …" else ""
  | length value len unit requirement =>
    "'" ++ abbreviated value ++ "' is " ++ toString len ++ " " ++ unit ++
      ", and has to be " ++ requirement
  | range value requirement => abbreviated value ++ " is out of range: it has to be " ++ requirement
  | patternMismatch value [only] =>
    "'" ++ abbreviated value ++ "' does not match the pattern '" ++ abbreviated only ++ "'"
  | patternMismatch value many =>
    "'" ++ abbreviated value ++ "' does not match any of the " ++ toString many.length ++
      " patterns this type allows"
  | notLexical value primitive expected =>
    "'" ++ abbreviated value ++ "' is not a valid " ++ primitive ++ ": expected " ++ expected

def Violation.display (violation : Violation) : String :=
  violation.path ++ ": " ++ violation.kind.display

/-- The first three violations and how many were left out. -/
def summarize (violations : List Violation) : String :=
  "; ".intercalate ((violations.take 3).map Violation.display) ++
    if violations.length > 3 then " (and " ++ toString (violations.length - 3) ++ " more)" else ""

end Report

/-- Violations reported for one message before the rest are elided. -/
def maxViolations : Nat := 32

def full (out : List Violation) : Bool := out.length ≥ maxViolations

def note (path : String) (kind : ViolationKind) (out : List Violation) : List Violation :=
  if out.length < maxViolations then out ++ [⟨path, kind⟩] else out

/-- Note each of some findings in turn. -/
def noteAll (path : String) (kinds : List ViolationKind) (out : List Violation) : List Violation :=
  kinds.foldl (fun out kind => note path kind out) out

section
variable (crates : Crates) (schema : Schema)

/-- The length a length facet means, and its unit. -/
def valueLength (text primitive : String) : Nat × String :=
  if Primitive.kind primitive = .hexBinary then
    ((text.toList.filter Primitive.isHexDigitByte).length / 2, "octets")
  else (text.toList.length, "characters")

/-- One finding, if there is a bound and it is broken. -/
def finding {Bound : Type} (bound : Option Bound) (broken : Bound → Bool)
    (kind : Bound → ViolationKind) :
    List ViolationKind :=
  match bound with
  | some limit => if broken limit then [kind limit] else []
  | none => []

def valueFindings (text typeName : String) : List ViolationKind :=
  let primitive := schema.primitive typeName
  match Primitive.refuses (Primitive.kind primitive) text with
  | some expected => [.notLexical text primitive expected]
  | none =>
    let facets := schema.effectiveFacets typeName
    let enumerated := finding facets.enumeration (fun allowed => !allowed.contains text)
        fun allowed =>
      .notEnumerated text (allowed.take 4) allowed.length
    let (len, unit) := valueLength text primitive
    let lengths :=
      finding facets.length (len != ·)
        (fun exact => .length text len unit ("exactly " ++ toString exact)) ++
      finding facets.minLength (len < ·)
        (fun min => .length text len unit ("at least " ++ toString min)) ++
      finding facets.maxLength (len > ·)
        (fun max => .length text len unit ("at most " ++ toString max))
    let patterns := (facets.patterns.filter fun alternatives =>
        !alternatives.any fun pattern => pattern.accepts text).map fun alternatives =>
      .patternMismatch text (alternatives.map Pattern.source)
    let ranges := match F64.parse text with
      | none => []
      | some number =>
        finding facets.minInclusive (F64.lt number ·)
          (fun min => .range text ("at least " ++ crates.floatDisplay min)) ++
        finding facets.maxInclusive (F64.lt · number)
          (fun max => .range text ("at most " ++ crates.floatDisplay max)) ++
        finding facets.minExclusive (F64.le number ·)
          (fun min => .range text ("greater than " ++ crates.floatDisplay min)) ++
        finding facets.maxExclusive (F64.le · number)
          (fun max => .range text ("less than " ++ crates.floatDisplay max))
    enumerated ++ lengths ++ patterns ++ ranges

def count (fields : List (String × Field)) (name : String) : Nat :=
  match fields.find? fun field => field.1 == name with
  | some (_, .one _) => 1
  | some (_, .many items) => items.length
  | none => 0

def maxFindings (max : MaxOccurs) (element : String) (found : Nat) : List ViolationKind :=
  match max with
  | .bounded max => if found > max then [.tooMany element max found] else []
  | .unbounded => []

/-- What is wrong with the children a compositor declares. -/
def groupFindings (fields : List (String × Field)) (group : Group) : List ViolationKind :=
  match group.kind with
  | .sequence =>
    group.elements.flatMap fun decl =>
      let found := count fields decl.name
      if found = 0 then if decl.minOccurs ≥ 1 then [.missing decl.name] else []
      else (if found < decl.minOccurs then [.tooFew decl.name decl.minOccurs found] else []) ++
        maxFindings decl.maxOccurs decl.name found
  | .choice =>
    match group.elements.filter fun decl => count fields decl.name > 0 with
    | [] => [.noAlternative (group.elements.map (·.name))]
    | [chosen] => maxFindings chosen.maxOccurs chosen.name (count fields chosen.name)
    | many => [.manyAlternatives (many.map (·.name))]

/-- What is wrong with a complex node itself, its children apart. -/
def nodeFindings (groups : List Group) (fields : List (String × Field)) : List ViolationKind :=
  let undeclared := (fields.map Prod.fst).filter fun name =>
    !(groups.flatMap (·.elements)).any fun decl => decl.name == name
  undeclared.map .undeclared ++ groups.flatMap (groupFindings fields)

/-- An abstract type stands without a concrete one. -/
def abstractFindings (typeName : Option String) (actual : String) : List ViolationKind :=
  if typeName.isNone && (schema.complexTypes.lookup actual).any (·.abstract)
    then [.abstractType actual]
  else []

/-- Walk one node, adding to what was found before it. -/
def check : Nat → Node → String → String → List Violation → List Violation
  | 0, _, _, path, out => if full out then out else note path .tooDeep out
  | _ + 1, .simple value, typeName, path, out =>
    if full out then out else noteAll path
      (valueFindings crates schema (value.asText crates) typeName) out
  | levels + 1, .complex named fields, typeName, path, out =>
    if full out then out
    else
      let actual := named.getD typeName
      let out := noteAll path (abstractFindings schema named actual) out
      match schema.groups actual with
      | .error error => note path (.unusableType actual error.display) out
      | .ok groups =>
        let out := noteAll path (nodeFindings groups fields) out
        fields.foldl (fun out field =>
          match (groups.flatMap (·.elements)).find? fun decl => decl.name == field.1 with
          | none => out
          | some decl =>
            let childPath := path ++ "." ++ field.1
            match field.2 with
            | .one child => check levels child decl.typeName childPath out
            | .many items => items.zipIdx.foldl (fun out item =>
                check levels item.1 decl.typeName (childPath ++ "[" ++ toString item.2 ++ "]") out)
                  out) out

/-- Everything in `message` that does not hold. -/
def validate (message : Message) : List Violation :=
  let declared := (schema.globalType message.name).getD message.name
  check crates schema (maxDepth + 1) message.body declared message.name []

end

end OaGateway.Uci
