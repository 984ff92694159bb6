import OaGateway.Lib.Collect
import OaGateway.Lib.OrdMap
import OaGateway.Uci.Instance
import OaGateway.Uci.Schema
import Mathlib.Data.String.Basic

/-! OMS JSON to the instance tree and back. -/
namespace OaGateway.Uci

open Lib Lib.Json

section
variable (crates : Crates) (schema : Schema)

/-- Types whose string values are read as numbers where they are one. -/
def numericTypes : List String :=
  ["xs:int", "xs:integer", "xs:long", "xs:short", "xs:byte", "xs:decimal", "xs:double", "xs:float"]

def parseNumericString (typeName text : String) : Option Simple :=
  if numericTypes.contains typeName then
    match parseI64 text with
    | some value => some (.number (.ofI64 value))
    | none => ((F64.parse text).bind Number.fromF64).map .number
  else none

/-- A JSON scalar as a leaf. `null` is refused. -/
def readSimple (value : Value) (typeName path : String) : Except UciError Simple :=
  match value with
  | .bool b => .ok (.bool b)
  | .number n => .ok (.number n)
  | .string s =>
    if typeName = "xs:boolean" ∧ (s = "true" ∨ s = "1") then .ok (.bool true)
    else if typeName = "xs:boolean" ∧ (s = "false" ∨ s = "0") then .ok (.bool false)
    else .ok ((parseNumericString typeName s).getD (.string s))
  | .null => .error (.atPath path "null is not allowed")
  | other =>
    .error (.atPath path ("cannot map JSON " ++ crates.jsonPrint other ++ " to " ++ typeName))

/-- The declared type of a child; an undeclared one is carried as a string. -/
def childType (decls : List Element) (name : String) : String :=
  ((decls.find? fun decl => decl.name == name).map (·.typeName)).getD "xs:string"

def isArray (decls : List Element) (name : String) : Bool :=
  (decls.find? fun decl => decl.name == name).any (·.maxOccurs.isArray)

def indexed (path : String) (index : Nat) : String := path ++ "[" ++ toString index ++ "]"

/-- One JSON value as `typeName`. `levels` counts down from `MAX_DEPTH + 1`. -/
def readNode : Nat → Value → String → String → Except UciError Node
  | 0, _, _, path => .error (.tooDeep path)
  | levels + 1, value, typeName, path =>
    if schema.isSimple typeName || !schema.isComplex typeName then
      match readSimple crates value (schema.primitive typeName) path with
      | .ok simple => .ok (.simple simple)
      | .error error => .error error
    else match value.asObject with
      | none => .error (.atPath path ("expected object for complex type " ++ typeName))
      | some members =>
        let actual := ((value.get "$type").bind Value.asStr).getD typeName
        if !schema.isComplex actual then .error (.unknownType actual)
        else match schema.flatten actual with
          | .error error => .error error
          | .ok decls =>
            let readField (member : String × Value) : Except UciError (String × Field) :=
              let childPath := path ++ "." ++ member.1
              let read (item : Value) (path : String) :=
                readNode levels item (childType decls member.1) path
              if isArray decls member.1 then
                let items := match member.2 with
                  | .array items =>
                    collect (fun (item : Value × Nat) => read item.1 (indexed childPath item.2))
                      items.zipIdx
                  | other => collect (fun item => read item childPath) [other]
                match items with
                | .ok nodes => .ok (member.1, .many nodes)
                | .error error => .error error
              else match read member.2 childPath with
                | .ok node => .ok (member.1, .one node)
                | .error error => .error error
            match collect readField (members.filter fun member => member.1 != "$type") with
            | .error error => .error error
            | .ok fields =>
              .ok (.complex (if actual = typeName then none else some actual) fields)

/-- Parse OMS JSON: an object whose only member is a global element. -/
def fromJson (text : String) : Except UciError Message :=
  match crates.jsonParse text with
  | .error message => .error (.json message)
  | .ok value =>
    match value.asObject with
    | none => .error (.json "root must be an object")
    | some [(name, body)] =>
      match schema.globalType name with
      | none => .error (.unknownElement name)
      | some declared =>
        match readNode crates schema (maxDepth + 1) body declared name with
        | .ok node => .ok ⟨name, node⟩
        | .error error => .error error
    | some _ => .error (.json "root object must have exactly one member")

def writeSimple : Simple → Value
  | .string value => .string value
  | .bool value => .bool value
  | .number value => .number value

def writerDecls (actual : String) : Except UciError (List Element) :=
  if schema.isComplex actual then schema.flatten actual else .ok []

/-- One node as JSON. A member written twice keeps its last value. -/
def writeNode : Nat → Node → String → String → Except UciError Value
  | 0, _, _, path => .error (.tooDeep path)
  | _ + 1, .simple simple, _, _ => .ok (writeSimple simple)
  | levels + 1, .complex typeName fields, declared, path =>
    match writerDecls schema (typeName.getD declared) with
    | .error error => .error error
    | .ok decls =>
      let writeField (field : String × Field) : Except UciError (String × Value) :=
        let childPath := path ++ "." ++ field.1
        let write (node : Node) (path : String) :=
          writeNode levels node (childType decls field.1) path
        match field.2 with
        | .one node =>
          match write node childPath with
          | .ok value => .ok (field.1, value)
          | .error error => .error error
        | .many nodes =>
          match collect (fun (item : Node × Nat) => write item.1 (indexed childPath item.2))
              nodes.zipIdx with
          | .ok items => .ok (field.1, .array items)
          | .error error => .error error
      match collect writeField fields with
      | .error error => .error error
      | .ok members =>
        let typed := (typeName.map fun name => ("$type", Value.string name)).toList
        .ok (.object ((typed ++ members).foldl
          (fun map member => insertEntry member.1 member.2 map) []))

/-- Serialize as a single-key OMS JSON object. -/
def toJson (message : Message) : Except UciError String :=
  let declared := (schema.globalType message.name).getD message.name
  match writeNode schema (maxDepth + 1) message.body declared message.name with
  | .ok body => .ok (crates.jsonPrint (.object [(message.name, body)]))
  | .error error => .error error

end

end OaGateway.Uci
