import OaGateway.Uci.Json
import OaGateway.Uci.Nesting
import OaGateway.Uci.Primitive

/-! UCI XML to the instance tree and back. -/
namespace OaGateway.Uci

open Lib Lib.Json

def ns : String := "https://www.vdl.afrl.af.mil/programs/oam"

def xsi : String := "http://www.w3.org/2001/XMLSchema-instance"

def localName (qname : String) : String := .ofList (afterLast ':' qname.toList)

/-- XML text in the JSON shape its primitive calls for. Text that does not fit
is carried as written. -/
def parseText (primitive text : String) : Simple :=
  match Primitive.kind primitive with
  | .boolean =>
    if text = "true" ∨ text = "1" then .bool true
    else if text = "false" ∨ text = "0" then .bool false
    else .string text
  | .integer _ _ =>
    match parseI64 text with
    | some value => .number (.ofI64 value)
    | none =>
      match parseU64 text with
      | some value => .number (.ofU64 value.toNat)
      | none => .string text
  | .number _ _ =>
    match (F64.parse text).bind Number.fromF64 with
    | some value => .number value
    | none => .string text
  | _ => .string text

section
variable (crates : Crates) (schema : Schema)

/-- The `xsi:type` of an element, without its prefix. -/
def xsiType (node : Xml.Node) : Option String := (node.attributeOf xsi "type").map localName

def fieldOf (name : String) (array : Bool) (nodes : List Node) : String × Field :=
  if array then (name, .many nodes)
  else match nodes with
    | first :: _ => (name, .one first)
    | [] => (name, .many [])

def readField (read : Xml.Node → String → String → Except UciError Node) (decls : List Element)
    (path : String) (elements : List Xml.Node) (name : String) : Except UciError (String × Field) :=
  let kids := elements.filter fun child => child.localName == name
  let childPath := path ++ "." ++ name
  (collect (fun kid => read kid.1 (childType decls name) (indexed childPath kid.2)) kids.zipIdx).map
    (fieldOf name (isArray decls name || kids.length > 1))

/-- The type an element is read as: the `xsi:type` it names, if that is complex. -/
def actualType (node : Xml.Node) (typeName : String) : String :=
  let named := (xsiType node).getD typeName
  if schema.isComplex named then named else typeName

/-- One XML element as `typeName`. Children are grouped by name, in the order
the names first appear. -/
def readElement : Nat → Xml.Node → String → String → Except UciError Node
  | 0, _, _, path => .error (.tooDeep path)
  | levels + 1, node, typeName, path =>
    if schema.isSimple typeName || !schema.isComplex typeName then
      .ok (.simple (parseText (schema.primitive typeName) (trimText (node.textOf.getD ""))))
    else
      let actual := actualType schema node typeName
      match schema.flatten actual with
      | .error error => .error error
      | .ok decls =>
        let elements := node.children.filter Xml.Node.isElement
        match collect (readField (readElement levels) decls path elements)
            (elements.map Xml.Node.localName).eraseDups with
        | .error error => .error error
        | .ok fields => .ok (.complex (if actual = typeName then none else some actual) fields)

def fromXml (text : String) : Except UciError Message :=
  if nestingExceeds text maxDepth then .error (.tooDeep "document")
  else match crates.xmlParse text with
    | .error message => .error (.xml message)
    | .ok root =>
      match schema.globalType root.localName with
      | none => .error (.unknownElement root.localName)
      | some declared =>
        match readElement schema (maxDepth + 1) root ((xsiType root).getD declared)
            root.localName with
        | .ok body => .ok ⟨root.localName, body⟩
        | .error error => .error error

/-- Escape the three characters that matter in element text, the ampersand first. -/
def escape (text : List Char) : List Char :=
  replaceChar '>' ['&', 'g', 't', ';']
    (replaceChar '<' ['&', 'l', 't', ';'] (replaceChar '&' ['&', 'a', 'm', 'p', ';'] text))

def xsiAttribute : List Char := " xmlns:xsi=\"".toList ++ xsi.toList ++ ['"']

def writeRootNs (needXsi : Bool) : List Char :=
  " xmlns=\"".toList ++ ns.toList ++ ['"'] ++ if needXsi then xsiAttribute else []

def writeAttributes (isRoot : Bool) (typeName : Option String) : List Char :=
  (if isRoot then writeRootNs typeName.isSome else if typeName.isSome then xsiAttribute else []) ++
    match typeName with
    | some name => " xsi:type=\"".toList ++ name.toList ++ ['"']
    | none => []

def pad (depth : Nat) : List Char := List.replicate (2 * depth) ' '

def writeElement : Nat → String → Node → String → Bool → Nat → Except UciError (List Char)
  | 0, name, _, _, _, _ => .error (.tooDeep name)
  | _ + 1, name, .simple simple, _, isRoot, depth =>
    .ok (pad depth ++ '<' :: name.toList ++ (if isRoot then writeRootNs false else []) ++ ['>'] ++
      escape (simple.asText crates).toList ++ ['<', '/'] ++ name.toList ++ ['>'])
  | levels + 1, name, .complex typeName fields, declared, isRoot, depth =>
    let opening := pad depth ++ '<' :: name.toList ++ writeAttributes isRoot typeName
    if fields.isEmpty then .ok (opening ++ ['/', '>'])
    else match writerDecls schema (typeName.getD declared) with
      | .error error => .error error
      | .ok decls =>
        let writeChild (child : String × Node) : Except UciError (List Char) :=
          writeElement levels child.1 child.2 (childType decls child.1) false (depth + 1)
        match collect writeChild (expanded fields) with
        | .error error => .error error
        | .ok children =>
          .ok (opening ++ ['>', '\n'] ++ children.flatMap (· ++ ['\n']) ++ pad depth ++
            ['<', '/'] ++ name.toList ++ ['>'])

def toXml (message : Message) : Except UciError String :=
  let declared := (schema.globalType message.name).getD message.name
  match writeElement crates schema (maxDepth + 1) message.name message.body declared true 0 with
  | .error error => .error error
  | .ok element =>
    .ok (.ofList ("<?xml version=\"1.0\" encoding=\"UTF-8\"?>\n".toList ++ element ++ ['\n']))

end

end OaGateway.Uci
