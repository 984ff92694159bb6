import OaGateway.Crates

/-! The instance tree both serializations are read into and written from. -/
namespace OaGateway.Uci

open Lib Lib.Json

/-- A scalar as JSON would carry it. -/
inductive Simple where
  | string (value : String)
  | bool (value : Bool)
  | number (value : Number)
deriving DecidableEq, Repr

/-- Lexical form for XML text and for validation. -/
def Simple.asText (crates : Crates) : Simple → String
  | string value => value
  | bool true => "true"
  | bool false => "false"
  | number value => crates.numberPrint value

mutual

/-- A leaf, or a complex element: its type where that overrides the declared
one, and its fields in document order. -/
inductive Node where
  | simple (value : Simple)
  | complex (typeName : Option String) (fields : List (String × Field))

/-- One occurrence of a child, or a repeating group. -/
inductive Field where
  | one (node : Node)
  | many (nodes : List Node)

end

def Field.nodes : Field → List Node
  | one node => [node]
  | many nodes => nodes

/-- The children of a complex node one by one, repeating groups expanded. -/
def expanded (fields : List (String × Field)) : List (String × Node) :=
  fields.flatMap fun field => field.2.nodes.map fun node => (field.1, node)

structure Message where
  name : String
  body : Node

end OaGateway.Uci
