import OaGateway.Uci.XmlTrip

/-! A node looked up in a message: by the fields that lead to it, as in what is
written as JSON, and as the first of its name in writing order, as in what is
written as XML. -/
namespace OaGateway.Uci

open Lib Lib.Json

section Members
variable {schema : Schema}

/-- The node of a field that is not repeated. -/
def Node.member (name : String) : Node → Option Node
  | .simple _ => none
  | .complex _ fields =>
    match fields.find? fun field => field.1 == name with
    | some (_, .one node) => some node
    | _ => none

/-- The string a leaf holds. -/
def Node.string : Node → Option String
  | .simple (.string text) => some text
  | _ => none

theorem asStr_json (node : Node) : node.json.asStr = node.string := by
  cases node with
  | simple value => cases value <;> rfl
  | complex => rfl

/-- A member of what a node is written as is what the member is written as, for
all that is asked of an object or a string. -/
theorem get_json {Image : Type} (writable : Writable schema levels node declared)
    (plain : key ≠ "$type") {ask : Value → Option Image}
    (array : ∀ items, ask (.array items) = none) : (node.json.get key).bind ask =
      (node.member key).bind fun member => ask member.json := by
  cases node with
  | simple value => cases value <;> rfl
  | complex typeName fields =>
    cases levels with
    | zero => cases writable
    | succ levels =>
      have typed : (typeName.map fun name => ("$type", Value.string name)).toList.find?
          (fun entry => entry.1 == key) = none := by
        cases typeName <;> simp [plain.symm]
      rw [Node.json, Value.get, Value.asObject, Option.bind_some, find_writtenMembers writable.1,
        List.find?_append, typed, Option.none_or, mapValues, List.find?_map, Node.member]
      have same : ((fun entry : String × Value => entry.1 == key) ∘ fun field : String × Field =>
          (field.1, field.2.json)) = fun field => field.1 == key := rfl
      rw [same]
      generalize (fields.find? fun field => field.1 == key) = found
      rcases found with _ | ⟨name, node | nodes⟩
      · rfl
      · rfl
      · exact array _

theorem Writable.member {node child : Node} (writable : Writable schema levels node declared)
    (held : node.member name = some child) :
    ∃ lower declared, Writable schema lower child declared := by
  cases node with
  | simple => cases held
  | complex typeName fields =>
    cases levels with
    | zero => cases writable
    | succ levels =>
      obtain ⟨-, decls, -, below⟩ := writable
      rw [Node.member] at held
      split at held
      · rename_i label node found
        cases held
        exact ⟨_, _, below _ (List.mem_of_find?_eq_some found) _ (by simp [Field.nodes])⟩
      · cases held

end Members

/-- A node where it is written: how far its line is indented, and its name. -/
structure Spot where
  depth : Nat
  name : String
  node : Node

mutual

/-- A node and everything below it, in document order. -/
def Node.walk (depth : Nat) (name : String) : Node → List Spot
  | .simple value => [⟨depth, name, .simple value⟩]
  | .complex typeName fields => ⟨depth, name, .complex typeName fields⟩ ::
    fieldsWalk (depth + 1) fields

def Field.walk (depth : Nat) (name : String) : Field → List Spot
  | .one node => node.walk depth name
  | .many nodes => nodesWalk depth name nodes

def fieldsWalk (depth : Nat) : List (String × Field) → List Spot
  | [] => []
  | (name, field) :: rest => field.walk depth name ++ fieldsWalk depth rest

def nodesWalk (depth : Nat) (name : String) : List Node → List Spot
  | [] => []
  | node :: rest => node.walk depth name ++ nodesWalk depth name rest

end

def Spot.walk (spot : Spot) : List Spot := spot.node.walk spot.depth spot.name

/-- The text the element of a node starts with: a leaf's own, and for a node
with fields the line break and the indentation of what follows. -/
def Spot.text (crates : Crates) (spot : Spot) : Option String :=
  match spot.node with
  | .simple value => if value.asText crates = "" then none else some (value.asText crates)
  | .complex _ fields =>
    if fields.isEmpty then none
    else some (.ofList ('\n' :: pad (if (expanded fields).isEmpty then spot.depth
      else spot.depth + 1)))

/-- The node that is written first of those with a name. -/
def Spot.first (spot : Spot) (name : String) : Option Spot :=
  spot.walk.find? fun other => other.name == name

def Message.spot (message : Message) : Spot := ⟨0, message.name, message.body⟩

theorem nodesWalk_eq (depth : Nat) (name : String) (nodes : List Node) :
    nodesWalk depth name nodes = nodes.flatMap (Node.walk depth name) := by
  induction nodes with
  | nil => rfl
  | cons node rest ih => rw [nodesWalk, ih, List.flatMap_cons]

theorem fieldsWalk_eq (depth : Nat) (fields : List (String × Field)) :
    fieldsWalk depth fields = (expanded fields).flatMap fun child =>
      child.2.walk depth child.1 := by
  induction fields with
  | nil => rfl
  | cons field rest ih =>
    obtain ⟨name, field⟩ := field
    have here : field.walk depth name = field.nodes.flatMap (Node.walk depth name) := by
      cases field with
      | one node => simp [Field.walk, Field.nodes]
      | many nodes => exact nodesWalk_eq depth name nodes
    rw [fieldsWalk, ih, here]
    simp [expanded, List.flatMap_map]

section Written
variable {crates : Crates}

/-- The element a node that can be carried is written as. -/
structure Spot.Written (crates : Crates) (spot : Spot) (xml : Xml.Node) : Prop where
  carriable : Carriable crates spot.node
  named : Xml.isNcName spot.name.toList = true
  element : ∃ isRoot scope, xml = (elemOf crates isRoot spot.depth spot.name spot.node).node scope

theorem Spot.Written.localName_eq {spot : Spot} (written : spot.Written crates xml) :
    xml.localName = spot.name := by
  obtain ⟨isRoot, scope, rfl⟩ := written.element
  exact (shows_elemOf written.carriable written.named isRoot spot.depth scope).localName_eq

/-- The elements of a written node are the nodes below it, one by one. -/
theorem Spot.Written.walk {spot : Spot} (written : spot.Written crates xml) :
    List.Forall₂ (Spot.Written crates) spot.walk (xml.descendants.filter Xml.Node.isElement) := by
  obtain ⟨depth, name, node⟩ := spot
  obtain ⟨carriable, named, isRoot, scope, rfl⟩ := written
  dsimp only at carriable named
  induction carriable generalizing depth name isRoot scope with
  | @simple value textual =>
    have childless : ((elemOf crates isRoot depth name (.simple value)).node scope).elements =
        [] := by
      simp [Xml.elements_node, elemOf, contentOf, Xml.Content.elements]
    rw [Xml.filter_descendants rfl, childless]
    exact .cons ⟨.simple textual, named, isRoot, scope, rfl⟩ .nil
  | @complex typeName fields known children below ih =>
    rw [Xml.filter_descendants rfl, Xml.elements_node, elements_elemOf, List.map_map,
      List.flatMap_map, Spot.walk, Node.walk, fieldsWalk_eq]
    refine .cons ⟨.complex known children below, named, isRoot, scope, rfl⟩
      (forall₂_flatMap fun child member => ?_)
    exact ih child member (depth + 1) child.1 (children child member) false _

/-- A line break and an indentation are read as they are. -/
theorem nodes_gap (depth : Nat) (next : Xml.Content) (scope : Xml.Scope) :
    (Xml.gap (pad depth) next).nodes scope = Xml.joinText ('\n' :: pad depth)
      (next.nodes scope) := by
  have plain (spaces : Nat) : Xml.pieceChars ((List.replicate spaces ' ').map .char) =
      List.replicate spaces ' ' := by
    induction spaces with
    | zero => rfl
    | succ spaces ih => rw [List.replicate_succ, List.map_cons, Xml.pieceChars_char (by decide), ih]
  rw [Xml.gap, Xml.Content.nodes, if_neg (by simp), List.map_cons,
    Xml.pieceChars_char (by decide), pad, plain]

theorem Spot.Written.textOf_eq {spot : Spot} (written : spot.Written crates xml) :
    xml.textOf = spot.text crates := by
  obtain ⟨depth, name, node⟩ := spot
  obtain ⟨carriable, named, isRoot, scope, rfl⟩ := written
  dsimp only at carriable named
  rw [Spot.text, Xml.Elem.node, elemOf]
  cases carriable with
  | @simple value textual =>
    have data := pieceChars_escapePieces fun member => (textual _ member).2 rfl
    dsimp only
    rw [contentOf, Xml.Content.nodes, data]
    by_cases empty : value.asText crates = ""
    · simp [empty, Xml.Content.nodes, Xml.Node.textOf]
    · simp [empty, Xml.Content.nodes, Xml.joinText, Xml.Node.textOf]
  | @complex typeName fields known children below =>
    dsimp only
    by_cases none : fields = []
    · simp [none, contentOf, Xml.Content.nodes, Xml.Node.textOf]
    · rw [contentOf_complex _ _ _ none, if_neg (by simpa using none)]
      cases expanded fields with
      | nil => simp [Xml.lines, nodes_gap, Xml.Content.nodes, Xml.joinText, Xml.Node.textOf]
      | cons child rest =>
        rw [List.map_cons, Xml.lines, List.foldr_cons, nodes_gap, childOf, elementOf, wrapElement]
        split <;> simp [Xml.Content.nodes, Xml.joinText, Xml.Node.textOf]

/-- The first element of a name is that of the first node of the name. -/
theorem Spot.Written.first {spot : Spot} (written : spot.Written crates xml) (name : String) :
    Option.Rel (Spot.Written crates) (spot.first name)
      (xml.descendants.find? fun other => other.isElement && other.localName == name) := by
  have elements : (xml.descendants.find? fun other => other.isElement && other.localName == name) =
      (xml.descendants.filter Xml.Node.isElement).find? fun other => other.localName == name := by
    simp only [List.find?_filter, Bool.decide_and, Bool.decide_eq_true]
  rw [elements]
  exact find_forall₂ written.walk fun _ _ here => by rw [here.localName_eq]

end Written

end OaGateway.Uci
