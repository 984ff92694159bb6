import OaGateway.Uci.Leaves
import OaGateway.Uci.XmlOutput

/-! OMS JSON written and read again: which trees come back, and in what order
their fields do. -/
namespace OaGateway.Uci

open Lib Lib.Json

section Reader
variable {crates : Crates} {schema : Schema}

/-- The type an object is read as: the `$type` it names, else the declared one. -/
def namedType (members : List (String × Value)) (typeName : String) : String :=
  (((Value.object members).get "$type").bind Value.asStr).getD typeName

/-- The members of an object that are fields. -/
def fieldMembers (members : List (String × Value)) : List (String × Value) :=
  members.filter fun member => member.1 != "$type"

/-- The type a node names when what is declared as one type is read as another. -/
def overriding (actual declared : String) : Option String :=
  if actual = declared then none else some actual

theorem getD_overriding (actual declared : String) :
    (overriding actual declared).getD declared = actual := by
  rw [overriding]
  split
  · rename_i same
    exact same.symm
  · rfl

theorem overriding_ne (actual declared : String) : overriding actual declared ≠ some declared := by
  rw [overriding]
  split
  · simp
  · simpa

theorem overriding_getD {typeName : Option String} (different : typeName ≠ some declared) :
    overriding (typeName.getD declared) declared = typeName := by
  cases typeName with
  | none => simp [overriding]
  | some name => simpa [overriding] using different

/-- One member as a field, its values read by `read`. -/
def readMember (read : Value → String → String → Except UciError Node) (decls : List Element)
    (path : String) (member : String × Value) : Except UciError (String × Field) :=
  let childPath := path ++ "." ++ member.1
  let child (item : Value) (place : String) := read item (childType decls member.1) place
  if isArray decls member.1 then
    (match member.2 with
      | .array items =>
        collect (fun (item : Value × Nat) => child item.1 (indexed childPath item.2)) items.zipIdx
      | other => collect (fun item => child item childPath) [other]).map fun nodes =>
        (member.1, .many nodes)
  else (child member.2 childPath).map fun node => (member.1, .one node)

theorem readNode_leaf (leaf : schema.isLeaf typeName = true) :
    readNode crates schema (levels + 1) value typeName path =
      (readSimple crates value (schema.primitive typeName) path).map .simple := by
  rw [Schema.isLeaf] at leaf
  rw [readNode, if_pos leaf]
  cases readSimple crates value (schema.primitive typeName) path <;> rfl

/-- What the reader makes of an object at a complex position. -/
theorem readNode_object (complex : schema.isLeaf typeName ≠ true)
    (known : schema.isComplex (namedType members typeName) = true)
    (flat : schema.flatten (namedType members typeName) = .ok decls) :
    readNode crates schema (levels + 1) (.object members) typeName path =
      (collect (readMember (readNode crates schema levels) decls path) (fieldMembers members)).map
        (.complex (overriding (namedType members typeName) typeName)) := by
  rw [Schema.isLeaf] at complex
  rw [namedType] at known flat
  rw [readNode, if_neg complex]
  simp only [Value.asObject, known, flat, Bool.not_true, Bool.false_eq_true, ↓reduceIte]
  rw [fieldMembers, @collect_congr _ _ _ _ (readMember (readNode crates schema levels) decls path) _
    fun entry _ => ?_]
  · cases collect (readMember (readNode crates schema levels) decls path)
      (members.filter fun member => member.1 != "$type") <;> rfl
  · rw [readMember]
    split
    · cases entry.2 with
      | array items =>
        dsimp only
        cases collect (fun item => readNode crates schema levels item.1 (childType decls entry.1)
          (indexed (path ++ "." ++ entry.1) item.2)) items.zipIdx <;> rfl
      | null | bool | number | string | object =>
        dsimp only
        cases collect (fun item => readNode crates schema levels item (childType decls entry.1)
          (path ++ "." ++ entry.1)) [_] <;> rfl
    · dsimp only
      cases readNode crates schema levels entry.2 (childType decls entry.1)
        (path ++ "." ++ entry.1) <;> rfl

/-- A node the reader accepts is a leaf, or an object's fields under a type it
could flatten. -/
theorem readNode_inv (read : readNode crates schema (levels + 1) value typeName path = .ok node) :
    (schema.isLeaf typeName = true ∧
      ∃ simple, readSimple crates value (schema.primitive typeName) path = .ok simple ∧
      node = .simple simple) ∨
    schema.isLeaf typeName ≠ true ∧ ∃ members decls fields, value = .object members ∧
      schema.isComplex (namedType members typeName) = true ∧
      schema.flatten (namedType members typeName) = .ok decls ∧
      collect (readMember (readNode crates schema levels) decls path) (fieldMembers members)
        = .ok fields ∧
      node = .complex (overriding (namedType members typeName) typeName) fields := by
  by_cases leaf : schema.isLeaf typeName = true
  · rw [readNode_leaf leaf, map_eq_ok] at read
    obtain ⟨simple, here, rfl⟩ := read
    exact .inl ⟨leaf, simple, here, rfl⟩
  · refine .inr ⟨leaf, ?_⟩
    have object : ∃ members, value = .object members := by
      cases value with
      | object members => exact ⟨members, rfl⟩
      | null | bool | number | string | array =>
        rw [Schema.isLeaf] at leaf
        rw [readNode, if_neg leaf] at read
        cases read
    obtain ⟨members, rfl⟩ := object
    have known : schema.isComplex (namedType members typeName) = true := by
      by_contra unknown
      rw [Bool.not_eq_true, namedType] at unknown
      rw [Schema.isLeaf] at leaf
      rw [readNode, if_neg leaf] at read
      simp [Value.asObject, unknown] at read
    cases flat : schema.flatten (namedType members typeName) with
    | error error =>
      rw [Schema.isLeaf] at leaf
      rw [namedType] at known flat
      rw [readNode, if_neg leaf] at read
      simp [Value.asObject, known, flat] at read
    | ok decls =>
      rw [readNode_object leaf known flat, map_eq_ok] at read
      obtain ⟨fields, collected, rfl⟩ := read
      exact ⟨members, decls, fields, rfl, known, flat, collected, rfl⟩

end Reader

section Written

/-- The members of a written object: the type it names and its fields. -/
def writtenMembers (typeName : Option String) (members : List (String × Value)) :
    List (String × Value) :=
  insertAll ((typeName.map fun name => ("$type", Value.string name)).toList ++ members)

mutual

/-- The value a node is written as. -/
def Node.json : Node → Value
  | .simple value => writeSimple value
  | .complex typeName fields => .object (writtenMembers typeName (jsonMembers fields))

def Field.json : Field → Value
  | .one node => node.json
  | .many nodes => .array (jsonItems nodes)

def jsonMembers : List (String × Field) → List (String × Value)
  | [] => []
  | (name, field) :: rest => (name, field.json) :: jsonMembers rest

def jsonItems : List Node → List Value
  | [] => []
  | node :: rest => node.json :: jsonItems rest

end

/-- The object a message is written as. -/
def Message.json (message : Message) : Value := .object [(message.name, message.body.json)]

mutual

/-- The node with the fields of every complex node in order of name. -/
def Node.sorted : Node → Node
  | .simple value => .simple value
  | .complex typeName fields => .complex typeName (insertAll (sortedFields fields))

def Field.sorted : Field → Field
  | .one node => .one node.sorted
  | .many nodes => .many (sortedNodes nodes)

def sortedFields : List (String × Field) → List (String × Field)
  | [] => []
  | (name, field) :: rest => (name, field.sorted) :: sortedFields rest

def sortedNodes : List Node → List Node
  | [] => []
  | node :: rest => node.sorted :: sortedNodes rest

end

theorem jsonMembers_eq (fields : List (String × Field)) :
    jsonMembers fields = mapValues Field.json fields := by
  induction fields with
  | nil => rfl
  | cons field rest ih =>
    rw [jsonMembers, ih]
    rfl

theorem jsonItems_eq (nodes : List Node) : jsonItems nodes = nodes.map Node.json := by
  induction nodes with
  | nil => rfl
  | cons node rest ih =>
    rw [jsonItems, ih]
    rfl

theorem sortedFields_eq (fields : List (String × Field)) :
    sortedFields fields = mapValues Field.sorted fields := by
  induction fields with
  | nil => rfl
  | cons field rest ih =>
    rw [sortedFields, ih]
    rfl

theorem sortedNodes_eq (nodes : List Node) : sortedNodes nodes = nodes.map Node.sorted := by
  induction nodes with
  | nil => rfl
  | cons node rest ih =>
    rw [sortedNodes, ih]
    rfl

theorem sorted_complex (typeName : Option String) (fields : List (String × Field)) :
    (Node.complex typeName fields).sorted =
      .complex typeName (mapValues Field.sorted (insertAll fields)) := by
  rw [Node.sorted, sortedFields_eq, insertAll_mapValues]

/-- Names of its own for each field, and none of them the one JSON keeps for a type. -/
def PlainNames (fields : List (String × Field)) : Prop :=
  (fields.map Prod.fst).Nodup ∧ "$type" ∉ fields.map Prod.fst

variable {fields : List (String × Field)} {typeName : Option String}

/-- A written object has the type its node names and its fields for members. -/
theorem perm_writtenMembers (plain : PlainNames fields) :
    (writtenMembers typeName (jsonMembers fields)).Perm
      ((typeName.map fun name => ("$type", Value.string name)).toList ++
          mapValues Field.json fields) := by
  rw [writtenMembers, jsonMembers_eq]
  apply perm_insertAll
  cases typeName with
  | none => simpa [keys_mapValues] using plain.1
  | some name => simpa [keys_mapValues] using And.symm plain

/-- The fields of a written object are those of the node, in order of name. -/
theorem fieldMembers_writtenMembers (plain : PlainNames fields) :
    fieldMembers (writtenMembers typeName (jsonMembers fields)) =
      mapValues Field.json (insertAll fields) := by
  rw [← insertAll_mapValues]
  apply Increasing.eq_of_perm
  · exact List.Pairwise.filter _ (increasing_insertAll _)
  · exact increasing_insertAll _
  · have kept : fieldMembers ((typeName.map fun name => ("$type", Value.string name)).toList ++
        mapValues Field.json fields) = mapValues Field.json fields := by
      have apart : fieldMembers (mapValues Field.json fields) = mapValues Field.json fields := by
        refine List.filter_eq_self.mpr fun member inside => ?_
        have named : member.1 ∈ fields.map Prod.fst :=
          keys_mapValues Field.json fields ▸ List.mem_map_of_mem inside
        simpa using fun same : member.1 = "$type" => plain.2 (same ▸ named)
      cases typeName with
      | none => exact apart
      | some name => exact apart
    have named : ((mapValues Field.json fields).map Prod.fst).Nodup := by
      rw [keys_mapValues]
      exact plain.1
    have filtered := (@perm_writtenMembers fields typeName plain).filter fun member =>
      member.1 != "$type"
    exact (filtered.trans (.of_eq kept)).trans (perm_insertAll named).symm

/-- A member of a written object is looked up like a field, the type in front. -/
theorem find_writtenMembers (plain : PlainNames fields) (key : String) :
    ((writtenMembers typeName (jsonMembers fields)).find? fun entry => entry.1 == key) =
      ((typeName.map fun name => ("$type", Value.string name)).toList ++
        mapValues Field.json fields).find?
        fun entry => entry.1 == key :=
  find_of_perm (perm_writtenMembers plain) (increasing_insertAll _).nodup key

/-- A written object names the type its node does. -/
theorem namedType_writtenMembers (plain : PlainNames fields) (declared : String) :
    namedType (writtenMembers typeName (jsonMembers fields)) declared = typeName.getD declared := by
  rw [namedType, Value.get, Value.asObject, Option.bind_some, find_writtenMembers plain]
  cases typeName with
  | none =>
    have absent : (mapValues Field.json fields).find? (fun entry => entry.1 == "$type") = none := by
      refine List.find?_eq_none.mpr fun member inside => ?_
      have named : member.1 ∈ fields.map Prod.fst :=
        keys_mapValues Field.json fields ▸ List.mem_map_of_mem inside
      simpa using fun typed : member.1 = "$type" => plain.2 (typed ▸ named)
    simp [absent]
  | some name => simp [Value.asStr]

end Written

section Writer
variable {schema : Schema}

/-- One field as a member, its nodes written by `write`. -/
def writeMember (write : Node → String → String → Except UciError Value) (decls : List Element)
    (path : String) (field : String × Field) : Except UciError (String × Value) :=
  let childPath := path ++ "." ++ field.1
  match field.2 with
  | .one node => (write node (childType decls field.1) childPath).map fun value => (field.1, value)
  | .many nodes =>
    (collect (fun (item : Node × Nat) => write item.1 (childType decls field.1)
      (indexed childPath item.2))
      nodes.zipIdx).map fun items => (field.1, .array items)

theorem writeNode_complex (flat : writerDecls schema (typeName.getD declared) = .ok decls) :
    writeNode schema (levels + 1) (.complex typeName fields) declared path =
      (collect (writeMember (writeNode schema levels) decls path) fields).map
        fun members => .object (writtenMembers typeName members) := by
  rw [writeNode]
  simp only [flat]
  rw [@collect_congr _ _ _ _ (writeMember (writeNode schema levels) decls path) _ fun field _ => ?_]
  · cases collect (writeMember (writeNode schema levels) decls path) fields <;> rfl
  · rw [writeMember]
    cases field.2 with
    | one node =>
      dsimp only
      cases writeNode schema levels node (childType decls field.1) (path ++ "." ++ field.1) <;> rfl
    | many nodes =>
      dsimp only
      cases collect (fun item => writeNode schema levels item.1 (childType decls field.1)
        (indexed (path ++ "." ++ field.1) item.2)) nodes.zipIdx <;> rfl

/-- Nothing stops the JSON writer below a node, and no member of an object it
writes takes the place of another. -/
def Writable (schema : Schema) : Nat → Node → String → Prop
  | 0, _, _ => False
  | _ + 1, .simple _, _ => True
  | levels + 1, .complex typeName fields, declared =>
    PlainNames fields ∧ ∃ decls, writerDecls schema (typeName.getD declared) = .ok decls ∧
      ∀ field ∈ fields, ∀ node ∈ field.2.nodes,
        Writable schema levels node (childType decls field.1)

theorem writeNode_eq (writable : Writable schema levels node declared) :
    writeNode schema levels node declared path = .ok node.json := by
  induction levels generalizing node declared path with
  | zero => cases writable
  | succ levels ih =>
    cases node with
    | simple value => rw [writeNode, Node.json]
    | complex typeName fields =>
      obtain ⟨-, decls, flat, below⟩ := writable
      have each : ∀ field ∈ fields, writeMember (writeNode schema levels) decls path field =
          .ok (field.1, field.2.json) := by
        intro field member
        have lower := below field member
        rw [writeMember]
        cases shape : field.2 with
        | one node =>
          rw [shape] at lower
          simp only [ih (lower node (by simp [Field.nodes])), Except.map, Field.json]
        | many nodes =>
          rw [shape] at lower
          have items : collect (fun (item : Node × Nat) => writeNode schema levels item.1
              (childType decls field.1) (indexed (path ++ "." ++ field.1) item.2)) nodes.zipIdx =
                .ok (nodes.map Node.json) :=
            collect_zipIdx_ok fun item inside _ => ih (lower item inside)
          simp only [items, Except.map, Field.json, jsonItems_eq]
      rw [writeNode_complex flat, collect_ok each, Node.json, jsonMembers_eq]
      rfl

end Writer

section Back
variable {crates : Crates} {schema : Schema}

/-- The JSON reader gives the leaf back as it is. A string of the type must not
read as a boolean or a number of it. -/
def Kept (primitive : String) : Simple → Prop
  | .string text =>
    ¬ (primitive = "xs:boolean" ∧ (text = "true" ∨ text = "1")) ∧
      ¬ (primitive = "xs:boolean" ∧ (text = "false" ∨ text = "0")) ∧
        parseNumericString primitive text = none
  | .bool _ | .number _ => True

theorem number_of_parseNumericString {primitive text : String} {value : Simple}
    (read : parseNumericString primitive text = some value) : ∃ number, value = .number number := by
  rw [parseNumericString] at read
  split at read
  · split at read
    · exact ⟨_, (Option.some.inj read).symm⟩
    · obtain ⟨number, -, rfl⟩ := Option.map_eq_some_iff.mp read
      exact ⟨number, rfl⟩
  · cases read

theorem readSimple_string (text primitive path : String) :
    readSimple crates (.string text) primitive path = .ok (.string text) ↔
      Kept primitive (.string text) := by
  rw [readSimple, Kept]
  split
  · rename_i yes
    simp [yes]
  · rename_i notTrue
    split
    · rename_i no
      simp [no]
    · rename_i notFalse
      simp only [notTrue, notFalse, not_false_eq_true, true_and, Except.ok.injEq]
      cases read : parseNumericString primitive text with
      | none => simp
      | some value =>
        obtain ⟨number, rfl⟩ := number_of_parseNumericString read
        simp

/-- A leaf comes back from its JSON value when it is kept, and then as it was. -/
theorem readSimple_writeSimple (value : Simple) (primitive path : String) :
    readSimple crates (writeSimple value) primitive path = .ok value ↔ Kept primitive value := by
  cases value with
  | string text => exact readSimple_string text primitive path
  | bool value => simp [writeSimple, readSimple, Kept]
  | number value => simp [writeSimple, readSimple, Kept]

/-- What the JSON reader makes of a leaf is kept. -/
theorem kept_of_readSimple (read : readSimple crates value primitive path = .ok simple) :
    Kept primitive simple := by
  cases simple with
  | bool | number => trivial
  | string text =>
    cases value with
    | string source =>
      have same : source = text := by
        rw [readSimple] at read
        split at read
        · cases read
        · split at read
          · cases read
          · cases number : parseNumericString primitive source with
            | none => simpa [number] using read
            | some value =>
              obtain ⟨number, rfl⟩ := number_of_parseNumericString number
              simp_all
      subst same
      exact (readSimple_string _ _ _).mp read
    | null | bool | number | array | object => simp [readSimple] at read

def Field.isMany : Field → Bool
  | .one _ => false
  | .many _ => true

/-- A tree in the JSON reader's own form: leaves at leaf types and kept, no type
named that is the declared one, and fields repeated where they are declared to be. -/
def Settled (schema : Schema) : Nat → Node → String → Prop
  | 0, _, _ => False
  | _ + 1, .simple value, declared =>
    schema.isLeaf declared = true ∧ Kept (schema.primitive declared) value
  | levels + 1, .complex typeName fields, declared =>
    schema.isLeaf declared ≠ true ∧ typeName ≠ some declared ∧
      ∃ decls, schema.flatten (typeName.getD declared) = .ok decls ∧
        ∀ field ∈ fields, field.2.isMany = isArray decls field.1 ∧
          ∀ node ∈ field.2.nodes, Settled schema levels node (childType decls field.1)

theorem isComplex_of_flatten (flat : schema.flatten typeName = .ok decls) :
    schema.isComplex typeName = true := by
  rw [Schema.isComplex]
  by_contra unknown
  rw [Bool.not_eq_true, Option.isSome_eq_false_iff, Option.isNone_iff_eq_none] at unknown
  simp [Schema.flatten, Schema.groups, Schema.groupsChain, unknown] at flat

theorem json_ne_array (node : Node) (items : List Value) : node.json ≠ .array items := by
  cases node with
  | simple value => cases value <;> simp [Node.json, writeSimple]
  | complex => simp [Node.json]

/-- A field comes back from its member when each of its nodes does. -/
theorem readMember_json {read : Value → String → String → Except UciError Node} {field : Field}
    (shape : field.isMany = isArray decls name)
    (each : ∀ node ∈ field.nodes, ∀ path, read node.json (childType decls name) path =
      .ok node.sorted) :
    readMember read decls path (name, field.json) = .ok (name, field.sorted) := by
  cases field with
  | one node =>
    rw [readMember, ← shape]
    simp [Field.isMany, Field.json, Field.sorted, each node (by simp [Field.nodes]), Except.map]
  | many nodes =>
    have items : collect (fun (item : Value × Nat) => read item.1 (childType decls name)
        (indexed (path ++ "." ++ name) item.2)) (nodes.map Node.json).zipIdx =
            .ok (nodes.map Node.sorted) := by
      rw [List.zipIdx_map, collect_map]
      exact collect_zipIdx_ok fun node inside _ => each node inside _
    rw [readMember, ← shape]
    simp only [Field.isMany, ↓reduceIte, Field.json, jsonItems_eq, items, Except.map, Field.sorted,
      sortedNodes_eq]

/-- A settled tree is read back from its JSON with its fields in order of name. -/
theorem readNode_json (writable : Writable schema levels node declared)
    (settled : Settled schema levels node declared) :
    readNode crates schema levels node.json declared path = .ok node.sorted := by
  induction levels generalizing node declared path with
  | zero => cases settled
  | succ levels ih =>
    cases node with
    | simple value =>
      obtain ⟨leaf, kept⟩ := settled
      rw [Node.json, readNode_leaf leaf, (readSimple_writeSimple _ _ _).mpr kept]
      rfl
    | complex typeName fields =>
      obtain ⟨complex, different, decls, flat, below⟩ := settled
      obtain ⟨plain, others, written, lower⟩ := writable
      have known := isComplex_of_flatten flat
      have same : others = decls := by
        rw [writerDecls, known] at written
        exact Except.ok.inj (written.symm.trans flat)
      subst same
      have named := @namedType_writtenMembers fields typeName plain declared
      have each : collect (readMember (readNode crates schema levels) others path)
          (mapValues Field.json (insertAll fields)) =
              .ok (mapValues Field.sorted (insertAll fields)) := by
        rw [mapValues, collect_map]
        refine collect_ok fun field member => ?_
        obtain ⟨shape, settled⟩ := below field (mem_insertAll member)
        exact readMember_json shape fun node inside _ =>
          ih (lower field (mem_insertAll member) node inside) (settled node inside)
      rw [Node.json, readNode_object complex (named.symm ▸ known) (named.symm ▸ flat),
        fieldMembers_writtenMembers plain, each, sorted_complex, named, overriding_getD different]
      rfl

/-- The values a repeated member holds; one that is no array stands for itself. -/
def itemsOf : Value → List Value
  | .array items => items
  | other => [other]

/-- A member that was read is repeated where it is declared to be, and each of
its values was read. -/
theorem readMember_inv {read : Value → String → String → Except UciError Node}
    (ran : readMember read decls path member = .ok field) :
    field.1 = member.1 ∧
      ((isArray decls member.1 = true ∧ ∃ nodes, field.2 = .many nodes ∧
          List.Forall₂ (fun item node =>
            ∃ place, read item (childType decls member.1) place = .ok node)
            (itemsOf member.2) nodes) ∨
        isArray decls member.1 = false ∧ ∃ node, field.2 = .one node ∧
          ∃ place, read member.2 (childType decls member.1) place = .ok node) := by
  rw [readMember] at ran
  split at ran
  · rename_i array
    obtain ⟨nodes, collected, rfl⟩ := map_eq_ok.mp ran
    refine ⟨rfl, .inl ⟨array, nodes, rfl, ?_⟩⟩
    cases shape : member.2 with
    | array items =>
      rw [shape] at collected
      exact (of_collect_zipIdx collected).imp fun _ _ ⟨index, ran⟩ => ⟨_, ran⟩
    | null | bool | number | string | object =>
      rw [shape] at collected
      exact (collect_eq_ok.mp collected).imp fun _ _ ran => ⟨_, ran⟩
  · rename_i single
    obtain ⟨node, read, rfl⟩ := map_eq_ok.mp ran
    exact ⟨rfl, .inr ⟨by simpa using single, node, rfl, _, read⟩⟩

theorem readNode_array (levels : Nat) (items : List Value) (declared path : String) (node : Node) :
    readNode crates schema levels (.array items) declared path ≠ .ok node := by
  intro read
  cases levels with
  | zero => cases read
  | succ levels =>
    obtain ⟨-, simple, read, -⟩ | ⟨-, members, -, -, object, -⟩ := readNode_inv read
    · cases read
    · cases object

/-- A field that comes back as it was is of the declared shape, and its nodes
come back. -/
theorem settled_of_readMember {field other : Field}
    (ran : readMember (readNode crates schema levels) decls path (name, field.json) =
      .ok (name, other))
    (same : other.sorted = field.sorted) :
    field.isMany = isArray decls name ∧ ∀ node ∈ field.nodes, ∃ place back,
      readNode crates schema levels node.json (childType decls name) place = .ok back ∧
        back.sorted = node.sorted := by
  obtain ⟨-, ⟨array, nodes, rfl, each⟩ | ⟨single, back, rfl, place, read⟩⟩ := readMember_inv ran
  · cases field with
    | one node => simp [Field.sorted] at same
    | many originals =>
      rw [Field.json, itemsOf, jsonItems_eq, List.forall₂_map_left_iff] at each
      simp only [Field.sorted, sortedNodes_eq, Field.many.injEq] at same
      refine ⟨array.symm, fun node member => ?_⟩
      obtain ⟨back, ⟨place, read⟩, alike⟩ := exists_forall₂_of_mem each same member
      exact ⟨place, back, read, alike⟩
  · cases field with
    | one node =>
      refine ⟨single.symm, fun other member => ?_⟩
      cases List.mem_singleton.mp member
      exact ⟨place, back, read, by simpa [Field.sorted] using same⟩
    | many originals => exact absurd read (readNode_array _ _ _ _ _)

/-- A tree that comes back from its JSON with the same fields is settled. -/
theorem settled_of_readNode (writable : Writable schema levels node declared)
    (read : readNode crates schema levels node.json declared path = .ok back)
    (same : back.sorted = node.sorted) : Settled schema levels node declared := by
  induction levels generalizing node declared path back with
  | zero => cases read
  | succ levels ih =>
    obtain ⟨leaf, simple, scalar, rfl⟩ | ⟨complex, members, decls, backs, object, known, flat,
      collected, rfl⟩ :=
      readNode_inv read
    · cases node with
      | simple value =>
        simp only [Node.sorted, Node.simple.injEq] at same
        exact ⟨leaf, (readSimple_writeSimple _ _ _).mp (same ▸ scalar)⟩
      | complex => simp [Node.sorted] at same
    · cases node with
      | simple => simp [Node.sorted] at same
      | complex typeName fields =>
        obtain ⟨plain, others, written, lower⟩ := writable
        rw [Node.json, Value.object.injEq] at object
        subst object
        rw [namedType_writtenMembers plain] at known flat same
        rw [fieldMembers_writtenMembers plain] at collected
        have one : others = decls := by
          rw [writerDecls, known] at written
          exact Except.ok.inj (written.symm.trans flat)
        subst one
        have each := collect_eq_ok.mp collected
        rw [mapValues, List.forall₂_map_left_iff] at each
        have keys : backs.map Prod.fst = (insertAll fields).map Prod.fst := by
          rw [← List.forall₂_eq_eq_eq, List.forall₂_map_left_iff, List.forall₂_map_right_iff]
          exact each.flip.imp fun _ _ ran => (readMember_inv ran).1
        rw [sorted_complex, sorted_complex, Node.complex.injEq,
          insertAll_of_increasing ((increasing_insertAll fields).of_keys keys)] at same
        refine ⟨complex, ?_, others, flat, fun field member => ?_⟩
        · rintro rfl
          simp [overriding] at same
        · have inside : field ∈ insertAll fields := (perm_insertAll plain.1).mem_iff.mpr member
          obtain ⟨⟨name, other⟩, ran, alike⟩ := exists_forall₂_of_mem each same.2 inside
          rw [Prod.mk.injEq] at alike
          obtain ⟨rfl, alike⟩ := alike
          obtain ⟨shape, below⟩ := settled_of_readMember ran alike
          refine ⟨shape, fun node within => ?_⟩
          obtain ⟨place, back, read, equal⟩ := below node within
          exact ih (lower field member node within) read equal

theorem Field.sorted_eq_self {field : Field} (each : ∀ node ∈ field.nodes, node.sorted = node) :
    field.sorted = field := by
  cases field with
  | one node => rw [Field.sorted, each node (by simp [Field.nodes])]
  | many nodes =>
    have same : nodes.map Node.sorted = nodes :=
      (List.map_congr_left each).trans (List.map_id' nodes)
    rw [Field.sorted, sortedNodes_eq, same]

private theorem mem_itemsOf_sorted {value item : Value} (sorted : value.Sorted)
    (member : item ∈ itemsOf value) :
    item.Sorted := by
  cases sorted with
  | array each => exact each item member
  | null => exact List.mem_singleton.mp member ▸ .null
  | bool => exact List.mem_singleton.mp member ▸ .bool
  | number => exact List.mem_singleton.mp member ▸ .number
  | string => exact List.mem_singleton.mp member ▸ .string
  | object increasing each => exact List.mem_singleton.mp member ▸ .object increasing each

/-- Each node of a field was read from a value of its member. -/
theorem exists_of_readMember {read : Value → String → String → Except UciError Node}
    (ran : readMember read decls path member = .ok field) (inside : node ∈ field.2.nodes) :
    ∃ item ∈ member.2 :: itemsOf member.2, ∃ place, read item (childType decls member.1) place =
      .ok node := by
  obtain ⟨-, ⟨-, nodes, shape, each⟩ | ⟨-, only, shape, place, here⟩⟩ := readMember_inv ran
  · rw [shape, Field.nodes] at inside
    obtain ⟨index, reached, rfl⟩ := List.mem_iff_getElem.mp inside
    have listed : index < (itemsOf member.2).length := each.length_eq ▸ reached
    exact ⟨_, List.mem_cons_of_mem _ (List.getElem_mem listed),
      (List.forall₂_iff_get.mp each).2 index listed reached⟩
  · rw [shape, Field.nodes, List.mem_singleton] at inside
    exact ⟨_, List.mem_cons_self, place, inside ▸ here⟩

/-- What the JSON reader makes of a parsed value is settled, can be written, and
has its fields in order. -/
theorem readNode_normal (sorted : value.Sorted)
    (read : readNode crates schema levels value declared path = .ok node) :
    Settled schema levels node declared ∧ Writable schema levels node declared ∧
      node.sorted = node := by
  induction levels generalizing value node declared path with
  | zero => cases read
  | succ levels ih =>
    obtain ⟨leaf, simple, scalar, rfl⟩ | ⟨complex, members, decls, fields, rfl, known, flat,
      collected, rfl⟩ :=
      readNode_inv read
    · exact ⟨⟨leaf, kept_of_readSimple scalar⟩, trivial, rfl⟩
    · cases sorted with
      | object increasing each =>
      have names : fields.map Prod.fst = (fieldMembers members).map Prod.fst := by
        rw [← List.forall₂_eq_eq_eq, List.forall₂_map_left_iff, List.forall₂_map_right_iff]
        exact (collect_eq_ok.mp collected).flip.imp fun _ _ ran => (readMember_inv ran).1
      have ordered : Increasing fields :=
        Increasing.of_keys (List.Pairwise.filter _ increasing) names
      have plain : PlainNames fields := by
        refine ⟨ordered.nodup, ?_⟩
        rw [names]
        simp [fieldMembers]
      have below : ∀ field ∈ fields, field.2.isMany = isArray decls field.1 ∧
        ∀ node ∈ field.2.nodes,
          Settled schema levels node (childType decls field.1) ∧
            Writable schema levels node (childType decls field.1) ∧ node.sorted = node := by
        intro field member
        obtain ⟨source, listed, ran⟩ := of_mem_collect collected member
        obtain ⟨same, shape⟩ := readMember_inv ran
        refine ⟨?_, fun node inside => ?_⟩
        · rw [same]
          obtain ⟨array, nodes, many, -⟩ | ⟨single, only, one, -⟩ := shape
          · rw [array, many, Field.isMany]
          · rw [single, one, Field.isMany]
        · obtain ⟨item, chosen, place, here⟩ := exists_of_readMember ran inside
          have whole := each source (List.mem_of_mem_filter listed)
          rw [same]
          refine ih ?_ here
          rcases List.mem_cons.mp chosen with rfl | inner
          · exact whole
          · exact mem_itemsOf_sorted whole inner
      have typed := getD_overriding (namedType members declared) declared
      refine ⟨⟨complex, overriding_ne _ _, decls, typed.symm ▸ flat, ?_⟩,
        ⟨plain, decls, ?_, ?_⟩, ?_⟩
      · exact fun field member =>
          ⟨(below field member).1, fun node inside => ((below field member).2 node inside).1⟩
      · rw [typed, writerDecls, known]
        exact flat
      · exact fun field member node inside => ((below field member).2 node inside).2.1
      · rw [sorted_complex, insertAll_of_increasing ordered, mapValues]
        congr 1
        refine (List.map_congr_left fun field member => ?_).trans (List.map_id' fields)
        rw [Field.sorted_eq_self fun node inside => ((below field member).2 node inside).2.2]

end Back

section Messages
variable {crates : Crates} {schema : Schema}

/-- The type a message's body is declared as. -/
def Schema.declaredType (schema : Schema) (message : Message) : String :=
  (schema.globalType message.name).getD message.name

theorem fromJson_inv (parsed : crates.jsonParse text = .ok value)
    (read : fromJson crates schema text = .ok message) :
    ∃ body, value = .object [(message.name, body)] ∧
      (schema.globalType message.name).isSome = true ∧
          readNode crates schema (maxDepth + 1) body (schema.declaredType message) message.name =
          .ok message.body := by
  rw [fromJson, parsed] at read
  cases value with
  | null | bool | number | string | array => cases read
  | object members =>
    rcases members with _ | ⟨⟨name, body⟩, _ | ⟨second, more⟩⟩
    · cases read
    · simp only [Value.asObject] at read
      split at read
      · cases read
      · rename_i declared known
        split at read
        · rename_i node here
          cases read
          exact ⟨body, rfl, by simp [known], by simpa [Schema.declaredType, known] using here⟩
        · cases read
    · cases read

/-- A message is read from a text that parses as its object. -/
theorem fromJson_eq {body : Value} {message : Message}
    (parsed : crates.jsonParse text = .ok (.object [(message.name, body)]))
    (global : (schema.globalType message.name).isSome = true) :
    fromJson crates schema text =
      (readNode crates schema (maxDepth + 1) body (schema.declaredType message) message.name).map
        (⟨message.name, ·⟩) := by
  obtain ⟨declared, known⟩ := Option.isSome_iff_exists.mp global
  rw [fromJson, parsed, Schema.declaredType, known]
  simp only [Value.asObject, known, Option.getD_some]
  cases readNode crates schema (maxDepth + 1) body declared message.name <;> rfl

theorem toJson_eq {message : Message}
    (writable : Writable schema (maxDepth + 1) message.body (schema.declaredType message)) :
    toJson crates schema message = .ok (crates.jsonPrint message.json) := by
  rw [Schema.declaredType] at writable
  simp only [toJson, writeNode_eq writable, Message.json]

/-- What was read from JSON is written again, and a second pass changes nothing. -/
theorem fromJson_toJson {limit : Nat} (parsed : crates.jsonParse text = .ok value)
    (sorted : value.Sorted) (read : fromJson crates schema text = .ok message)
    (reparsed : message.json.within limit = true →
      crates.jsonParse (crates.jsonPrint message.json) = .ok message.json) :
    toJson crates schema message = .ok (crates.jsonPrint message.json) ∧
      (message.json.within limit = true →
        fromJson crates schema (crates.jsonPrint message.json) = .ok message) := by
  obtain ⟨body, rfl, global, here⟩ := fromJson_inv parsed read
  cases sorted with
  | object _ each =>
    obtain ⟨settled, writable, ordered⟩ := readNode_normal (each _ (List.mem_singleton_self _)) here
    refine ⟨toJson_eq writable, fun within => ?_⟩
    rw [fromJson_eq (reparsed within) global, readNode_json writable settled, ordered]
    rfl

/-- Crates that know one report with a count, quoted and not. -/
def quotedCrates : Crates where
  jsonParse text :=
    if text = reportText "Count" "7" then .ok
      (.object [("Report", .object [("Count", .string "7")])])
    else if text = "\x7b\"Report\":\x7b\"Count\":7\x7d\x7d" then
      .ok (.object [("Report", .object [("Count", .number (.posInt 7))])])
    else .error "expected value"
  jsonPrint
    | .object [("Report", .object [("Count", .number (.posInt count))])] =>
      "\x7b\"Report\":\x7b\"Count\":" ++ toString count.toNat ++ "\x7d\x7d"
    | _ => "null"
  floatPrint _ := ""
  floatDisplay _ := ""
  xmlParse _ := .error "unknown token"
  regex _ := none
  hexUpper := upperHex

theorem fromJson_toJson_count :
    toJson quotedCrates reportSchema ⟨"Report",
      .complex none [("Count", .one (.simple (.number (.posInt 7))))]⟩ =
        .ok "\x7b\"Report\":\x7b\"Count\":7\x7d\x7d" ∧
      fromJson quotedCrates reportSchema "\x7b\"Report\":\x7b\"Count\":7\x7d\x7d" =
        .ok ⟨"Report", .complex none [("Count", .one (.simple (.number (.posInt 7))))]⟩ := by
  have read : fromJson quotedCrates reportSchema (reportText "Count" "7") =
      .ok ⟨"Report", .complex none [("Count", .one (.simple (.number (.posInt 7))))]⟩ := rfl
  have sorted : (Value.object [("Report", .object [("Count", .string "7")])]).Sorted :=
    Value.Sorted.string.single.single
  have trip := @fromJson_toJson _ _ _ _ _ 128 rfl sorted read fun _ => rfl
  exact ⟨trip.1, trip.2 rfl⟩

end Messages

end OaGateway.Uci
