import OaGateway.Uci.XmlToJson

/-! How deep the writers nest what they write, and when the readers refuse it
for that. -/
namespace OaGateway.Uci

open Lib Lib.Json

/-- What the JSON parser says of a value that nests too deep. -/
def recursionLimit : String := "recursion limit exceeded"

/-- Whether a payload was refused for its depth. -/
def UciError.forDepth : UciError → Bool
  | .tooDeep _ => true
  | .json message => recursionLimit.toList.isPrefixOf message.toList
  | _ => false

section Refused
variable {crates : Crates} {schema : Schema}

theorem forDepth_groupsChain (failed : schema.groupsChain fuel typeName chain = .error error) :
    error.forDepth = false := by
  induction fuel generalizing typeName chain with
  | zero =>
    cases failed
    rfl
  | succ fuel ih =>
    rw [Schema.groupsChain] at failed
    split at failed
    · cases failed
      rfl
    · split at failed
      · cases failed
        rfl
      · split at failed
        · cases failed
        · split at failed
          · cases failed
          · rename_i deeper
            cases failed
            exact ih deeper

/-- A type that cannot be flattened is no matter of depth. -/
theorem forDepth_flatten (failed : schema.flatten typeName = .error error) :
    error.forDepth = false := by
  rw [Schema.flatten] at failed
  split at failed
  · cases failed
  · rename_i usable
    cases failed
    exact forDepth_groupsChain usable

/-- The XML reader refuses no element for its depth that nests no deeper than it
has levels: the scanner in front of it has refused the others. -/
theorem forDepth_readElement {elem : Xml.Elem} {scope : Xml.Scope}
    (bounded : ElemWithin outer levels elem)
    (failed : readElement schema levels (elem.node scope) declared path = .error error) :
    error.forDepth = false := by
  induction levels generalizing outer elem scope declared path with
  | zero => exact absurd bounded not_elemWithin_zero
  | succ levels ih =>
    by_cases leaf : schema.isLeaf declared = true
    · rw [readElement_leaf leaf] at failed
      cases failed
    · cases flat : schema.flatten (actualType schema (elem.node scope) declared) with
      | error reason =>
        rw [readElement_unflattened leaf flat] at failed
        cases failed
        exact forDepth_flatten flat
      | ok decls =>
        rw [readElement_complex leaf flat, map_eq_error] at failed
        obtain ⟨name, -, ran⟩ := exists_of_collect_error failed
        obtain ⟨⟨kid, index⟩, listed, here⟩ := exists_of_collect_error (map_eq_error.mp ran)
        have inside : kid ∈ (elem.node scope).elements :=
          List.mem_of_mem_filter (List.fst_mem_of_mem_zipIdx listed)
        rw [Xml.elements_node] at inside
        obtain ⟨below, member, rfl⟩ := List.mem_map.mp inside
        exact ih (elemWithin_iff.mp bounded below member) here

theorem forDepth_readSimple (failed : readSimple crates value primitive path = .error error) :
    error.forDepth = false := by
  cases value with
  | bool | number => cases failed
  | string text =>
    rw [readSimple] at failed
    split at failed
    · cases failed
    · split at failed <;> cases failed
  | null | array | object =>
    cases failed
    rfl

/-- The JSON reader with a level left refuses only a member for its depth. -/
theorem readNode_error (failed : readNode crates schema (levels + 1) value declared path =
    .error error) :
    error.forDepth = false ∨ ∃ members decls, value = .object members ∧
      schema.flatten (namedType members declared) = .ok decls ∧
      ∃ member ∈ fieldMembers members, readMember (readNode crates schema levels) decls path member
          = .error error := by
  by_cases leaf : schema.isLeaf declared = true
  · rw [readNode_leaf leaf, map_eq_error] at failed
    exact .inl (forDepth_readSimple failed)
  · cases value with
    | null | bool | number | string | array =>
      rw [Schema.isLeaf] at leaf
      rw [readNode, if_neg leaf] at failed
      cases failed
      exact .inl rfl
    | object members =>
      by_cases known : schema.isComplex (namedType members declared) = true
      · cases flat : schema.flatten (namedType members declared) with
        | error reason =>
          left
          rw [Schema.isLeaf] at leaf
          rw [namedType] at known flat
          rw [readNode, if_neg leaf] at failed
          simp only [Value.asObject, known, flat, Bool.not_true, Bool.false_eq_true, ↓reduceIte,
            Except.error.injEq] at failed
          exact failed ▸ forDepth_flatten flat
        | ok decls =>
          rw [readNode_object leaf known flat, map_eq_error] at failed
          exact .inr ⟨members, decls, rfl, flat, exists_of_collect_error failed⟩
      · left
        rw [Bool.not_eq_true, namedType] at known
        rw [Schema.isLeaf] at leaf
        rw [readNode, if_neg leaf] at failed
        simp only [Value.asObject, known, Bool.not_false, ↓reduceIte, Except.error.injEq] at failed
        rw [← failed]
        rfl

theorem readMember_error {read : Value → String → String → Except UciError Node}
    (failed : readMember read decls path member = .error error) :
    (isArray decls member.1 = true ∧ ∃ item ∈ itemsOf member.2, ∃ place,
        read item (childType decls member.1) place = .error error) ∨
      isArray decls member.1 = false ∧
          ∃ place, read member.2 (childType decls member.1) place = .error error := by
  rw [readMember] at failed
  split at failed
  · rename_i array
    refine .inl ⟨array, ?_⟩
    rw [map_eq_error] at failed
    cases shape : member.2 with
    | array items =>
      rw [shape] at failed
      obtain ⟨item, listed, ran⟩ := exists_of_collect_error failed
      exact ⟨item.1, List.fst_mem_of_mem_zipIdx listed, _, ran⟩
    | null | bool | number | string | object =>
      rw [shape] at failed
      obtain ⟨item, listed, ran⟩ := exists_of_collect_error failed
      exact ⟨item, listed, _, ran⟩
  · rename_i single
    exact .inr ⟨by simpa using single, _, map_eq_error.mp failed⟩

/-- No field of the tree is without nodes. -/
inductive Filled : Node → Prop where
  | simple : Filled (.simple value)
  | complex (some : ∀ field ∈ fields, field.2.nodes ≠ [])
      (below : ∀ pair ∈ expanded fields, Filled pair.2) :
      Filled (.complex typeName fields)

theorem filled_of_readElement (read : readElement schema levels xml declared path = .ok node) :
    Filled node := by
  induction levels generalizing xml declared path node with
  | zero => cases read
  | succ levels ih =>
    obtain ⟨leaf, rfl⟩ | ⟨complex, decls, fields, flat, fromFields, rfl⟩ := readElement_inv read
    · exact .simple
    · refine .complex (fun field member => (fromFields.shapes field member).1) fun pair member => ?_
      obtain ⟨child, -, -, place, here⟩ := fromFields.exists_child member
      exact ih here

theorem itemsOf_json (field : Field) : itemsOf field.json = field.nodes.map Node.json := by
  cases field with
  | one node =>
    rw [Field.json, Field.nodes, List.map_singleton, itemsOf]
    exact json_ne_array node
  | many nodes => rw [Field.json, itemsOf, jsonItems_eq, Field.nodes]

/-- The JSON reader refuses nothing for its depth that the writer had levels for. -/
theorem forDepth_readNode (writable : Writable schema levels node declared) (filled : Filled node)
    (failed : readNode crates schema levels node.json declared path = .error error) :
    error.forDepth = false := by
  induction levels generalizing node declared path with
  | zero => cases writable
  | succ levels ih =>
    obtain shallow | ⟨members, decls, object, flat, member, listed, ran⟩ := readNode_error failed
    · exact shallow
    cases node with
    | simple value => cases value <;> cases object
    | complex typeName fields =>
      obtain ⟨plain, others, written, lower⟩ := writable
      cases filled with
      | complex some below =>
      rw [Node.json, Value.object.injEq] at object
      subst object
      rw [namedType_writtenMembers plain] at flat
      rw [writerDecls, isComplex_of_flatten flat] at written
      cases Except.ok.inj (flat.symm.trans written)
      rw [fieldMembers_writtenMembers plain] at listed
      obtain ⟨⟨name, field⟩, inside, rfl⟩ := List.mem_map.mp listed
      have held := mem_insertAll inside
      have inner : ∀ node ∈ field.nodes, ∀ place,
        readNode crates schema levels node.json (childType decls name) place =
          .error error → error.forDepth = false := by
        intro node present place here
        exact ih (lower _ held node present) (below _ (mem_expanded held present)) here
      obtain ⟨array, item, chosen, place, here⟩ | ⟨single, place, here⟩ := readMember_error ran
      · obtain ⟨node, present, rfl⟩ := List.mem_map.mp (itemsOf_json field ▸ chosen)
        exact inner node present place here
      · cases field with
        | one node => exact inner node (by simp [Field.nodes]) place here
        | many nodes =>
          obtain ⟨node, present⟩ := List.exists_mem_of_ne_nil _ (some _ held)
          have room := lower _ held node present
          cases levels with
          | zero => cases room
          | succ levels =>
            obtain shallow | ⟨members, -, object, -⟩ := readNode_error here
            · exact shallow
            · cases object

end Refused

section Nesting
variable {crates : Crates} {schema : Schema}

mutual

/-- How deep the JSON of a node nests: an object for a complex node, an array
more for a repeated field. -/
def Node.jsonDepth : Node → Nat
  | .simple _ => 0
  | .complex _ fields => fieldsDepth fields + 1

def Field.jsonDepth : Field → Nat
  | .one node => node.jsonDepth
  | .many nodes => nodesDepth nodes + 1

def fieldsDepth : List (String × Field) → Nat
  | [] => 0
  | (_, field) :: rest => max field.jsonDepth (fieldsDepth rest)

def nodesDepth : List Node → Nat
  | [] => 0
  | node :: rest => max node.jsonDepth (nodesDepth rest)

end

theorem fieldsDepth_le {fields : List (String × Field)} {limit : Nat} :
    fieldsDepth fields ≤ limit ↔ ∀ field ∈ fields, field.2.jsonDepth ≤ limit := by
  induction fields with
  | nil => simp [fieldsDepth]
  | cons field rest ih => rw [fieldsDepth, Nat.max_le, ih, List.forall_mem_cons]

theorem nodesDepth_le {nodes : List Node} {limit : Nat} :
    nodesDepth nodes ≤ limit ↔ ∀ node ∈ nodes, node.jsonDepth ≤ limit := by
  induction nodes with
  | nil => simp [nodesDepth]
  | cons node rest ih => rw [nodesDepth, Nat.max_le, ih, List.forall_mem_cons]

theorem within_json (writable : Writable schema levels node declared) (limit : Nat) :
    node.json.within limit = true ↔ node.jsonDepth ≤ limit := by
  induction levels generalizing node declared limit with
  | zero => cases writable
  | succ levels ih =>
    cases node with
    | simple value => cases value <;> simp [Node.json, writeSimple, Value.within, Node.jsonDepth]
    | complex typeName fields =>
      obtain ⟨plain, decls, -, below⟩ := writable
      cases limit with
      | zero => simp [Node.json, Value.within, Node.jsonDepth]
      | succ limit =>
        have each :
            ∀ field ∈ fields, (field.2.json.within limit = true ↔ field.2.jsonDepth ≤ limit) := by
          intro field member
          have lower := below field member
          cases shape : field.2 with
          | one node =>
            rw [shape] at lower
            exact ih (lower node (by simp [Field.nodes])) limit
          | many nodes =>
            rw [shape] at lower
            cases limit with
            | zero => simp [Field.json, Value.within, Field.jsonDepth]
            | succ limit =>
              rw [Field.json, Value.within, jsonItems_eq, Field.jsonDepth, Nat.add_le_add_iff_right,
                nodesDepth_le, List.all_eq_true, List.forall_mem_map]
              exact forall₂_congr fun node inside => ih (lower node inside) limit
        have typed : ∀ member ∈ (typeName.map fun name => ("$type", Value.string name)).toList,
            member.2.within limit = true := by
          cases typeName <;> simp [Value.within]
        rw [Node.json, Value.within, Node.jsonDepth, Nat.add_le_add_iff_right, fieldsDepth_le,
          (perm_writtenMembers plain).all_eq, List.all_eq_true, List.forall_mem_append,
            and_iff_right typed, mapValues,
          List.forall_mem_map]
        exact forall₂_congr each

/-- Nothing stops the XML writer where the JSON writer can go. -/
theorem exists_writeElement (writable : Writable schema levels node declared) (name : String)
    (isRoot : Bool) (depth : Nat) :
    ∃ out, writeElement crates schema levels name node declared isRoot depth = .ok out := by
  induction levels generalizing node declared name isRoot depth with
  | zero => cases writable
  | succ levels ih =>
    cases node with
    | simple value => exact ⟨_, rfl⟩
    | complex typeName fields =>
      obtain ⟨-, decls, known, below⟩ := writable
      exact exists_writeComplex known (forall_expanded.mpr fun field member node inside =>
        ih (below field member node inside) _ _ _) _ _

end Nesting

section Messages
variable {crates : Crates} {schema : Schema}

/-- One of the readers made the message. -/
inductive Arrived (crates : Crates) (schema : Schema) (message : Message) : Prop where
  | json (parsed : crates.jsonParse text = .ok value) (sorted : value.Sorted)
      (read : fromJson crates schema text = .ok message)
  | xml {document : Xml.Document} (formed : document.Namespaced)
      (parsed : crates.xmlParse (.ofList document.render) = .ok document.tree)
      (read : fromXml crates schema (.ofList document.render) = .ok message)

theorem Arrived.global (arrived : Arrived crates schema message) :
    (schema.globalType message.name).isSome = true := by
  cases arrived with
  | json parsed _ read =>
    obtain ⟨-, -, global, -⟩ := fromJson_inv parsed read
    exact global
  | xml _ parsed read => exact (fromXml_inv parsed read).2.2.1

/-- A clean message can be written, and its JSON is not refused for its depth
by the walk over it. -/
theorem Arrived.writable (arrived : Arrived crates schema message)
    (clean : validate crates schema message = [])
    (labels : Everywhere (fun _ => True) (fun name => Xml.isNcName name.toList = true)
      (fun _ => True) message.body) :
    Writable schema (maxDepth + 1) message.body (schema.declaredType message) ∧
      ∀ error, readNode crates schema (maxDepth + 1) message.body.json (schema.declaredType message)
        message.name =
        .error error → error.forDepth = false := by
  cases arrived with
  | json parsed sorted read =>
    obtain ⟨body, rfl, -, here⟩ := fromJson_inv parsed read
    cases sorted with
    | object _ each =>
      obtain ⟨settled, writable, -⟩ := readNode_normal (each _ (List.mem_singleton_self _)) here
      refine ⟨writable, fun error failed => ?_⟩
      rw [readNode_json writable settled] at failed
      cases failed
  | xml _ parsed read =>
    obtain ⟨-, -, -, here⟩ := fromXml_inv parsed read
    have writable := writable_of_clean here labels (validate_eq_nil_iff.mp clean)
    exact ⟨writable, fun error failed => forDepth_readNode writable
      (filled_of_readElement here) failed⟩

/-- A message that nests too deep for the scanner is refused for it, and only such a one. -/
theorem forDepth_fromXml_iff (carriable : Carriable crates message.body)
    (named : Xml.isNcName message.name.toList = true)
    (global : (schema.globalType message.name).isSome = true)
    (reparsed : (writtenDocument crates message).Namespaced →
      crates.xmlParse (.ofList (writtenDocument crates message).render) =
        .ok (writtenDocument crates message).tree) :
    (∀ error, fromXml crates schema (.ofList (writtenDocument crates message).render) =
      .error error →
        error.forDepth = false) ↔ message.body.within maxDepth := by
  obtain ⟨formed, -⟩ := writtenDocument_formed carriable named
  constructor
  · intro accepted
    by_contra deep
    have exceeds : nestingExceeds (.ofList (writtenDocument crates message).render) maxDepth =
        true := by
      rw [← Bool.not_eq_false, nestingExceeds_writtenDocument formed.1]
      exact deep
    have refused := accepted (.tooDeep "document") (by rw [fromXml, if_pos exceeds])
    cases refused
  · intro within error failed
    rw [fromXml_writtenDocument carriable named global within reparsed, map_eq_error] at failed
    obtain ⟨elem, only, tree, -⟩ := formed.exists_root
    rw [root_writtenDocument, List.singleton_inj] at only
    rw [tree, ← only] at failed
    have bounded : ElemWithin 0 maxDepth (elemOf crates true 0 message.name message.body) :=
      (elemWithin_elemOf true 0 message.name).mpr within
    exact forDepth_readElement (fun depth member => Nat.le_succ_of_le (bounded depth member)) failed

/-- The JSON of a message is refused for its depth exactly when it nests deeper
than the parser goes. -/
theorem forDepth_fromJson_iff {limit : Nat}
    (global : (schema.globalType message.name).isSome = true)
    (writable : Writable schema (maxDepth + 1) message.body (schema.declaredType message))
    (walked : ∀ error, readNode crates schema (maxDepth + 1) message.body.json
      (schema.declaredType message)
      message.name = .error error → error.forDepth = false)
    (reparsed : message.json.within limit = true →
      crates.jsonParse (crates.jsonPrint message.json) = .ok message.json)
    (refused : message.json.within limit = false → ∃ reason,
      crates.jsonParse (crates.jsonPrint message.json) = .error (recursionLimit ++ reason)) :
    (∀ error, fromJson crates schema (crates.jsonPrint message.json) = .error error →
      error.forDepth = false) ↔
      message.body.jsonDepth < limit := by
  have nests : message.json.within limit = true ↔ message.body.jsonDepth < limit := by
    cases limit with
    | zero => simp [Message.json, Value.within]
    | succ limit =>
      rw [Nat.lt_succ_iff, ← within_json writable, Message.json, Value.within]
      simp
  rw [← nests]
  constructor
  · intro accepted
    by_contra deep
    rw [Bool.not_eq_true] at deep
    obtain ⟨reason, parsed⟩ := refused deep
    have shallow := accepted _ (by rw [fromJson, parsed])
    rw [UciError.forDepth, String.toList_append, ← Bool.not_eq_true,
      List.isPrefixOf_iff_prefix] at shallow
    exact shallow (List.prefix_append _ _)
  · intro within error failed
    rw [fromJson_eq (reparsed within) global, map_eq_error] at failed
    exact walked error failed

/-- A clean message is written by both writers. The XML reader refuses what it
gets for its depth exactly when the message has more levels than elements may
nest, and the JSON reader when it has more objects and arrays in one another
than the parser takes. -/
theorem depth_accepted_iff {limit : Nat} (arrived : Arrived crates schema message)
    (clean : validate crates schema message = []) (carriable : Carriable crates message.body)
    (named : Xml.isNcName message.name.toList = true)
    (reparsed : (writtenDocument crates message).Namespaced →
      crates.xmlParse (.ofList (writtenDocument crates message).render) =
        .ok (writtenDocument crates message).tree)
    (again : message.json.within limit = true →
      crates.jsonParse (crates.jsonPrint message.json) = .ok message.json)
    (refused : message.json.within limit = false → ∃ reason,
      crates.jsonParse (crates.jsonPrint message.json) = .error (recursionLimit ++ reason)) :
    (toXml crates schema message = .ok (.ofList (writtenDocument crates message).render) ∧
      ((∀ error, fromXml crates schema (.ofList (writtenDocument crates message).render) =
        .error error →
          error.forDepth = false) ↔ message.body.within maxDepth)) ∧
    toJson crates schema message = .ok (crates.jsonPrint message.json) ∧
      ((∀ error, fromJson crates schema (crates.jsonPrint message.json) = .error error →
          error.forDepth = false) ↔ message.body.jsonDepth < limit) := by
  have labels := carriable.imp (fun _ _ => trivial) (fun _ known => known) fun _ _ => trivial
  obtain ⟨writable, walked⟩ := arrived.writable clean labels
  refine ⟨⟨toXml_eq (exists_writeElement writable _ _ _), ?_⟩, toJson_eq writable, ?_⟩
  · exact forDepth_fromXml_iff carriable named arrived.global reparsed
  · exact forDepth_fromJson_iff arrived.global writable walked again refused

/-- Crates that know a count in both formats. -/
def bothCrates : Crates :=
  { documentCrates [countDocument .nil, writtenDocument bareCrates sevenReport] with
    jsonParse := quotedCrates.jsonParse
    jsonPrint := quotedCrates.jsonPrint }

theorem depth_accepted_seven :
    (∀ error, fromXml bothCrates reportSchema
      (.ofList (writtenDocument bothCrates sevenReport).render) =
        .error error → error.forDepth = false) ∧
      ∀ error, fromJson bothCrates reportSchema "\x7b\"Report\":\x7b\"Count\":7\x7d\x7d" =
        .error error →
        error.forDepth = false := by
  have read : fromXml bothCrates reportSchema (.ofList (countDocument .nil).render) =
    .ok sevenReport := rfl
  have carriable : Carriable bothCrates sevenReport.body := by
    refine .complex (by simp) (fun pair member => ?_) fun pair member => ?_
    · cases List.mem_singleton.mp member
      decide
    · cases List.mem_singleton.mp member
      have textual : ∀ c ∈ "7".toList, Xml.isChar c = true ∧ c ≠ '\r' :=
        List.all_iff_forall_prop.mp (by decide)
      exact .simple textual
  have shallow : sevenReport.body.within maxDepth := by
    intro pair member
    cases List.mem_singleton.mp member
    trivial
  have trip := @depth_accepted_iff bothCrates reportSchema sevenReport 128
    (.xml ⟨by decide, by decide⟩ rfl read) (by decide +kernel) carriable (by decide)
      (fun _ => reparse_seven rfl rfl)
    (fun _ => rfl) (fun deep => absurd deep (by decide))
  exact ⟨trip.1.2.mpr shallow, trip.2.2.mpr (by decide)⟩

end Messages

section Samples

/-- A type that holds itself. -/
def nestSchema : Schema where
  globalElements := Finmap.insert "N" "NestType" ∅
  complexTypes := Finmap.insert "NestType"
    ⟨false, .groups [⟨.sequence, [⟨"N", "NestType", 0, .bounded 1⟩]⟩]⟩ ∅
  simpleTypes := ∅

def nest : Nat → Node
  | 0 => .complex none []
  | extra + 1 => .complex none [("N", .one (nest extra))]

def nestValue : Nat → Value
  | 0 => .object []
  | extra + 1 => .object [("N", nestValue extra)]

def nestText : Nat → String
  | 0 => "\x7b\x7d"
  | extra + 1 => "\x7b\"N\":" ++ nestText extra ++ "\x7d"

/-- A parser that knows one text with 98 objects in one another. -/
def nestCrates : Crates :=
  { bareCrates with
    jsonParse := fun text => if text = nestText 97 then .ok (nestValue 97)
      else .error "expected value" }

/-- A report of 97 levels. -/
def deepReport : Message := ⟨"N", nest 96⟩

theorem readNode_nest (enough : extra < levels) :
    readNode nestCrates nestSchema levels (nestValue extra) "NestType" path = .ok (nest extra) := by
  have flat : nestSchema.flatten "NestType" = .ok [⟨"N", "NestType", 0, .bounded 1⟩] := rfl
  induction extra generalizing levels path with
  | zero =>
    obtain ⟨levels, rfl⟩ := Nat.exists_eq_succ_of_ne_zero (by omega : levels ≠ 0)
    exact readNode_object (by decide) rfl flat
  | succ extra ih =>
    obtain ⟨levels, rfl⟩ := Nat.exists_eq_succ_of_ne_zero (by omega : levels ≠ 0)
    have field : readMember (readNode nestCrates nestSchema levels)
      [⟨"N", "NestType", 0, .bounded 1⟩] path
        ("N", nestValue extra) = .ok ("N", .one (nest extra)) := by
      simp [readMember, isArray, MaxOccurs.isArray, childType,
        ih (show extra < levels by omega), Except.map]
    rw [nestValue, Nat.succ_eq_add_one, @readNode_object _ _ _ _ _ _ _ (by decide) rfl flat]
    simp [fieldMembers, collect, field, Except.map, overriding, namedType, Value.get,
      Value.asObject, nest]

theorem clean_nest (enough : extra < levels) :
    Clean nestCrates nestSchema levels (nest extra) "NestType" := by
  induction extra generalizing levels with
  | zero =>
    obtain ⟨levels, rfl⟩ := Nat.exists_eq_succ_of_ne_zero (by omega : levels ≠ 0)
    exact ⟨rfl, _, rfl, rfl, by simp [expanded]⟩
  | succ extra ih =>
    obtain ⟨levels, rfl⟩ := Nat.exists_eq_succ_of_ne_zero (by omega : levels ≠ 0)
    refine ⟨rfl, _, rfl, rfl, fun pair member => ?_⟩
    cases List.mem_singleton.mp member
    exact ih (by omega)

theorem within_nest : (nest extra).within levels ↔ extra < levels := by
  induction extra generalizing levels with
  | zero => cases levels <;> simp [nest, Node.within, expanded]
  | succ extra ih =>
    cases levels with
    | zero => simp [Node.within]
    | succ levels => simp [nest, Node.within, expanded, Field.nodes, ih]

theorem carriable_nest : Carriable nestCrates (nest extra) := by
  induction extra with
  | zero => exact .complex (by simp) (by simp [expanded]) (by simp [expanded])
  | succ extra ih =>
    refine .complex (by simp) (fun pair member => ?_) fun pair member => ?_
    · cases List.mem_singleton.mp member
      exact (show Xml.isNcName "N".toList = true by decide)
    · cases List.mem_singleton.mp member
      exact ih

theorem sorted_nestValue : (nestValue extra).Sorted := by
  induction extra with
  | zero => exact .object .nil (by simp)
  | succ extra ih => exact ih.single

/-- A clean report of 97 levels is read and written, and not read again. -/
theorem deepReport_refused :
    fromJson nestCrates nestSchema (nestText 97) = .ok deepReport ∧
    validate nestCrates nestSchema deepReport = [] ∧
    Carriable nestCrates deepReport.body ∧ Xml.isNcName deepReport.name.toList = true ∧
    toXml nestCrates nestSchema deepReport =
      .ok (.ofList (writtenDocument nestCrates deepReport).render) ∧
    fromXml nestCrates nestSchema (.ofList (writtenDocument nestCrates deepReport).render) =
      .error (.tooDeep "document") := by
  have parsed : nestCrates.jsonParse (nestText 97) =
    .ok (nestValue 97) := by simp only [nestCrates, ↓reduceIte]
  have read : fromJson nestCrates nestSchema (nestText 97) = .ok deepReport := by
    rw [@fromJson_eq _ _ _ (nestValue 96) deepReport parsed rfl]
    exact congrArg _ (readNode_nest (by decide))
  have clean : validate nestCrates nestSchema deepReport = [] :=
    validate_eq_nil_iff.mpr (clean_nest (by decide))
  have carriable : Carriable nestCrates deepReport.body := carriable_nest
  have labels := carriable.imp (fun _ _ => trivial) (fun _ known => known) fun _ _ => trivial
  obtain ⟨writable, -⟩ := (Arrived.json parsed sorted_nestValue read).writable clean labels
  have formed := (@writtenDocument_formed nestCrates deepReport carriable (by decide)).1
  refine ⟨read, clean, carriable, by decide, toXml_eq (exists_writeElement writable _ _ _), ?_⟩
  have exceeds : nestingExceeds (.ofList (writtenDocument nestCrates deepReport).render) maxDepth =
      true := by
    rw [← Bool.not_eq_false, nestingExceeds_writtenDocument formed.1, deepReport, within_nest]
    decide
  rw [fromXml, if_pos exceeds]

end Samples

end OaGateway.Uci
