import OaGateway.Uci.Uncapped
import OaGateway.Uci.XmlReader
import Mathlib.Logic.Relation

/-! The nodes the validator enters, and what it notes at each of them. -/
namespace OaGateway.Uci

open Lib

/-- A node where the walk stands: its path, and the type it is declared as. -/
structure Place where
  path : String
  declared : String
  node : Node

section Places
variable (crates : Crates) (schema : Schema)

/-- The nodes of one field, where the field is declared. -/
def fieldPlaces (decls : List Element) (path : String) (field : String × Field) : List Place :=
  match decls.find? fun decl => decl.name == field.1 with
  | none => []
  | some decl =>
    let childPath := path ++ "." ++ field.1
    match field.2 with
    | .one child => [⟨childPath, decl.typeName, child⟩]
    | .many items =>
      items.zipIdx.map fun item =>
        ⟨childPath ++ "[" ++ toString item.2 ++ "]", decl.typeName, item.1⟩

/-- The declared children of a node, in the order of the walk. -/
def Place.children (place : Place) : List Place :=
  match place.node with
  | .simple _ => []
  | .complex named fields =>
    match schema.groups (named.getD place.declared) with
    | .error _ => []
    | .ok groups => fields.flatMap (fieldPlaces (groups.flatMap (·.elements)) place.path)

/-- What is wrong with a node itself. -/
def Place.findings (place : Place) : List ViolationKind :=
  match place.node with
  | .simple value => valueFindings crates schema (value.asText crates) place.declared
  | .complex named fields =>
    let actual := named.getD place.declared
    abstractFindings schema named actual ++
      match schema.groups actual with
      | .error error => [.unusableType actual error.display]
      | .ok groups => nodeFindings groups fields

/-- One node the walk entered, with what it noted there before it went on to
the children. -/
structure Visit extends Place where
  noted : List Violation

/-- The walk of `check`, with a record of the nodes it enters. -/
def trace : Nat → Place → List Violation × List Visit → List Violation × List Visit
  | 0, place, (out, visits) =>
    if full out then (out, visits)
    else
      let after := note place.path .tooDeep out
      (after, visits ++ [⟨place, after.drop out.length⟩])
  | levels + 1, place, (out, visits) =>
    if full out then (out, visits)
    else
      let after := noteAll place.path (place.findings crates schema) out
      (place.children schema).foldl (fun state child => trace levels child state)
        (after, visits ++ [⟨place, after.drop out.length⟩])

def Message.place (message : Message) : Place :=
  ⟨message.name, schema.declaredType message, message.body⟩

/-- The nodes entered while a message is validated. -/
def visits (message : Message) : List Visit :=
  (trace crates schema (maxDepth + 1) (message.place schema) ([], [])).2

end Places

section Agreement
variable {crates : Crates} {schema : Schema}

theorem checkField_eq_foldl (walk : Node → String → String → List Violation → List Violation)
    (decls : List Element) (path : String) (out : List Violation) (field : String × Field) :
    checkField walk decls path out field =
      (fieldPlaces decls path field).foldl
          (fun out place => walk place.node place.declared place.path out) out := by
  rw [checkField, fieldPlaces]
  cases decls.find? fun decl => decl.name == field.1 with
  | none => rfl
  | some decl =>
    cases field.2 with
    | one child => rfl
    | many items => simp only [List.foldl_map]

theorem noteAll_append (path : String) (first second : List ViolationKind) (out : List Violation) :
    noteAll path (first ++ second) out = noteAll path second (noteAll path first out) :=
  List.foldl_append

/-- A node is judged, and then its declared children one after the other. -/
theorem check_place (room : full out = false) (place : Place) :
    check crates schema (levels + 1) place.node place.declared place.path out =
      (place.children schema).foldl
        (fun out child => check crates schema levels child.node child.declared child.path out)
        (noteAll place.path (place.findings crates schema) out) := by
  obtain ⟨path, declared, node⟩ := place
  cases node with
  | simple value =>
    rw [check, if_neg (by simp [room])]
    rfl
  | complex named fields =>
    rw [check_complex room]
    simp only [Place.children, Place.findings, noteAll_append]
    cases schema.groups (named.getD declared) with
    | error error => rfl
    | ok groups =>
      simp only [List.foldl_flatMap]
      congr 1
      funext out field
      exact checkField_eq_foldl _ _ _ _ _

/-- The record changes nothing in the report. -/
theorem trace_report (levels : Nat) (place : Place) (state : List Violation × List Visit) :
    (trace crates schema levels place state).1 =
      check crates schema levels place.node place.declared place.path state.1 := by
  obtain ⟨out, visits⟩ := state
  induction levels generalizing place out visits with
  | zero =>
    rw [trace, check]
    split <;> rfl
  | succ levels ih =>
    rw [trace]
    cases room : full out with
    | true =>
      rw [if_pos rfl]
      cases place.node <;> rw [check, if_pos room]
    | false =>
      rw [if_neg (by simp), check_place room]
      exact (List.foldl_hom Prod.fst fun state child => (ih child state.1 state.2).symm).symm

end Agreement

section Record
variable {crates : Crates} {schema : Schema}

/-- The record of a walk that no cap cuts short. -/
def Place.visits (crates : Crates) (schema : Schema) : Nat → Place → List Visit
  | 0, place => [⟨place, [⟨place.path, .tooDeep⟩]⟩]
  | levels + 1, place =>
    ⟨place, (place.findings crates schema).map (⟨place.path, ·⟩)⟩ ::
      (place.children schema).flatMap (Place.visits crates schema levels)

theorem noteAll_of_short {kinds : List ViolationKind}
    (short : (noteAll path kinds out).length < maxViolations) :
    noteAll path kinds out = out ++ kinds.map (⟨path, ·⟩) := by
  rw [noteAll_eq] at short ⊢
  rw [List.length_append, List.length_take, List.length_map] at short
  rw [List.take_of_length_le (by rw [List.length_map]; omega)]

theorem length_le_trace (levels : Nat) (place : Place) (state : List Violation × List Visit) :
    state.1.length ≤ (trace crates schema levels place state).1.length := by
  rw [trace_report]
  exact (prefix_check _ _ _ _ _).length_le

theorem length_le_foldl_trace (levels : Nat) (places : List Place)
    (state : List Violation × List Visit) :
    state.1.length ≤
      (places.foldl (fun state child => trace crates schema levels child state)
      state).1.length := by
  induction places generalizing state with
  | nil => exact Nat.le_refl _
  | cons place rest ih => exact (length_le_trace levels place state).trans (ih _)

/-- A walk that adds to the report and to the record what it enters. -/
def Recorded (state : List Violation × List Visit) (entered : List Visit)
    (after : List Violation × List Visit) :
    Prop :=
  after = (state.1 ++ entered.flatMap (·.noted), state.2 ++ entered)

theorem Recorded.append (first : Recorded state entered between)
    (second : Recorded between more after) :
    Recorded state (entered ++ more) after := by
  rw [Recorded] at *
  subst first
  subst second
  simp

theorem foldl_trace_recorded {places : List Place}
    (each : ∀ place ∈ places, ∀ state, (trace crates schema levels place state).1.length <
      maxViolations → Recorded state (place.visits crates schema levels)
        (trace crates schema levels place state))
    (state : List Violation × List Visit)
    (short : (places.foldl (fun state child => trace crates schema levels child state)
      state).1.length <
      maxViolations) :
    Recorded state (places.flatMap (Place.visits crates schema levels))
      (places.foldl (fun state child => trace crates schema levels child state) state) := by
  induction places generalizing state with
  | nil => simp [Recorded]
  | cons place rest ih =>
    obtain ⟨here, later⟩ := List.forall_mem_cons.mp each
    rw [List.foldl_cons] at short ⊢
    have first := here state (Nat.lt_of_le_of_lt (length_le_foldl_trace levels rest _) short)
    exact first.append (ih later _ short)

/-- While the report is short, a walk enters each node it can, and notes all it
finds there. -/
theorem trace_recorded (levels : Nat) (place : Place) (state : List Violation × List Visit)
    (short : (trace crates schema levels place state).1.length < maxViolations) :
    Recorded state (place.visits crates schema levels)
      (trace crates schema levels place state) := by
  induction levels generalizing place state with
  | zero =>
    have room : state.1.length < maxViolations := Nat.lt_of_le_of_lt (length_le_trace _ _ _) short
    have free : full state.1 = false := by simpa [full] using room
    rw [trace, if_neg (by simp [free]), note, if_pos room, Place.visits]
    simp [Recorded]
  | succ levels ih =>
    have room : state.1.length < maxViolations := Nat.lt_of_le_of_lt (length_le_trace _ _ _) short
    have free : full state.1 = false := by simpa [full] using room
    rw [trace, if_neg (by simp [free])] at short ⊢
    dsimp only at short ⊢
    have own : (noteAll place.path (place.findings crates schema) state.1).length < maxViolations :=
      Nat.lt_of_le_of_lt (length_le_foldl_trace levels (place.children schema)
        (noteAll place.path (place.findings crates schema) state.1, _)) short
    have below := foldl_trace_recorded (fun child _ => ih child) _ short
    have here : Recorded state [⟨place, (place.findings crates schema).map (⟨place.path, ·⟩)⟩]
        (noteAll place.path (place.findings crates schema) state.1,
          state.2 ++
              [⟨place, (noteAll place.path (place.findings crates schema) state.1).drop
              state.1.length⟩]) := by
      simp [Recorded, noteAll_of_short own]
    exact here.append below

/-- Below a node, the walk can enter its declared children. -/
def Place.Reaches (schema : Schema) : Place → Place → Prop :=
  Relation.ReflTransGen fun place child => child ∈ place.children schema

theorem node_of_mem_fieldPlaces {decls : List Element} {field : String × Field} {place : Place}
    (member : place ∈ fieldPlaces decls path field) : place.node ∈ field.2.nodes := by
  rw [fieldPlaces] at member
  split at member
  · cases member
  · cases shape : field.2 with
    | one child =>
      rw [shape, List.mem_singleton] at member
      rw [member]
      exact List.mem_singleton_self _
    | many items =>
      rw [shape] at member
      obtain ⟨item, inside, rfl⟩ := List.mem_map.mp member
      exact List.fst_mem_of_mem_zipIdx inside

/-- A tree as the readers make it: no deeper than they go, and no name twice
among the fields of a node. -/
def Tidy : Nat → Node → Prop
  | 0, _ => False
  | _ + 1, .simple _ => True
  | levels + 1, .complex _ fields =>
    (fields.map Prod.fst).Nodup ∧ ∀ field ∈ fields, ∀ node ∈ field.2.nodes, Tidy levels node

theorem Tidy.child {place child : Place} (tidy : Tidy (levels + 1) place.node)
    (member : child ∈ place.children schema) : Tidy levels child.node := by
  obtain ⟨path, declared, node⟩ := place
  cases node with
  | simple value => cases member
  | complex named fields =>
    rw [Place.children] at member
    dsimp only at member
    split at member
    · cases member
    · obtain ⟨field, listed, inside⟩ := List.mem_flatMap.mp member
      exact tidy.2 field listed _ (node_of_mem_fieldPlaces inside)

/-- In a tidy tree the walk records just the nodes that are declared below
declared ones. -/
theorem mem_visits_iff {place : Place} (tidy : Tidy levels place.node) {visit : Visit} :
    visit ∈ place.visits crates schema levels ↔ place.Reaches schema visit.toPlace ∧
      visit.noted = (visit.findings crates schema).map (⟨visit.path, ·⟩) := by
  induction levels generalizing place with
  | zero => cases tidy
  | succ levels ih =>
    rw [Place.visits, List.mem_cons, List.mem_flatMap, Place.Reaches,
      Relation.ReflTransGen.cases_head_iff]
    constructor
    · rintro (rfl | ⟨child, member, recorded⟩)
      · exact ⟨.inl rfl, rfl⟩
      · obtain ⟨below, noted⟩ := (ih (tidy.child member)).mp recorded
        exact ⟨.inr ⟨child, member, below⟩, noted⟩
    · rintro ⟨same | ⟨child, member, below⟩, noted⟩
      · left
        cases visit
        simp only at same noted
        rw [noted, same]
      · exact .inr ⟨child, member, (ih (tidy.child member)).mpr ⟨below, noted⟩⟩

/-- A node reached from a tidy one is tidy. -/
theorem Tidy.reached {place target : Place} (tidy : Tidy levels place.node)
    (below : place.Reaches schema target) :
    ∃ left, Tidy left target.node := by
  induction below with
  | refl => exact ⟨levels, tidy⟩
  | tail _ member ih =>
    obtain ⟨left, here⟩ := ih
    cases left with
    | zero => cases here
    | succ left => exact ⟨left, here.child member⟩

end Record

section Readers
variable {crates : Crates} {schema : Schema}

theorem Writable.tidy (writable : Writable schema levels node declared) : Tidy levels node := by
  induction levels generalizing node declared with
  | zero => cases writable
  | succ levels ih =>
    cases node with
    | simple value => trivial
    | complex named fields =>
      obtain ⟨plain, decls, -, below⟩ := writable
      exact ⟨plain.1, fun field member node inside => ih (below field member node inside)⟩

theorem tidy_of_readElement (read : readElement schema levels xml declared path = .ok node) :
    Tidy levels node := by
  induction levels generalizing xml declared path node with
  | zero => cases read
  | succ levels ih =>
    obtain ⟨-, rfl⟩ | ⟨-, decls, fields, -, made, rfl⟩ := readElement_inv read
    · trivial
    · refine ⟨made.nodup, fun field member node inside => ?_⟩
      obtain ⟨child, -, -, place, here⟩ := made.exists_child (mem_expanded member inside)
      exact ih here

/-- One of the two readers made the message. The JSON parser gives the members
of an object in the order of their names, each once. -/
inductive Produced (crates : Crates) (schema : Schema) (message : Message) : Prop where
  | json (parsed : crates.jsonParse text = .ok value) (sorted : value.Sorted)
      (read : fromJson crates schema text = .ok message)
  | xml (read : fromXml crates schema text = .ok message)

theorem Produced.tidy (produced : Produced crates schema message) :
    Tidy (maxDepth + 1) message.body := by
  cases produced with
  | json parsed sorted read =>
    obtain ⟨body, rfl, -, here⟩ := fromJson_inv parsed read
    cases sorted with
    | object _ each => exact (readNode_normal (each _ (List.mem_singleton_self _)) here).2.1.tidy
  | @xml text read =>
    cases parsed : crates.xmlParse text with
    | error error =>
      rw [fromXml, parsed] at read
      split at read <;> cases read
    | ok root => exact tidy_of_readElement (fromXml_inv parsed read).2.2.2

theorem visits_eq (short : (validate crates schema message).length < maxViolations) :
    Recorded ([], []) ((message.place schema).visits crates schema (maxDepth + 1))
      (validate crates schema message, visits crates schema message) := by
  have report := @trace_report crates schema (maxDepth + 1) (message.place schema) ([], [])
  have recorded := trace_recorded (maxDepth + 1) (message.place schema) ([], [])
    (by rw [report]; exact short)
  have same : trace crates schema (maxDepth + 1) (message.place schema) ([], []) =
      (validate crates schema message, visits crates schema message) := Prod.ext report rfl
  rwa [same] at recorded

/-- A report that is not full is what was noted at the nodes entered. -/
theorem validate_eq_noted (short : (validate crates schema message).length < maxViolations) :
    validate crates schema message = (visits crates schema message).flatMap (·.noted) := by
  have recorded := visits_eq short
  rw [Recorded, Prod.mk.injEq] at recorded
  rw [recorded.2]
  exact recorded.1

/-- What the walk over a message enters, when its report is not full. -/
theorem mem_visits_message (produced : Produced crates schema message)
    (short : (validate crates schema message).length < maxViolations) {visit : Visit} :
    visit ∈ visits crates schema message ↔ (message.place schema).Reaches schema visit.toPlace ∧
      visit.noted = (visit.findings crates schema).map (⟨visit.path, ·⟩) := by
  have recorded := visits_eq short
  rw [Recorded, Prod.mk.injEq] at recorded
  rw [recorded.2, List.nil_append]
  exact mem_visits_iff produced.tidy

end Readers

end OaGateway.Uci
