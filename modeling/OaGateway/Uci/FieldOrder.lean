import OaGateway.Uci.Overrides

/-! The order in which the children of an element are written. -/
namespace OaGateway.Uci

open Lib

variable {crates : Crates} {schema : Schema}

/-- An element has the children of a node, in ascending order of name and those
of one name in the order the node has them. So has every element below it. -/
inductive Ascends : Node → Xml.Elem → Prop where
  | simple (bare : elem.inner.elements = []) : Ascends (.simple value) elem
  | complex (names : elem.inner.elements.map (fun child => String.ofList child.tag.name) =
        (expanded fields).map Prod.fst)
      (ordered : (expanded fields).Pairwise fun first second => first.1 ≤ second.1)
      (each : ∀ pair ∈ (expanded fields).zip elem.inner.elements, Ascends pair.1.2 pair.2) :
      Ascends (.complex typeName fields) elem

/-- The nodes of a field that sorting leaves alone are left alone. -/
theorem sorted_of_field {field : Field} (same : field.sorted = field) :
    ∀ node ∈ field.nodes, node.sorted = node := by
  cases field with
  | one only =>
    intro node inside
    cases List.mem_singleton.mp inside
    simpa [Field.sorted] using same
  | many nodes =>
    rw [Field.sorted, sortedNodes_eq, Field.many.injEq] at same
    exact List.map_inj_left.mp (same.trans (List.map_id nodes).symm)

/-- Fields that sorting leaves alone are in order, and so are those below them. -/
theorem increasing_of_sorted {fields : List (String × Field)}
    (sorted : (Node.complex typeName fields).sorted = .complex typeName fields) :
    Increasing fields ∧ ∀ pair ∈ expanded fields, pair.2.sorted = pair.2 := by
  rw [sorted_complex, Node.complex.injEq] at sorted
  have increasing : Increasing fields := by
    rw [← sorted.2]
    exact (increasing_insertAll fields).of_keys (keys_mapValues _ _)
  have each := sorted.2
  rw [insertAll_of_increasing increasing, mapValues] at each
  refine ⟨increasing, forall_expanded.mpr fun field member => ?_⟩
  have same := List.map_inj_left.mp (each.trans (List.map_id fields).symm) field member
  exact sorted_of_field (congrArg Prod.snd same)

theorem pairwise_expanded {fields : List (String × Field)} (increasing : Increasing fields) :
    (expanded fields).Pairwise fun first second => first.1 ≤ second.1 := by
  refine List.pairwise_flatMap.mpr ⟨fun field _ => ?_, ?_⟩
  · rw [List.pairwise_map]
    exact List.pairwise_of_forall fun _ _ => le_rfl
  · refine increasing.imp fun {first second} less one here two there => ?_
    obtain ⟨node, -, rfl⟩ := List.mem_map.mp here
    obtain ⟨other, -, rfl⟩ := List.mem_map.mp there
    exact less.le

/-- The element of a sorted node has its children in order. -/
theorem ascends_elemOf (settled : Settled schema levels node declared) (sorted : node.sorted = node)
    (isRoot : Bool) (depth : Nat) (name : String) :
    Ascends node (elemOf crates isRoot depth name node) := by
  induction levels generalizing node declared isRoot depth name with
  | zero => cases settled
  | succ levels ih =>
    cases node with
    | simple value => exact .simple rfl
    | complex typeName fields =>
      obtain ⟨increasing, below⟩ := increasing_of_sorted sorted
      obtain ⟨-, -, decls, flat, -⟩ := id settled
      have elements := elements_elemOf crates isRoot depth name typeName fields
      refine .complex ?_ (pairwise_expanded increasing) fun pair member => ?_
      · rw [elements, List.map_map]
        exact List.map_congr_left fun child _ => String.ofList_toList
      · rw [elements] at member
        obtain ⟨child, inside, rfl⟩ := mem_zip_map member
        exact ih (settled.child flat inside) (below child inside) false (depth + 1) child.1

/-- A clean message read from JSON is written with the children of every element
in ascending order of name, whatever the order the schema declares them in. -/
theorem children_ascend (parsed : crates.jsonParse text = .ok value) (sorted : value.Sorted)
    (read : fromJson crates schema text = .ok message) (clean : validate crates schema message = [])
    (written : toXml crates schema message = .ok out) :
    String.ofList (writtenDocument crates message).render = out ∧
      (∃ root, (writtenDocument crates message).root.elements = [root] ∧
        Ascends message.body root) ∧
      (schema.NcNames → TextualLeaves crates message.body →
          (writtenDocument crates message).valid = true) := by
  obtain ⟨body, rfl, global, here⟩ := fromJson_inv parsed read
  refine ⟨render_writtenDocument written, ⟨_, root_writtenDocument crates message, ?_⟩,
    fun names leaves => ?_⟩
  · cases sorted with
    | object _ each =>
      obtain ⟨settled, -, ordered⟩ := readNode_normal (each _ (List.mem_singleton_self _)) here
      exact ascends_elemOf settled ordered true 0 message.name
  · have labels := ncNames_of_clean names (validate_eq_nil_iff.mp clean)
    have named : Named message.body :=
      labels.imp (fun _ _ => trivial) (fun _ known => Xml.isName_of_isNcName known)
      fun _ _ => trivial
    exact writtenDocument_valid ((fromJson_cases read).2.names_of_typed names) named leaves
      (Xml.isName_of_isNcName (names.globals _ global))

section Samples
open Lib.Json

/-- A report that declares its second field first. -/
def turnedSchema : Schema where
  globalElements := Finmap.insert "Report" "ReportType" ∅
  complexTypes := Finmap.insert "ReportType"
    ⟨false, .groups
      [⟨.sequence, [⟨"B", "xs:string", 1, .bounded 1⟩, ⟨"A", "xs:string", 1, .bounded 1⟩]⟩]⟩ ∅
  simpleTypes := ∅

/-- The members in the order the schema declares them. -/
def turnedText : String := "\x7b\"Report\":\x7b\"B\":\"1\",\"A\":\"2\"\x7d\x7d"

def turnedValue : Value := .object [("Report", .object [("A", .string "2"), ("B", .string "1")])]

def turnedCrates : Crates :=
  { bareCrates with
    jsonParse := fun text => if text = turnedText then .ok turnedValue
      else .error "expected value" }

def turnedReport : Message :=
  ⟨"Report", .complex none [("A", .one (.simple (.string "2"))),
    ("B", .one (.simple (.string "1")))]⟩

theorem toXml_turnedReport : toXml turnedCrates turnedSchema turnedReport =
    .ok (.ofList (writtenDocument turnedCrates turnedReport).render) := by
  obtain ⟨out, written⟩ : ∃ out, toXml turnedCrates turnedSchema turnedReport = .ok out := ⟨_, rfl⟩
  rw [written, render_writtenDocument written]

theorem children_ascend_turned :
    ∃ root, (writtenDocument turnedCrates turnedReport).root.elements = [root] ∧
      Ascends turnedReport.body root := by
  have read : fromJson turnedCrates turnedSchema turnedText = .ok turnedReport := rfl
  refine (children_ascend rfl ?_ read (by decide +kernel) toXml_turnedReport).2.1
  apply Json.Value.Sorted.single
  refine .object (List.pairwise_pair.mpr (by decide)) fun member inside => ?_
  simp only [List.mem_cons, List.not_mem_nil, or_false] at inside
  rcases inside with rfl | rfl
  · exact .string
  · exact .string

/-- Names appear in the order they are declared in. -/
def InDeclaredOrder (decls : List Element) (names : List String) : Prop :=
  names.Pairwise fun first second => (decls.map (·.name)).idxOf first ≤
    (decls.map (·.name)).idxOf second

/-- The children of a clean report are not written in the order of its type. -/
theorem declared_order_lost :
    fromJson turnedCrates turnedSchema turnedText = .ok turnedReport ∧
    validate turnedCrates turnedSchema turnedReport = [] ∧
    toXml turnedCrates turnedSchema turnedReport =
      .ok (.ofList (writtenDocument turnedCrates turnedReport).render) ∧
    (writtenDocument turnedCrates turnedReport).valid = true ∧
    ∃ root decls, (writtenDocument turnedCrates turnedReport).root.elements = [root] ∧
      turnedSchema.flatten "ReportType" = .ok decls ∧
      ¬ InDeclaredOrder decls (root.inner.elements.map fun child =>
          String.ofList child.tag.name) := by
  refine ⟨rfl, by decide +kernel, toXml_turnedReport, by decide +kernel, _, _,
    root_writtenDocument turnedCrates turnedReport, rfl, ?_⟩
  rw [InDeclaredOrder]
  decide

end Samples

end OaGateway.Uci
