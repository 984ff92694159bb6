import OaGateway.Uci.JsonTrip

/-! What a report without violations says about every node of a message. -/
namespace OaGateway.Uci

open Lib

section Walk
variable {crates : Crates} {schema : Schema}

theorem prefix_note (path : String) (kind : ViolationKind) (out : List Violation) :
    out <+: note path kind out := by
  rw [note]
  split
  · exact List.prefix_append _ _
  · exact List.prefix_rfl

theorem note_ne_nil (path : String) (kind : ViolationKind) (out : List Violation) :
    note path kind out ≠ [] := by
  rw [note]
  split
  · simp
  · rename_i crowded
    rintro rfl
    exact crowded (by decide)

theorem prefix_noteAll (path : String) (kinds : List ViolationKind) (out : List Violation) :
    out <+: noteAll path kinds out := by
  rw [noteAll_eq]
  exact List.prefix_append _ _

theorem noteAll_eq_nil {path : String} {kinds : List ViolationKind} : noteAll path kinds [] = [] ↔
    kinds = [] := by
  rw [noteAll_eq]
  cases kinds with
  | nil => simp
  | cons kind kinds => simp [maxViolations]

theorem prefix_foldl {Item : Type} {step : List Violation → Item → List Violation}
    (grows : ∀ out item, out <+: step out item) (items : List Item) (out : List Violation) :
    out <+: items.foldl step out := by
  induction items generalizing out with
  | nil => exact List.prefix_rfl
  | cons item rest ih => exact (grows out item).trans (ih (step out item))

/-- Steps that only add to a report leave it empty when each of them does. -/
theorem foldl_eq_nil {Item : Type} {step : List Violation → Item → List Violation}
    (grows : ∀ out item, out <+: step out item) {items : List Item} :
    items.foldl step [] = [] ↔ ∀ item ∈ items, step [] item = [] := by
  induction items with
  | nil => simp
  | cons item rest ih =>
    rw [List.foldl_cons, List.forall_mem_cons, ← ih]
    constructor
    · intro quiet
      have first : step [] item = [] := by
        have kept := prefix_foldl grows rest (step [] item)
        rw [quiet] at kept
        exact List.prefix_nil.mp kept
      rw [first] at quiet
      exact ⟨first, quiet⟩
    · rintro ⟨first, later⟩
      rw [first]
      exact later

/-- The walk over one field. -/
def checkField (walk : Node → String → String → List Violation → List Violation)
    (decls : List Element) (path : String) (out : List Violation) (field : String × Field) :
    List Violation :=
  match decls.find? fun decl => decl.name == field.1 with
  | none => out
  | some decl =>
    let childPath := path ++ "." ++ field.1
    match field.2 with
    | .one child => walk child decl.typeName childPath out
    | .many items => items.zipIdx.foldl (fun out item =>
        walk item.1 decl.typeName (childPath ++ "[" ++ toString item.2 ++ "]") out) out

theorem check_complex (room : full out = false) :
    check crates schema (levels + 1) (.complex typeName fields) declared path out =
      match schema.groups (typeName.getD declared) with
      | .error error => note path (.unusableType (typeName.getD declared) error.display)
          (noteAll path (abstractFindings schema typeName (typeName.getD declared)) out)
      | .ok groups =>
        fields.foldl (checkField (check crates schema levels) (groups.flatMap (·.elements)) path)
          (noteAll path (nodeFindings groups fields)
            (noteAll path (abstractFindings schema typeName (typeName.getD declared)) out)) := by
  rw [check, room]
  rfl

theorem prefix_checkField {walk : Node → String → String → List Violation → List Violation}
    (grows : ∀ node typeName path out, out <+: walk node typeName path out) (decls : List Element)
    (path : String) (out : List Violation) (field : String × Field) :
    out <+: checkField walk decls path out field := by
  rw [checkField]
  split
  · exact List.prefix_rfl
  · split
    · exact grows _ _ _ _
    · exact prefix_foldl (fun _ _ => grows _ _ _ _) _ _

/-- A walk only adds to the report. -/
theorem prefix_check (levels : Nat) (node : Node) (declared path : String) (out : List Violation) :
    out <+: check crates schema levels node declared path out := by
  induction levels generalizing node declared path out with
  | zero =>
    rw [check]
    split
    · exact List.prefix_rfl
    · exact prefix_note _ _ _
  | succ levels ih =>
    cases node with
    | simple value =>
      rw [check]
      split
      · exact List.prefix_rfl
      · exact prefix_noteAll _ _ _
    | complex typeName fields =>
      cases room : full out with
      | true =>
        rw [check, room]
        exact List.prefix_rfl
      | false =>
        rw [check_complex room]
        split
        · exact (prefix_noteAll _ _ _).trans (prefix_note _ _ _)
        · rename_i groups _
          have walked :=
            prefix_foldl (prefix_checkField ih (groups.flatMap (·.elements)) path) fields
          exact ((prefix_noteAll _ _ _).trans (prefix_noteAll _ _ _)).trans (walked _)

end Walk

section Clean
variable {crates : Crates} {schema : Schema}

/-- Nothing is wrong with a node as `declared`, nor with any node below it. -/
def Clean (crates : Crates) (schema : Schema) : Nat → Node → String → Prop
  | 0, _, _ => False
  | _ + 1, .simple value, declared =>
    valueFindings crates schema (value.asText crates) declared = []
  | levels + 1, .complex typeName fields, declared =>
    abstractFindings schema typeName (typeName.getD declared) = [] ∧
      ∃ groups, schema.groups (typeName.getD declared) = .ok groups ∧
      nodeFindings groups fields = [] ∧
        ∀ pair ∈ expanded fields, Clean crates schema levels pair.2
          (childType (groups.flatMap (·.elements)) pair.1)

theorem flatten_of_groups {groups : List Group} (usable : schema.groups typeName = .ok groups) :
    schema.flatten typeName = .ok (groups.flatMap (·.elements)) := by
  rw [Schema.flatten, usable]

/-- Every field of a clean node is declared. -/
theorem declared_of_nodeFindings {groups : List Group} {fields : List (String × Field)}
    (quiet : nodeFindings groups fields = []) {field : String × Field} (member : field ∈ fields) :
    ∃ decl, (groups.flatMap (·.elements)).find? (fun decl => decl.name == field.1) = some decl := by
  rw [nodeFindings, List.append_eq_nil_iff, List.map_eq_nil_iff, List.filter_eq_nil_iff] at quiet
  have known := quiet.1 field.1 (List.mem_map_of_mem member)
  rw [← Option.isSome_iff_exists, List.find?_isSome]
  simpa only [Bool.not_eq_true', Bool.not_eq_false, List.any_eq_true] using known

/-- The effective type of a clean node declares each of its fields. -/
theorem declares_of_clean {groups : List Group} {fields : List (String × Field)}
    (quiet : nodeFindings groups fields = []) {name : String} (named : name ∈ fields.map Prod.fst) :
    ∃ decl ∈ groups.flatMap (·.elements), decl.name = name := by
  obtain ⟨field, member, rfl⟩ := List.mem_map.mp named
  obtain ⟨decl, found⟩ := declared_of_nodeFindings quiet member
  exact ⟨decl, List.mem_of_find?_eq_some found, by simpa using List.find?_some found⟩

/-- No child of a clean node is there more often than it is declared to be. -/
theorem count_le_of_nodeFindings {groups : List Group} {fields : List (String × Field)}
    {decl : Element} (quiet : nodeFindings groups fields = [])
    (member : decl ∈ groups.flatMap (·.elements)) (bounded : decl.maxOccurs = .bounded most) :
    count fields decl.name ≤ most := by
  obtain ⟨group, listed, inside⟩ := List.mem_flatMap.mp member
  rw [nodeFindings, List.append_eq_nil_iff, List.flatMap_eq_nil_iff] at quiet
  have here := quiet.2 group listed
  rw [groupFindings] at here
  split at here
  · rw [List.flatMap_eq_nil_iff] at here
    have single := here decl inside
    rw [bounded] at single
    by_cases absent : count fields decl.name = 0
    · omega
    · rw [if_neg absent, List.append_eq_nil_iff] at single
      simpa [maxFindings] using single.2
  · by_cases absent : count fields decl.name = 0
    · omega
    · have taken : decl ∈ group.elements.filter fun decl => decide (count fields decl.name > 0) :=
        List.mem_filter.mpr ⟨inside, by simpa using Nat.pos_of_ne_zero absent⟩
      split at here
      · cases here
      · rename_i chosen only
        rw [only, List.mem_singleton] at taken
        subst taken
        rw [bounded] at here
        simpa [maxFindings] using here
      · cases here

theorem count_eq_length {fields : List (String × Field)} {field : String × Field}
    (apart : (fields.map Prod.fst).Nodup) (member : field ∈ fields) :
    count fields field.1 = field.2.nodes.length := by
  have found : fields.find? (fun other => other.1 == field.1) = some field := by
    cases lookup : fields.find? fun other => other.1 == field.1 with
    | none => exact absurd (List.find?_eq_none.mp lookup field member) (by simp)
    | some other =>
      have same : other.1 = field.1 := by simpa using List.find?_some lookup
      rw [List.inj_on_of_nodup_map apart (List.mem_of_find?_eq_some lookup) member same]
  rw [count, found]
  cases field with
  | mk name shape => cases shape <;> rfl

/-- A field of a clean node that JSON does not carry as an array has at most one node. -/
theorem length_le_one_of_clean {groups : List Group} {fields : List (String × Field)}
    (quiet : nodeFindings groups fields = []) (apart : (fields.map Prod.fst).Nodup)
    {field : String × Field} (member : field ∈ fields)
    (single : isArray (groups.flatMap (·.elements)) field.1 = false) :
    field.2.nodes.length ≤ 1 := by
  obtain ⟨decl, found⟩ := declared_of_nodeFindings quiet member
  have named : decl.name = field.1 := by simpa using List.find?_some found
  rw [isArray, found, Option.any_some] at single
  cases bounded : decl.maxOccurs with
  | unbounded => simp [bounded, MaxOccurs.isArray] at single
  | bounded most =>
    have few := count_le_of_nodeFindings quiet (List.mem_of_find?_eq_some found) bounded
    rw [named, count_eq_length apart member] at few
    simp only [bounded, MaxOccurs.isArray, gt_iff_lt, decide_eq_false_iff_not, Nat.not_lt] at single
    omega

theorem forall_expanded {fields : List (String × Field)} {holds : String × Node → Prop} :
    (∀ pair ∈ expanded fields, holds pair) ↔
      ∀ field ∈ fields, ∀ node ∈ field.2.nodes, holds (field.1, node) := by
  simp only [expanded, List.mem_flatMap, List.mem_map]
  constructor
  · intro each field member node inside
    exact each (field.1, node) ⟨field, member, node, inside, rfl⟩
  · rintro each pair ⟨field, member, node, inside, rfl⟩
    exact each field member node inside

theorem checkField_eq_nil {walk : Node → String → String → List Violation → List Violation}
    (grows : ∀ node typeName path out, out <+: walk node typeName path out)
    {holds : Node → String → Prop}
    (each : ∀ node typeName path, walk node typeName path [] = [] ↔ holds node typeName)
    {decls : List Element} {field : String × Field}
    (found : decls.find? (fun decl => decl.name == field.1) = some decl) :
    checkField walk decls path [] field = [] ↔
      ∀ node ∈ field.2.nodes, holds node (childType decls field.1) := by
  have typed : childType decls field.1 = decl.typeName := by simp [childType, found]
  rw [checkField, found, typed]
  cases field.2 with
  | one node => simp [each, Field.nodes]
  | many nodes =>
    rw [Field.nodes, foldl_eq_nil fun _ _ => grows _ _ _ _]
    simp only [each]
    exact @forall_zipIdx _ nodes fun node => holds node decl.typeName

/-- The validator reports nothing on a node exactly when it is clean. -/
theorem check_eq_nil_iff :
    check crates schema levels node declared path [] = [] ↔
      Clean crates schema levels node declared := by
  induction levels generalizing node declared path with
  | zero => simp [check, full, maxViolations, note, Clean]
  | succ levels ih =>
    cases node with
    | simple value =>
      rw [check, Clean]
      exact noteAll_eq_nil
    | complex typeName fields =>
      rw [check_complex rfl, Clean]
      have grows : ∀ node typeName path out,
        out <+: check crates schema levels node typeName path out :=
        fun _ _ _ _ => prefix_check _ _ _ _ _
      cases usable : schema.groups (typeName.getD declared) with
      | error error => simp [note_ne_nil]
      | ok groups =>
        have walked : ∀ field ∈ fields, nodeFindings groups fields = [] →
            (checkField (check crates schema levels) (groups.flatMap (·.elements)) path
              [] field = [] ↔
                  ∀ node ∈ field.2.nodes,
                  Clean crates schema levels node
                  (childType (groups.flatMap (·.elements)) field.1)) := by
          intro field member quiet
          obtain ⟨decl, found⟩ := declared_of_nodeFindings quiet member
          exact checkField_eq_nil grows (fun _ _ _ => ih) found
        simp only [Except.ok.injEq, exists_eq_left']
        rw [forall_expanded]
        constructor
        · intro quiet
          have start :=
            prefix_foldl (prefix_checkField grows (groups.flatMap (·.elements)) path) fields
            (noteAll path (nodeFindings groups fields)
              (noteAll path (abstractFindings schema typeName (typeName.getD declared)) []))
          rw [quiet, List.prefix_nil] at start
          have first := prefix_noteAll path (nodeFindings groups fields)
            (noteAll path (abstractFindings schema typeName (typeName.getD declared)) [])
          rw [start, List.prefix_nil] at first
          rw [first] at start quiet
          rw [start, foldl_eq_nil (prefix_checkField grows _ _)] at quiet
          have nodes := noteAll_eq_nil.mp start
          exact ⟨noteAll_eq_nil.mp first, nodes, fun field member =>
            (walked field member nodes).mp (quiet field member)⟩
        · rintro ⟨abstract, nodes, below⟩
          rw [noteAll_eq_nil.mpr abstract, noteAll_eq_nil.mpr nodes,
            foldl_eq_nil (prefix_checkField grows _ _)]
          exact fun field member => (walked field member nodes).mpr (below field member)

/-- A message without violations is clean as what it is declared to be. -/
theorem validate_eq_nil_iff {message : Message} :
    validate crates schema message = [] ↔
      Clean crates schema (maxDepth + 1) message.body (schema.declaredType message) :=
  check_eq_nil_iff

/-- Everything below a clean node has a name the schema gives it. -/
theorem ncNames_of_clean (names : schema.NcNames)
    (clean : Clean crates schema levels node declared) :
    Everywhere (fun _ => True) (fun name => Xml.isNcName name.toList = true)
      (fun _ => True) node := by
  induction levels generalizing node declared with
  | zero => cases clean
  | succ levels ih =>
    cases node with
    | simple => exact .simple trivial
    | complex typeName fields =>
      obtain ⟨-, groups, usable, quiet, below⟩ := clean
      have labels : ∀ pair ∈ expanded fields, Xml.isNcName pair.1.toList = true := by
        refine forall_expanded.mpr fun field member node _ => ?_
        obtain ⟨decl, listed, same⟩ := declares_of_clean quiet (List.mem_map_of_mem member)
        exact same ▸ names.elements _ _ (flatten_of_groups usable) decl listed
      exact .complex (fun _ _ => trivial) labels fun pair member => ih (below pair member)

end Clean

end OaGateway.Uci
