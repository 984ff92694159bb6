import OaGateway.Lib.Group
import OaGateway.Uci.Clean

/-! What the XML reader makes of an element: which node each child element
becomes, and in what fields the nodes stand. -/
namespace OaGateway.Uci

open Lib

section Fields
variable {read : Xml.Node → String → String → Except UciError Node} {decls : List Element}
  {path : String}

/-- The child elements in the order of the fields they are read into. -/
def fieldElements (xml : Xml.Node) : List Xml.Node := grouped Xml.Node.localName xml.elements

theorem perm_fieldElements (xml : Xml.Node) : (fieldElements xml).Perm xml.elements :=
  perm_grouped _ _

/-- A child element was read as the child node beside it. -/
def ReadAs (read : Xml.Node → String → String → Except UciError Node) (decls : List Element)
    (child : Xml.Node) (pair : String × Node) : Prop :=
  child.localName = pair.1 ∧ ∃ place, read child (childType decls pair.1) place = .ok pair.2

/-- The fields of a node and the child elements they were read from. -/
structure ReadFields (read : Xml.Node → String → String → Except UciError Node)
    (decls : List Element) (xml : Xml.Node) (fields : List (String × Field)) : Prop where
  names : fields.map Prod.fst = keysOf Xml.Node.localName xml.elements
  shapes : ∀ field ∈ fields, field.2.nodes ≠ [] ∧
    field.2.isMany = (isArray decls field.1 || decide (1 < field.2.nodes.length))
  each : List.Forall₂ (ReadAs read decls) (fieldElements xml) (expanded fields)

theorem fieldOf_spec {name : String} {array : Bool} {nodes : List Node}
    (single : array = false → nodes.length ≤ 1) :
    (fieldOf name array nodes).1 = name ∧ (fieldOf name array nodes).2.nodes = nodes ∧
      (nodes ≠ [] → (fieldOf name array nodes).2.isMany = array) := by
  cases array with
  | true => exact ⟨rfl, rfl, fun _ => rfl⟩
  | false =>
    match nodes with
    | [] => exact ⟨rfl, rfl, fun some => absurd rfl some⟩
    | [only] => exact ⟨rfl, rfl, fun _ => rfl⟩
    | _ :: _ :: _ => simp at single

/-- A field holds the nodes of the child elements of its name. -/
theorem readField_inv {elements : List Xml.Node} {name : String} {field : String × Field}
    (ran : readField read decls path elements name = .ok field) :
    field.1 = name ∧
      List.Forall₂ (fun kid node => ∃ place, read kid (childType decls name) place = .ok node)
        (keyed Xml.Node.localName elements name) field.2.nodes ∧
      (field.2.nodes ≠ [] →
        field.2.isMany = (isArray decls name || decide (1 < field.2.nodes.length))) := by
  obtain ⟨nodes, collected, rfl⟩ := map_eq_ok.mp ran
  have each := of_collect_zipIdx collected
  have count : (elements.filter fun child => child.localName == name).length = nodes.length :=
    each.length_eq
  have shape := @fieldOf_spec name
    (isArray decls name || decide ((elements.filter fun child => child.localName == name).length >
      1)) nodes (by
      intro single
      simp only [Bool.or_eq_false_iff, decide_eq_false_iff_not] at single
      omega)
  refine ⟨shape.1, ?_, fun some => ?_⟩
  · rw [shape.2.1]
    exact each.imp fun _ _ ⟨index, here⟩ => ⟨_, here⟩
  · rw [shape.2.1] at some ⊢
    rw [shape.2.2 some, count]

theorem readFields_of_collect {xml : Xml.Node} {fields : List (String × Field)}
    (collected : collect (readField read decls path xml.elements)
      (xml.elements.map Xml.Node.localName).eraseDups = .ok fields) :
          ReadFields read decls xml fields := by
  have runs := collect_eq_ok.mp collected
  refine ⟨?_, fun field member => ?_, ?_⟩
  · rw [← List.forall₂_eq_eq_eq, List.forall₂_map_left_iff]
    exact runs.flip.imp fun _ _ ran => (readField_inv ran).1
  · obtain ⟨name, listed, ran⟩ := of_mem_collect collected member
    obtain ⟨rfl, each, shape⟩ := readField_inv ran
    have some : field.2.nodes ≠ [] := by
      obtain ⟨child, inside, named⟩ := mem_keysOf.mp listed
      have kid : child ∈ keyed Xml.Node.localName xml.elements field.1 :=
        List.mem_filter.mpr ⟨inside, by simp [named]⟩
      have count := each.length_eq
      have present := List.length_pos_of_mem kid
      exact List.ne_nil_of_length_pos (by omega)
    exact ⟨some, shape some⟩
  · refine List.rel_flatMap runs fun name field ran => ?_
    obtain ⟨rfl, each, -⟩ := readField_inv ran
    rw [List.forall₂_map_right_iff]
    refine (List.forall₂_iff_zip.mpr ⟨each.length_eq, fun {kid node} paired => ?_⟩)
    have kid' := (List.mem_filter.mp (List.of_mem_zip paired).1).2
    exact ⟨by simpa using kid', (List.forall₂_iff_zip.mp each).2 paired⟩

theorem mem_expanded {fields : List (String × Field)} {field : String × Field}
    (member : field ∈ fields) {node : Node} (inside : node ∈ field.2.nodes) :
    (field.1, node) ∈ expanded fields :=
  List.mem_flatMap.mpr ⟨field, member, List.mem_map.mpr ⟨node, inside, rfl⟩⟩

/-- Each child of a node was read from a child element. -/
theorem ReadFields.exists_child {xml : Xml.Node} {fields : List (String × Field)}
    (fromFields : ReadFields read decls xml fields) {pair : String × Node}
    (member : pair ∈ expanded fields) :
    ∃ child ∈ xml.elements, ReadAs read decls child pair := by
  obtain ⟨count, paired⟩ := List.forall₂_iff_zip.mp fromFields.each
  obtain ⟨child, zipped⟩ := exists_zip_right count member
  exact ⟨child, (perm_fieldElements xml).mem_iff.mp (List.of_mem_zip zipped).1, paired zipped⟩

/-- Each child element was read as a child of the node. -/
theorem ReadFields.exists_pair {xml : Xml.Node} {fields : List (String × Field)}
    (fromFields : ReadFields read decls xml fields) {child : Xml.Node}
    (member : child ∈ xml.elements) :
    ∃ pair ∈ expanded fields, ReadAs read decls child pair := by
  obtain ⟨count, paired⟩ := List.forall₂_iff_zip.mp fromFields.each
  obtain ⟨pair, zipped⟩ := exists_zip_left count ((perm_fieldElements xml).mem_iff.mpr member)
  exact ⟨pair, (List.of_mem_zip zipped).2, paired zipped⟩

theorem ReadFields.nodup {xml : Xml.Node} {fields : List (String × Field)}
    (fromFields : ReadFields read decls xml fields) : (fields.map Prod.fst).Nodup := by
  rw [fromFields.names]
  exact nodup_keysOf _ _

end Fields

section Elements
variable {schema : Schema}

theorem readElement_inv {xml : Xml.Node} {node : Node}
    (read : readElement schema (levels + 1) xml typeName path = .ok node) :
    (schema.isLeaf typeName = true ∧
      node = .simple (parseText (schema.primitive typeName) (leafText xml))) ∨
    schema.isLeaf typeName ≠ true ∧ ∃ decls fields,
      schema.flatten (actualType schema xml typeName) = .ok decls ∧
      ReadFields (readElement schema levels) decls xml fields ∧
      node = .complex (overriding (actualType schema xml typeName) typeName) fields := by
  by_cases leaf : schema.isLeaf typeName = true
  · rw [readElement_leaf leaf] at read
    exact .inl ⟨leaf, (Except.ok.inj read).symm⟩
  · cases flat : schema.flatten (actualType schema xml typeName) with
    | error error =>
      rw [readElement_unflattened leaf flat] at read
      cases read
    | ok decls =>
      rw [readElement_complex leaf flat] at read
      obtain ⟨fields, collected, rfl⟩ := map_eq_ok.mp read
      exact .inr ⟨leaf, decls, fields, rfl, readFields_of_collect collected, rfl⟩

theorem fromXml_inv {crates : Crates} (parsed : crates.xmlParse text = .ok root)
    (read : fromXml crates schema text = .ok message) :
    nestingExceeds text maxDepth = false ∧ message.name = root.localName ∧
      (schema.globalType message.name).isSome = true ∧
      readElement schema (maxDepth + 1) root ((xsiType root).getD (schema.declaredType message))
        message.name =
        .ok message.body := by
  rw [fromXml] at read
  split at read
  · cases read
  · rename_i shallow
    rw [parsed] at read
    dsimp only at read
    split at read
    · cases read
    · rename_i declared known
      split at read
      · rename_i body here
        cases read
        refine ⟨by simpa using shallow, rfl, by simp [known], ?_⟩
        simpa [Schema.declaredType, known] using here
      · cases read

end Elements

section Samples

/-- A parser that knows some documents. -/
def documentCrates (documents : List Xml.Document) : Crates :=
  { bareCrates with
    xmlParse := fun text =>
      match documents.find? fun document => String.ofList document.render == text with
      | some document => .ok document.tree
      | none => .error "unknown token" }

/-- A known document parses to its tree when no other is written like it. -/
theorem documentCrates_parse {documents : List Xml.Document} {document : Xml.Document}
    (member : document ∈ documents)
    (unique : ∀ other ∈ documents, other.render = document.render → other = document) :
    (documentCrates documents).xmlParse (.ofList document.render) = .ok document.tree := by
  have found : documents.find? (fun other => String.ofList other.render ==
    .ofList document.render) =
      some document := by
    cases lookup : documents.find? fun other => String.ofList other.render ==
        .ofList document.render with
    | none => exact absurd (List.find?_eq_none.mp lookup document member) (by simp)
    | some other =>
      have same : other.render = document.render := by
        simpa [String.ofList_inj] using List.find?_some lookup
      rw [unique other (List.mem_of_find?_eq_some lookup) same]
  simp only [documentCrates, found]

/-- `<Report><Count>7…</Count></Report>` -/
def countDocument (after : Xml.Content) : Xml.Document where
  declaration := none
  prolog := .nil
  root := .element ⟨"Report".toList, [], []⟩
    (.element ⟨"Count".toList, [], []⟩ (.text [.char '7'] after) [] .nil) [] .nil
  epilog := .nil

def sevenReport : Message :=
  ⟨"Report", .complex none [("Count", .one (.simple (.number (.posInt 7))))]⟩

end Samples

end OaGateway.Uci
