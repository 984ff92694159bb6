import OaGateway.Uci.JsonTrip

/-! One member put in the place of another: what the JSON reader reads then, and
what the XML writer writes. -/
namespace OaGateway.Uci

open Lib Lib.Json

/-- Change each node of a field. -/
def Field.update (change : Node → Node) : Field → Field
  | .one node => .one (change node)
  | .many nodes => .many (nodes.map change)

/-- Change the nodes of the field of one name. -/
def Node.update (name : String) (change : Node → Node) : Node → Node
  | .simple value => .simple value
  | .complex typeName fields =>
    .complex typeName (fields.map fun field =>
      if field.1 = name then (name, field.2.update change) else field)

/-- The nodes of the fields of one name. -/
def Node.children (name : String) : Node → List Node
  | .simple _ => []
  | .complex _ fields => fields.flatMap fun field => if field.1 = name then field.2.nodes else []

/-- A field with one node, repeated or not. -/
def sole (array : Bool) (node : Node) : Field := if array then .many [node] else .one node

theorem nodes_sole (array : Bool) (node : Node) : (sole array node).nodes = [node] := by
  cases array <;> rfl

theorem update_sole (array : Bool) (node : Node) (change : Node → Node) :
    (sole array node).update change = sole array (change node) := by
  cases array <;> rfl

/-- A complex node around the one node of a field. -/
def around (typeName : Option String) (front : List (String × Field)) (key : String) (array : Bool)
    (back : List (String × Field)) (node : Node) : Node :=
  .complex typeName (front ++ (key, sole array node) :: back)

theorem update_around (front back : List (String × Field))
    (apart : key ∉ (front ++ back).map Prod.fst) (change : Node → Node) :
    (around typeName front key array back node).update key change =
      around typeName front key array back (change node) := by
  have kept : ∀ fields ⊆ front ++ back,
      (fields.map fun field => if field.1 = key then (key, field.2.update change) else field)
          = fields := by
    intro fields inside
    refine (List.map_congr_left fun field member => ?_).trans (List.map_id' fields)
    rw [if_neg]
    rintro rfl
    exact apart (List.mem_map_of_mem (inside member))
  rw [around, Node.update, List.map_append, List.map_cons, kept front (List.subset_append_left _ _),
    kept back (List.subset_append_right _ _), if_pos rfl, update_sole]
  rfl

theorem children_around (front back : List (String × Field))
    (apart : key ∉ (front ++ back).map Prod.fst) :
    (around typeName front key array back node).children key = [node] := by
  have none : ∀ fields ⊆ front ++ back,
      (fields.flatMap fun field => if field.1 = key then field.2.nodes else []) = [] := by
    intro fields inside
    refine List.flatMap_eq_nil_iff.mpr fun field member => ?_
    rw [if_neg]
    rintro rfl
    exact apart (List.mem_map_of_mem (inside member))
  rw [around, Node.children, List.flatMap_append, List.flatMap_cons,
    none front (List.subset_append_left _ _), none back (List.subset_append_right _ _),
      if_pos rfl, nodes_sole]
  rfl

section Reader
variable {crates : Crates} {schema : Schema}

/-- Where one string is read, another is, as a leaf. -/
theorem readNode_string (read : readNode crates schema levels (.string text) declared path =
    .ok node) (other : String) :
    ∃ simple, readNode crates schema levels (.string other) declared path = .ok (.simple simple) ∧
      (Kept (schema.primitive declared) (.string other) → simple = .string other) := by
  cases levels with
  | zero => cases read
  | succ levels =>
    obtain ⟨leaf, -⟩ | ⟨-, members, decls, fields, object, -⟩ := readNode_inv read
    · have readable : ∃ simple, readSimple crates (.string other) (schema.primitive declared) path =
          .ok simple := by
        rw [readSimple]
        split
        · exact ⟨_, rfl⟩
        · split <;> exact ⟨_, rfl⟩
      obtain ⟨simple, here⟩ := readable
      rw [readNode_leaf leaf, here]
      refine ⟨simple, rfl, fun kept => ?_⟩
      exact Except.ok.inj (here.symm.trans ((readSimple_string other _ path).mpr kept))
    · cases object

theorem readMember_sole {read : Value → String → String → Except UciError Node} {value : Value}
    (single : ∀ items, value ≠ .array items) :
    readMember read decls path (key, value) =
      (read value (childType decls key) (path ++ "." ++ key)).map fun node =>
          (key, sole (isArray decls key) node) := by
  have one (value : Value) :
    collect (fun item => read item (childType decls key) (path ++ "." ++ key)) [value] =
      (read value (childType decls key) (path ++ "." ++ key)).map fun node => [node] := by
    rw [collect, collect]
    cases read value (childType decls key) (path ++ "." ++ key) <;> rfl
  rw [readMember]
  cases isArray decls key with
  | false => rfl
  | true =>
    cases value with
    | array items => exact absurd rfl (single items)
    | null | bool | number | string | object =>
      simp only [↓reduceIte, one]
      cases read _ (childType decls key) (path ++ "." ++ key) <;> rfl

theorem fieldMembers_around (plain : key ≠ "$type") (before after : List (String × Value))
    (value : Value) :
    fieldMembers (before ++ (key, value) :: after) =
      fieldMembers before ++ ((key, value) :: fieldMembers after) := by
  rw [fieldMembers, List.filter_append, List.filter_cons_of_pos (by simpa using plain)]
  rfl

theorem namedType_around (plain : key ≠ "$type") (before after : List (String × Value))
    (value other : Value) (declared : String) :
    namedType (before ++ (key, value) :: after) declared =
      namedType (before ++ (key, other) :: after) declared := by
  simp [namedType, Value.get, Value.asObject, List.find?_append, plain]

theorem apart_of_keys {before after : List (String × Value)} {front back : List (String × Field)}
    (apart : key ∉ (before ++ after).map Prod.fst)
    (same : (front ++ back).map Prod.fst =
      (fieldMembers before ++ fieldMembers after).map Prod.fst) :
    key ∉ (front ++ back).map Prod.fst := by
  rw [same, fieldMembers, fieldMembers, ← List.filter_append]
  intro member
  exact apart (List.map_subset Prod.fst (List.filter_subset_self _) member)

/-- The fields read from some members are named like them. -/
theorem keys_of_collect {read : Value → String → String → Except UciError Node}
    (collected : collect (readMember read decls path) members = .ok fields) :
    fields.map Prod.fst = members.map Prod.fst := by
  have each := collect_eq_ok.mp collected
  clear collected
  induction each with
  | nil => rfl
  | cons here _ ih => rw [List.map_cons, List.map_cons, ih, (readMember_inv here).1]

/-- An object is read with one member as with another, and the rest of it alike. -/
theorem readNode_around {before after : List (String × Value)} {value : Value}
    (plain : key ≠ "$type") (single : ∀ items, value ≠ .array items)
    (read : readNode crates schema (levels + 1) (.object (before ++ (key, value) :: after)) declared
      path = .ok node) :
    ∃ typeName front array back child type place,
      node = around typeName front key array back child ∧
      (front ++ back).map Prod.fst = (fieldMembers before ++ fieldMembers after).map Prod.fst ∧
      readNode crates schema levels value type place = .ok child ∧
      ∀ other changed, (∀ items, other ≠ .array items) →
      readNode crates schema levels other type place = .ok changed →
        readNode crates schema (levels + 1) (.object (before ++ (key, other) :: after))
          declared path =
          .ok (around typeName front key array back changed) := by
  obtain ⟨-, simple, scalar, -⟩ | ⟨complex, members, decls, fields, object, known, flat,
    collected, rfl⟩ :=
    readNode_inv read
  · cases scalar
  · cases object
    rw [fieldMembers_around plain, collect_append] at collected
    obtain ⟨front, rest, rfl, first, collected⟩ := collected
    have each := collect_eq_ok.mp collected
    rw [List.forall₂_cons_left_iff] at each
    obtain ⟨field, back, here, last, rfl⟩ := each
    rw [readMember_sole single, map_eq_ok] at here
    obtain ⟨child, here, rfl⟩ := here
    have last := collect_eq_ok.mpr last
    refine ⟨_, front, _, back, child, _, _, rfl, ?_, here, fun other changed alone there => ?_⟩
    · rw [List.map_append, List.map_append, keys_of_collect first, keys_of_collect last]
    · have type := namedType_around plain before after value other declared
      rw [type] at known flat
      have again : readMember (readNode crates schema levels) decls path (key, other) =
          .ok (key, sole (isArray decls key) changed) := by
        rw [readMember_sole alone, there]
        rfl
      have whole : collect (readMember (readNode crates schema levels) decls path)
          (fieldMembers (before ++ (key, other) :: after)) =
            .ok (front ++ (key, sole (isArray decls key) changed) :: back) := by
        rw [fieldMembers_around plain, collect_append]
        exact ⟨front, _, rfl, first, collect_eq_ok.mpr (.cons again (collect_eq_ok.mp last))⟩
      rw [readNode_object complex known flat, whole, type]
      rfl

end Reader

section Writer
variable {crates : Crates} {schema : Schema} {message : Message}

theorem toXml_eq_ok : toXml crates schema message = .ok xml ↔
    ∃ element, writeElement crates schema (maxDepth + 1) message.name message.body
        (schema.declaredType message) true 0 = .ok element ∧
      xml = .ofList ("<?xml version=\"1.0\" encoding=\"UTF-8\"?>\n".toList ++
          element ++ ['\n']) := by
  rw [toXml, Schema.declaredType]
  cases writeElement crates schema (maxDepth + 1) message.name message.body
    ((schema.globalType message.name).getD message.name) true 0 <;> simp [eq_comm]

theorem expanded_around (front back : List (String × Field)) (key : String) (array : Bool)
    (node : Node) :
    expanded (front ++ (key, sole array node) :: back) = expanded front ++ (key, node) ::
      expanded back := by
  simp [expanded, nodes_sole]

/-- Two complex nodes that differ in one child are written alike only if the child is. -/
theorem writeElement_around
    (written : writeElement crates schema (levels + 1) label
      (around typeName front key array back node) declared
      isRoot depth = .ok out)
    (same : writeElement crates schema (levels + 1) label
      (around typeName front key array back other) declared
      isRoot depth = .ok out) :
    ∃ type piece, writeElement crates schema levels key node type false (depth + 1) = .ok piece ∧
      writeElement crates schema levels key other type false (depth + 1) = .ok piece := by
  have some (child : Node) : front ++ (key, sole array child) :: back ≠ [] := by simp
  obtain ⟨decls, texts, known, each, rfl⟩ := writeElement_complex written (some node)
  obtain ⟨others, pieces, alike, all, out⟩ := writeElement_complex same (some other)
  cases Except.ok.inj (known.symm.trans alike)
  rw [expanded_around, ← collect_eq_ok, collect_append] at each all
  obtain ⟨first, rest, rfl, before, later⟩ := each
  obtain ⟨first', rest', rfl, before', later'⟩ := all
  cases Except.ok.inj (before.symm.trans before')
  rw [collect_eq_ok, List.forall₂_cons_left_iff] at later later'
  obtain ⟨piece, last, here, after, rfl⟩ := later
  obtain ⟨other, last', there, after', rfl⟩ := later'
  cases Except.ok.inj ((collect_eq_ok.mpr after).symm.trans (collect_eq_ok.mpr after'))
  simp only [List.append_assoc, List.flatMap_append, List.flatMap_cons, List.cons_append,
    List.append_cancel_left_eq, List.cons.injEq, true_and] at out
  have same : piece = other := List.append_cancel_right out
  exact ⟨_, piece, here, same ▸ there⟩

theorem escape_cons (c : Char) (text : List Char) : escape (c :: text) = (escapePiece c).render ++
    escape text := by
  rw [← render_escapePieces, ← render_escapePieces, List.map_cons, Xml.renderPieces,
    List.flatMap_cons]
  rfl

theorem render_escapePiece (c : Char) :
    (c = '&' ∧ (escapePiece c).render = ['&', 'a', 'm', 'p', ';']) ∨
      (c = '<' ∧ (escapePiece c).render = ['&', 'l', 't', ';']) ∨
      (c = '>' ∧ (escapePiece c).render = ['&', 'g', 't', ';']) ∨
      c ≠ '&' ∧ (escapePiece c).render = [c] := by
  by_cases amp : c = '&'
  · subst amp
    exact .inl ⟨rfl, rfl⟩
  · by_cases less : c = '<'
    · subst less
      exact .inr (.inl ⟨rfl, rfl⟩)
    · by_cases greater : c = '>'
      · subst greater
        exact .inr (.inr (.inl ⟨rfl, rfl⟩))
      · exact .inr (.inr (.inr ⟨amp, by simp [escapePiece, amp, less, greater, Xml.Piece.render]⟩))

/-- An escaped character is told from another by its first two characters. -/
theorem escapePiece_append {one two : Char} {rest more : List Char}
    (same : (escapePiece one).render ++ rest = (escapePiece two).render ++ more) : one = two ∧
      rest = more := by
  rcases render_escapePiece one with ⟨here, code⟩ | ⟨here, code⟩ | ⟨here, code⟩ | ⟨here, code⟩ <;>
    rcases render_escapePiece two with ⟨there, other⟩ | ⟨there, other⟩ | ⟨there,
      other⟩ | ⟨there, other⟩ <;>
    rw [code, other] at same <;> simp at same
  all_goals first
    | exact ⟨here.trans there.symm, same⟩
    | exact same
    | exact absurd same.1 here
    | exact absurd same.1.symm there

theorem escape_ne_nil (c : Char) (text : List Char) : escape (c :: text) ≠ [] := by
  rw [escape_cons]
  rcases render_escapePiece c with ⟨-, code⟩ | ⟨-, code⟩ | ⟨-, code⟩ | ⟨-, code⟩ <;> simp [code]

/-- What is escaped can be told from what is escaped of another text. -/
theorem escape_injective : Function.Injective escape := by
  intro one
  induction one with
  | nil =>
    intro two same
    cases two with
    | nil => rfl
    | cons c rest => exact absurd same.symm (escape_ne_nil c rest)
  | cons c rest ih =>
    intro two same
    cases two with
    | nil => exact absurd same (escape_ne_nil c rest)
    | cons d more =>
      rw [escape_cons, escape_cons] at same
      obtain ⟨rfl, later⟩ := escapePiece_append same
      rw [ih later]

/-- Two leaves that are written alike have the same text. -/
theorem asText_of_written {one two : Simple}
    (written : writeElement crates schema levels label (.simple one) declared isRoot
      depth = .ok out)
    (same : writeElement crates schema levels label (.simple two) declared isRoot depth = .ok out) :
    one.asText crates = two.asText crates := by
  cases levels with
  | zero => cases written
  | succ levels =>
    rw [writeElement] at written same
    have texts := Except.ok.inj (written.trans same.symm)
    simp only [List.append_assoc, List.append_cancel_left_eq, List.cons_append,
      List.cons.injEq, true_and] at texts
    exact String.toList_inj.mp (escape_injective (List.append_cancel_right texts))

end Writer

end OaGateway.Uci
