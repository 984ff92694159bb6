import OaGateway.Lib.Printed
import OaGateway.Lib.Xml.Elements
import OaGateway.Uci.XmlReader

/-! UCI XML written and read again: the tree of what the writer writes, and
the nodes the reader makes of it. -/
namespace OaGateway.Uci

open Lib

section Names
open Xml

theorem splitName_ncName {name : List Char} (named : isNcName name = true) :
    splitName name = (none, name) := by
  simp only [isNcName, Bool.and_eq_true, Bool.not_eq_true', List.contains_eq_mem,
    decide_eq_false_iff_not] at named
  have whole : name.dropWhile (· != ':') = [] := by
    refine List.dropWhile_eq_nil_iff.mpr fun c member => ?_
    simpa using fun same : c = ':' => named.2 (same ▸ member)
  rw [splitName, whole]

theorem localName_ncName {name : String} (named : isNcName name.toList = true) :
    localName name = name := by
  simp only [isNcName, Bool.and_eq_true, Bool.not_eq_true', List.contains_eq_mem,
    decide_eq_false_iff_not] at named
  have whole : name.toList.reverse.takeWhile (· != ':') = name.toList.reverse := by
    refine List.takeWhile_eq_self_iff.mpr fun c member => ?_
    simpa using fun same : c = ':' => named.2 (same ▸ List.mem_reverse.mp member)
  rw [localName, afterLast, whole, List.reverse_reverse, String.ofList_toList]

theorem attributeChars_plain {text : List Char} (solid : ∀ c ∈ text, isSpace c = false) :
    attributeChars (text.map .char) = text := by
  induction text with
  | nil => rfl
  | cons c rest ih =>
    obtain ⟨here, later⟩ := List.forall_mem_cons.mp solid
    rw [List.map_cons, attributeChars, ih later]
    · simp [here]
    · intro _ _ isReturn
      subst isReturn
      cases here

theorem not_isSpace_of_ncName {name : List Char} (named : isNcName name = true) :
    ∀ c ∈ name, isSpace c = false := by
  intro c member
  have other (blank : Char) (refused : isNameChar blank = false) : c ≠ blank := by
    rintro rfl
    simp [isNameChar_of_isName (isName_of_isNcName named) c member] at refused
  simp [isSpace, other ' ' (by decide), other '\t' (by decide), other '\r' (by decide),
    other '\n' (by decide)]

end Names

section Tags
open Xml

private theorem declared_defaultNs : Scope.declared defaultNs = [(none, ns)] := by decide

private theorem declared_xsiNs : Scope.declared xsiNs = [(some ['x', 's', 'i'], xsi)] := by decide

private theorem declared_typeAttribute (name : String) :
    Scope.declared (typeAttribute name) = [] := by
  have other : (typeAttribute name).name ≠ ['x', 'm', 'l', 'n', 's'] :=
    (by decide : "xsi:type".toList ≠ ['x', 'm', 'l', 'n', 's'])
  rw [Scope.declared, if_neg other]
  rfl

/-- A tag the writer opens gives the type it names, and no other attribute. -/
theorem attributes_tagOf (scope : Scope) (label : String) (isRoot : Bool)
    (typeName : Option String) : (scope.enter (tagOf label isRoot typeName)).attributes
      (tagOf label isRoot typeName) =
      match typeName with
      | none => []
      | some name => [(⟨some xsi, "type"⟩, .ofList (attributeChars (name.toList.map .char)))] := by
  cases typeName with
  | none => cases isRoot <;> simp [Scope.attributes, tagOf, attributesOf, declared_defaultNs]
  | some name =>
    have bound : (scope.enter (tagOf label isRoot (some name))).resolve (some ['x', 's', 'i']) =
        some xsi := by
      rw [Scope.resolve, if_neg (by decide)]
      cases isRoot <;>
        simp [Scope.enter, tagOf, attributesOf, declared_defaultNs, declared_xsiNs,
          List.lookup_cons, xsi]
    have named : (scope.enter (tagOf label isRoot (some name))).attributeName "xsi:type".toList =
        ⟨some xsi, "type"⟩ := by
      have parts : splitName "xsi:type".toList = (some ['x', 's', 'i'], "type".toList) := by decide
      rw [Scope.attributeName, parts, Option.bind_some, bound, String.ofList_toList]
    have kept : (tagOf label isRoot (some name)).attributes.filter
      (fun attr => (Scope.declared attr).isEmpty) =
        [typeAttribute name] := by
      cases isRoot <;>
        simp [tagOf, attributesOf, declared_defaultNs, declared_xsiNs, declared_typeAttribute]
    rw [Scope.attributes, kept, List.map_singleton]
    exact congrArg (fun bound => [(bound, _)]) named

theorem xsiType_elemOf {crates : Crates} {node : Node}
    (named : ∀ name, node.typeName = some name → isNcName name.toList = true)
    (isRoot : Bool) (depth : Nat) (label : String) (scope : Scope) :
    xsiType ((elemOf crates isRoot depth label node).node scope) = node.typeName := by
  rw [xsiType, Elem.node, Node.attributeOf, elemOf, attributes_tagOf]
  cases typed : node.typeName with
  | none => rfl
  | some name =>
    have known := named name typed
    simp [attributeChars_plain (not_isSpace_of_ncName known), localName_ncName known]

end Tags

section Shown
variable {crates : Crates} {schema : Schema}

/-- An element shows a node: its name, the type it names, one child element for
each child node, and a leaf's text as the text it starts with. -/
inductive Shows (crates : Crates) : String → Node → Xml.Node → Prop where
  | simple (name : xml.localName = label) (untyped : xsiType xml = none)
      (text : xml.textOf.getD "" = value.asText crates) : Shows crates label (.simple value) xml
  | complex (name : xml.localName = label) (typed : xsiType xml = typeName)
      (count : (expanded fields).length = xml.elements.length)
      (each : ∀ pair ∈ (expanded fields).zip xml.elements, Shows crates pair.1.1 pair.1.2 pair.2) :
      Shows crates label (.complex typeName fields) xml

/-- Every text, name and type below a node can be written in XML. -/
abbrev Carriable (crates : Crates) : Node → Prop :=
  Everywhere (fun value => Textual (value.asText crates))
    (fun name => Xml.isNcName name.toList = true)
    (fun name => Xml.isNcName name.toList = true)

theorem Shows.localName_eq (shows : Shows crates label node xml) : xml.localName = label := by
  cases shows <;> assumption

theorem Shows.xsiType_eq (shows : Shows crates label node xml) : xsiType xml = node.typeName := by
  cases shows <;> assumption

theorem textOf_leaf {value : Simple} (textual : Textual (value.asText crates))
    (isRoot : Bool) (depth : Nat) (label : String) (scope : Xml.Scope) :
    ((elemOf crates isRoot depth label (.simple value)).node scope).textOf.getD "" =
      value.asText crates := by
  have noReturn : '\r' ∉ (value.asText crates).toList := fun member => (textual _ member).2 rfl
  have data := pieceChars_escapePieces noReturn
  rw [Xml.Elem.node, elemOf, contentOf, Xml.Content.nodes]
  split
  · rename_i empty
    have none : (value.asText crates).toList = [] := by simpa using empty
    exact (String.toList_eq_nil_iff.mp none).symm
  · rw [data]
    exact String.ofList_toList

/-- The element the writer makes of a node shows it. -/
theorem shows_elemOf (carriable : Carriable crates node) (named : Xml.isNcName label.toList = true)
    (isRoot : Bool) (depth : Nat) (scope : Xml.Scope) :
    Shows crates label node ((elemOf crates isRoot depth label node).node scope) := by
  have name (node : Node) : ((elemOf crates isRoot depth label node).node scope).localName =
      label := by
    rw [Xml.localName_node, elemOf, name_tagOf, splitName_ncName named, String.ofList_toList]
  induction carriable generalizing label isRoot depth scope with
  | simple textual =>
    exact .simple (name _) (xsiType_elemOf (by simp [Node.typeName]) _ _ _ _)
      (textOf_leaf textual _ _ _ _)
  | @complex typeName fields known children _ ih =>
    have elements :
      ((elemOf crates isRoot depth label (.complex typeName fields)).node scope).elements =
        (expanded fields).map fun child => (elemOf crates false (depth + 1) child.1 child.2).node
          (scope.enter (tagOf label isRoot typeName)) := by
      rw [Xml.elements_node, elements_elemOf, List.map_map]
      rfl
    have typed := @xsiType_elemOf crates (.complex typeName fields) known isRoot depth label scope
    refine .complex (name _) typed (by rw [elements, List.length_map]) ?_
    intro pair member
    rw [elements] at member
    obtain ⟨child, inside, rfl⟩ := mem_zip_map member
    have label := children child inside
    refine ih child inside label false (depth + 1) _ fun node => ?_
    rw [Xml.localName_node, elemOf, name_tagOf, splitName_ncName label, String.ofList_toList]

end Shown

section Leaves
open Lib.Json
variable {crates : Crates}

/-- An integer is printed as its numeral. -/
private theorem visible_toString (value : Int) : Visible (toString value).toList :=
  visible_of_isNumeral (numeral_toString value).1

/-- What a text is read as prints as the text, or in visible characters that are
read as the same. A double is assumed to be read back from what it prints as. -/
theorem asText_parseText {primitive text : String}
    (floats : ∀ double, parseText primitive text = .number (.float double) →
      F64.parse (crates.floatPrint double) = some double) :
    (parseText primitive text).asText crates = text ∨
      Visible ((parseText primitive text).asText crates).toList ∧
        parseText primitive ((parseText primitive text).asText crates) =
            parseText primitive text := by
  unfold parseText at floats ⊢
  split
  · by_cases yes : text = "true" ∨ text = "1"
    · simp only [yes, ↓reduceIte, Simple.asText]
      exact .inr ⟨List.all_iff_forall_prop.mp (by decide), by decide⟩
    · by_cases no : text = "false" ∨ text = "0"
      · simp only [yes, no, ↓reduceIte, Simple.asText]
        exact .inr ⟨List.all_iff_forall_prop.mp (by decide), by decide⟩
      · simp [yes, no, Simple.asText]
  · split
    · rename_i value read
      obtain ⟨-, -, -, lower, upper⟩ := parseInteger_eq_some.mp read
      right
      rw [Simple.asText, numberPrint_ofI64 lower upper, parseI64, parseInteger_toString lower upper]
      exact ⟨visible_toString value, rfl⟩
    · rename_i signed
      split
      · rename_i value read
        obtain ⟨numeral, -, same, lower, upper⟩ := parseInteger_eq_some.mp read
        have large : parseI64 (toString value) = none := by
          rw [Option.eq_none_iff_forall_ne_some] at signed ⊢
          intro other found
          obtain ⟨-, -, meant, bounds⟩ := parseInteger_eq_some.mp found
          have equal : other = value := meant.symm.trans (numeral_toString value).2.1
          subst equal
          exact signed other (parseInteger_eq_some.mpr ⟨numeral, fun _ => by decide, same, bounds⟩)
        right
        rw [Simple.asText, numberPrint_ofU64 lower upper, large, parseU64,
          parseInteger_toString lower upper]
        exact ⟨visible_toString value, rfl⟩
      · exact .inl rfl
  · rename_i kind
    split
    · rename_i number found
      obtain ⟨double, read, known⟩ := Option.bind_eq_some_iff.mp found
      rw [Number.fromF64] at known
      split at known
      · rename_i finite
        cases known
        have back := floats double (by simp [kind, found])
        right
        rw [Simple.asText, Crates.numberPrint, back, Option.bind_some,
          Number.fromF64, if_pos finite]
        exact ⟨F64.visible_of_parse back finite, rfl⟩
      · cases known
    · exact .inl rfl
  · exact .inl rfl

/-- A leaf that was read is read back from its own text. -/
theorem parseText_asText {primitive text : String} (trimmed : trimText text = text)
    (floats : ∀ double, parseText primitive text = .number (.float double) →
      F64.parse (crates.floatPrint double) = some double) :
    parseText primitive (trimText ((parseText primitive text).asText crates)) =
      parseText primitive text := by
  rcases asText_parseText floats with same | ⟨visible, back⟩
  · rw [same, trimmed]
  · rw [trimText_of_visible visible, back]

theorem textual_of_visible {text : String} (visible : Visible text.toList) : Textual text := by
  intro c member
  have shown := visible c member
  simp only [isVisible, Bool.and_eq_true, decide_eq_true_eq] at shown
  constructor
  · simp only [Xml.isChar, Bool.or_eq_true, Bool.and_eq_true, decide_eq_true_eq]
    omega
  · rintro rfl
    exact absurd shown.1 (by decide)

/-- A leaf read from XML characters can be written again, carriage returns apart. -/
theorem textual_parseText {primitive text : String} (chars : ∀ c ∈ text.toList, Xml.isChar c = true)
    (noReturn : '\r' ∉ ((parseText primitive text).asText crates).toList)
    (floats : ∀ double, parseText primitive text = .number (.float double) →
      F64.parse (crates.floatPrint double) = some double) :
    Textual ((parseText primitive text).asText crates) := by
  rcases asText_parseText floats with same | ⟨visible, -⟩
  · intro c member
    refine ⟨chars c (same ▸ member), ?_⟩
    rintro rfl
    exact noReturn member
  · exact textual_of_visible visible

end Leaves

section Back
variable {crates : Crates} {schema : Schema}

/-- A tree in the XML reader's own form: leaves at leaf types and read back from
their text, no type named that is the declared one, fields that are there, each
repeated where it is declared to be or is. -/
def XmlSettled (crates : Crates) (schema : Schema) : Nat → Node → String → Prop
  | 0, _, _ => False
  | _ + 1, .simple value, declared =>
    schema.isLeaf declared = true ∧
      parseText (schema.primitive declared) (trimText (value.asText crates)) = value
  | levels + 1, .complex typeName fields, declared =>
    schema.isLeaf declared ≠ true ∧ typeName ≠ some declared ∧ (fields.map Prod.fst).Nodup ∧
      ∃ decls, schema.flatten (typeName.getD declared) = .ok decls ∧
        ∀ field ∈ fields, field.2.nodes ≠ [] ∧
          field.2.isMany = (isArray decls field.1 || decide (1 < field.2.nodes.length)) ∧
          ∀ node ∈ field.2.nodes, XmlSettled crates schema levels node (childType decls field.1)

/-- The type an element is read as is the one its node names. -/
theorem actualType_shown {typeName : Option String} (typed : xsiType xml = typeName)
    (flat : schema.flatten (typeName.getD declared) = .ok decls) :
    actualType schema xml declared = typeName.getD declared := by
  simp only [actualType, typed, isComplex_of_flatten flat, ↓reduceIte]

theorem fieldOf_eq {field : Field} (some : field.nodes ≠ []) (name : String) :
    fieldOf name field.isMany field.nodes = (name, field) := by
  cases field with
  | one node => rfl
  | many nodes => rfl

/-- A settled tree is read back from an element that shows it. -/
theorem readElement_shown (settled : XmlSettled crates schema levels node declared)
    (shows : Shows crates label node xml) : readElement schema levels xml declared path =
      .ok node := by
  induction levels generalizing node declared label xml path with
  | zero => cases settled
  | succ levels ih =>
    cases shows with
    | simple name untyped text =>
      obtain ⟨leaf, kept⟩ := settled
      rw [readElement_leaf leaf, leafText, text, kept]
    | @complex _ _ typeName fields name typed count each =>
      obtain ⟨complex, different, apart, decls, flat, below⟩ := settled
      have actual := actualType_shown typed flat
      have shown : List.Forall₂ (fun (pair : String × Node) child =>
        Shows crates pair.1 pair.2 child)
          (expanded fields) xml.elements :=
            List.forall₂_iff_zip.mpr ⟨count, fun member => each _ member⟩
      have keys : keysOf Xml.Node.localName xml.elements = fields.map Prod.fst := by
        rw [← keysOf_spread apart fun field member => (below field member).1]
        refine keysOf_congr ?_
        rw [← List.forall₂_eq_eq_eq, List.forall₂_map_left_iff, List.forall₂_map_right_iff]
        exact shown.flip.imp fun _ _ here => here.localName_eq
      have fieldsRead : collect (readField (readElement schema levels) decls path xml.elements)
          (fields.map Prod.fst) = .ok fields := by
        rw [collect_map]
        refine (collect_ok fun field member => ?_).trans (congrArg _ (List.map_id' fields))
        obtain ⟨some, shape, settled⟩ := below field member
        have kids := forall₂_keyed shown (fun _ _ here => here.localName_eq.symm) field.1
        have own : keyed Prod.fst (expanded fields) field.1 = field.2.nodes.map fun node =>
          (field.1, node) :=
          keyed_spread apart member
        rw [own, List.forall₂_map_left_iff] at kids
        have nodes : collect (fun (kid : Xml.Node × Nat) =>
          readElement schema levels kid.1 (childType decls field.1)
            (indexed (path ++ "." ++ field.1) kid.2))
              (keyed Xml.Node.localName xml.elements field.1).zipIdx =
              .ok field.2.nodes :=
          collect_zipIdx_eq_ok (forall₂_of_mem kids fun node inside _ here _ =>
            ih (settled node inside) here).flip
        have count := kids.length_eq
        rw [keyed] at nodes count
        rw [Function.comp_apply, readField, nodes, ← count, ← shape]
        exact congrArg _ (fieldOf_eq some field.1)
      rw [readElement_complex complex (actual.symm ▸ flat), ← keysOf, keys, fieldsRead,
        actual, ← overriding, overriding_getD different]
      rfl

/-- Each double among the leaves is read back from what it prints as. -/
abbrev FloatsReparse (crates : Crates) : Node → Prop :=
  Everywhere (fun value => ∀ double, value = .number (.float double) →
    F64.parse (crates.floatPrint double) = some double) (fun _ => True) (fun _ => True)

/-- No leaf's text holds a carriage return. -/
abbrev NoReturns (crates : Crates) : Node → Prop :=
  Everywhere (fun value => '\r' ∉ (value.asText crates).toList) (fun _ => True) (fun _ => True)

theorem ReadFields.exists_below {read : Xml.Node → String → String → Except UciError Node}
    {elem : Xml.Elem} {scope : Xml.Scope}
    (fromFields : ReadFields read decls (elem.node scope) fields) {pair : String × Node}
    (member : pair ∈ expanded fields) :
    ∃ below ∈ elem.inner.elements, ReadAs read decls (below.node (scope.enter elem.tag)) pair := by
  obtain ⟨child, inside, here⟩ := fromFields.exists_child member
  rw [Xml.elements_node] at inside
  obtain ⟨below, listed, rfl⟩ := List.mem_map.mp inside
  exact ⟨below, listed, here⟩

/-- What the XML reader makes of an element is settled. -/
theorem xmlSettled_of_readElement (read : readElement schema levels xml declared path = .ok node)
    (floats : FloatsReparse crates node) : XmlSettled crates schema levels node declared := by
  induction levels generalizing xml declared path node with
  | zero => cases read
  | succ levels ih =>
    obtain ⟨leaf, rfl⟩ | ⟨complex, decls, fields, flat, fromFields, rfl⟩ := readElement_inv read
    · cases floats with
      | simple reparse => exact ⟨leaf, parseText_asText (trimText_trimText _) reparse⟩
    · cases floats with
      | complex _ _ below =>
        refine ⟨complex, overriding_ne _ _, ?_, decls, (getD_overriding _ _).symm ▸ flat,
          fun field member => ?_⟩
        · exact fromFields.nodup
        · obtain ⟨some, shape⟩ := fromFields.shapes field member
          refine ⟨some, shape, fun node inside => ?_⟩
          have listed := mem_expanded member inside
          obtain ⟨child, -, -, place, here⟩ := fromFields.exists_child listed
          exact ih here (below _ listed)

/-- The type a node names was named by its element, and is complex. -/
theorem isComplex_of_overriding
    (named : overriding (actualType schema xml declared) declared = some name) :
    schema.isComplex name = true := by
  by_cases known : schema.isComplex ((xsiType xml).getD declared) = true
  · simp only [overriding, actualType, known, ↓reduceIte] at named
    split at named
    · cases named
    · cases named
      exact known
  · simp [overriding, actualType, known] at named

/-- The types a node read from XML names are complex. -/
theorem typed_of_readElement (read : readElement schema levels xml declared path = .ok node) :
    Typed schema node := by
  induction levels generalizing xml declared path node with
  | zero => cases read
  | succ levels ih =>
    obtain ⟨leaf, rfl⟩ | ⟨complex, decls, fields, flat, fromFields, rfl⟩ := readElement_inv read
    · exact .simple trivial
    · refine .complex (fun name named => isComplex_of_overriding named) (fun _ _ => trivial)
        fun pair member => ?_
      obtain ⟨child, -, -, place, here⟩ := fromFields.exists_child member
      exact ih here

/-- The elements of a document are read into children with XML names. -/
theorem ncNames_of_readElement {elem : Xml.Elem} {scope : Xml.Scope}
    (read : readElement schema levels (elem.node scope) declared path = .ok node)
    (qualified : elem.inner.qualified = true) :
    Everywhere (fun _ => True) (fun name => Xml.isNcName name.toList = true)
      (fun _ => True) node := by
  induction levels generalizing elem scope declared path node with
  | zero => cases read
  | succ levels ih =>
    obtain ⟨leaf, rfl⟩ | ⟨complex, decls, fields, flat, fromFields, rfl⟩ := readElement_inv read
    · exact .simple trivial
    · refine .complex (fun _ _ => trivial) (fun pair member => ?_) fun pair member => ?_
      · obtain ⟨below, listed, named, -⟩ := fromFields.exists_below member
        rw [← named, Xml.localName_node, String.toList_ofList]
        exact Xml.isNcName_of_isQName (Xml.Content.elements_qualified qualified below listed).1
      · obtain ⟨below, listed, -, place, here⟩ := fromFields.exists_below member
        exact ih here (Xml.Content.elements_qualified qualified below listed).2

/-- The texts a document's elements were read into can be written. -/
theorem textual_of_readElement {elem : Xml.Elem} {scope : Xml.Scope}
    (read : readElement schema levels (elem.node scope) declared path = .ok node)
    (valid : elem.inner.valid = true) (floats : FloatsReparse crates node)
    (returns : NoReturns crates node) :
    TextualLeaves crates node := by
  induction levels generalizing elem scope declared path node with
  | zero => cases read
  | succ levels ih =>
    obtain ⟨leaf, rfl⟩ | ⟨complex, decls, fields, flat, fromFields, rfl⟩ := readElement_inv read
    · cases floats with
      | simple reparse =>
      cases returns with
      | simple noReturn =>
        refine .simple (textual_parseText (fun c member => ?_) noReturn reparse)
        cases found : (elem.node scope).textOf with
        | none => simp [leafText, found, trimText, trim, trimStart] at member
        | some value =>
          rw [leafText, found, trimText, String.toList_ofList] at member
          exact Xml.isChar_of_textOf valid found c (mem_of_mem_trim member)
    · cases floats with
      | complex _ _ floats =>
      cases returns with
      | complex _ _ returns =>
        refine .complex (fun _ _ => trivial) (fun _ _ => trivial) fun pair member => ?_
        obtain ⟨below, listed, -, place, here⟩ := fromFields.exists_below member
        exact ih here (Xml.Content.elements_valid valid below listed).2 (floats pair member)
          (returns pair member)

/-- Names, types and texts that can be written make a node that can. -/
theorem Everywhere.carriable (leaves : TextualLeaves crates node)
    (children : Everywhere (fun _ => True) (fun name => Xml.isNcName name.toList = true)
      (fun _ => True) node)
    (names : schema.NcNames) (typed : Typed schema node) : Carriable crates node := by
  induction leaves with
  | simple textual => exact .simple textual
  | complex _ _ _ ih =>
    cases children with
    | complex _ labels children =>
    cases typed with
    | complex known _ typed =>
      refine .complex (fun name same => names.types name (.inl (known name same))) labels
        fun pair member => ?_
      exact ih pair member (children pair member) (typed pair member)

/-- A complex node is written when each of its children is. -/
theorem exists_writeComplex {depth : Nat}
    (known : writerDecls schema (typeName.getD declared) = .ok decls)
    (each : ∀ child ∈ expanded fields, ∃ out, writeElement crates schema levels child.1 child.2
      (childType decls child.1) false (depth + 1) = .ok out) (name : String) (isRoot : Bool) :
    ∃ out, writeElement crates schema (levels + 1) name (.complex typeName fields) declared isRoot
      depth = .ok out := by
  obtain ⟨children, collected⟩ := collect_succeeds.mpr each
  rw [writeElement]
  split
  · exact ⟨_, rfl⟩
  · simp only [known, collected]
    exact ⟨_, rfl⟩

/-- Nothing stops the XML writer below a settled node. -/
theorem writeElement_settled (settled : XmlSettled crates schema levels node declared)
    (label : String) (isRoot : Bool) (depth : Nat) :
    ∃ out, writeElement crates schema levels label node declared isRoot depth = .ok out := by
  induction levels generalizing node declared label isRoot depth with
  | zero => cases settled
  | succ levels ih =>
    cases node with
    | simple value => exact ⟨_, rfl⟩
    | complex typeName fields =>
      obtain ⟨-, -, -, decls, flat, below⟩ := settled
      have known : writerDecls schema (typeName.getD declared) = .ok decls := by
        rw [writerDecls, isComplex_of_flatten flat]
        exact flat
      exact exists_writeComplex known (forall_expanded.mpr fun field member node inside =>
        ih ((below field member).2.2 node inside) _ _ _) _ _

end Back

section Depth
variable {crates : Crates} {schema : Schema}

/-- Elements nest at most this deep in what the node is written as. -/
def Node.within : Nat → Node → Prop
  | 0, _ => False
  | _ + 1, .simple _ => True
  | levels + 1, .complex _ fields => ∀ pair ∈ expanded fields, Node.within levels pair.2

/-- An element and everything below it is at most `limit` deep, counted from `outer`. -/
def ElemWithin (outer limit : Nat) (elem : Xml.Elem) : Prop :=
  ∀ depth ∈ (outer + 1) :: elem.inner.depths (outer + 1), depth ≤ outer + limit

theorem elemWithin_iff {outer limit : Nat} {elem : Xml.Elem} :
    ElemWithin outer (limit + 1) elem ↔
      ∀ below ∈ elem.inner.elements, ElemWithin (outer + 1) limit below := by
  rw [ElemWithin, List.forall_mem_cons, Xml.Content.depths_eq]
  simp only [List.mem_flatMap, ElemWithin]
  constructor
  · intro bounded below member depth inside
    have deep := bounded.2 depth ⟨below, member, inside⟩
    omega
  · intro each
    refine ⟨by omega, ?_⟩
    rintro depth ⟨below, member, inside⟩
    have deep := each below member depth inside
    omega

theorem not_elemWithin_zero {outer : Nat} {elem : Xml.Elem} : ¬ ElemWithin outer 0 elem := by
  intro bounded
  have first := bounded (outer + 1) List.mem_cons_self
  omega

/-- The writer's element is as deep as its node. -/
theorem elemWithin_elemOf {outer limit : Nat} (isRoot : Bool) (depth : Nat) (label : String) :
    ElemWithin outer limit (elemOf crates isRoot depth label node) ↔ node.within limit := by
  induction limit generalizing node outer isRoot depth label with
  | zero => exact ⟨fun bounded => absurd bounded not_elemWithin_zero, False.elim⟩
  | succ limit ih =>
    rw [elemWithin_iff]
    cases node with
    | simple value => simp [elemOf, contentOf, Xml.Content.elements, Node.within]
    | complex typeName fields =>
      rw [elements_elemOf, List.forall_mem_map, Node.within]
      exact forall₂_congr fun pair _ => ih _ _ _

/-- A node is no deeper than the element it was read from. -/
theorem within_of_readElement {elem : Xml.Elem} {scope : Xml.Scope}
    (read : readElement schema levels (elem.node scope) declared path = .ok node)
    (bounded : ElemWithin outer limit elem) : node.within limit := by
  induction limit generalizing levels elem scope declared path node outer with
  | zero => exact absurd bounded not_elemWithin_zero
  | succ limit ih =>
    cases levels with
    | zero => cases read
    | succ levels =>
      obtain ⟨leaf, rfl⟩ | ⟨complex, decls, fields, flat, fromFields, rfl⟩ := readElement_inv read
      · trivial
      · intro pair member
        obtain ⟨below, listed, -, place, here⟩ := fromFields.exists_below member
        exact ih here (elemWithin_iff.mp bounded below listed)

end Depth

section Documents
open Xml
variable {crates : Crates} {schema : Schema}

theorem root_writtenDocument (crates : Crates) (message : Message) :
    (writtenDocument crates message).root.elements =
      [elemOf crates true 0 message.name message.body] := by
  rw [writtenDocument, documentOf, elements_elementOf]
  rfl

theorem isQName_of_isNcName {name : List Char} (named : isNcName name = true) :
    isQName name = true := by
  rw [isQName, splitName_ncName named]
  exact named

theorem qualified_contentOf (carriable : Carriable crates node) (depth : Nat) :
    (contentOf crates depth node).qualified = true := by
  induction carriable generalizing depth with
  | simple => rfl
  | @complex typeName fields _ children _ ih =>
    refine Content.qualified_of_elements ?_
    rw [show (contentOf crates depth (.complex typeName fields)).elements = _ from
      elements_elemOf crates false depth "" typeName fields, List.forall_mem_map]
    exact fun child member => ⟨isQName_of_isNcName (children child member),
      ih child member (depth + 1)⟩

/-- The document of a message that can be carried is well formed, and its root shows the message. -/
theorem writtenDocument_formed (carriable : Carriable crates message.body)
    (named : isNcName message.name.toList = true) : (writtenDocument crates message).Namespaced ∧
      Shows crates message.name message.body (writtenDocument crates message).tree := by
  have children : Named message.body :=
    carriable.imp (fun _ _ => trivial) (fun _ known => isName_of_isNcName known) fun _ _ => trivial
  have leaves : TextualLeaves crates message.body :=
    carriable.imp (fun _ known => known) (fun _ _ => trivial) fun _ _ => trivial
  have types := carriable.imp (fun _ _ => trivial) (fun _ _ => trivial) fun _ known =>
    isName_of_isNcName known
  have formed : (writtenDocument crates message).Namespaced := by
    refine ⟨writtenDocument_valid types children leaves (isName_of_isNcName named),
      Content.qualified_of_elements ?_⟩
    rw [root_writtenDocument, List.forall_mem_singleton]
    exact ⟨isQName_of_isNcName named, qualified_contentOf carriable 0⟩
  obtain ⟨elem, only, tree, -⟩ := formed.exists_root
  rw [root_writtenDocument, List.singleton_inj] at only
  rw [tree, ← only]
  exact ⟨formed, shows_elemOf carriable named true 0 []⟩

/-- A written document is as deep as its message. -/
theorem depths_writtenDocument (limit : Nat) :
    (∀ depth ∈ (writtenDocument crates message).depths, depth ≤ limit) ↔
      message.body.within limit := by
  have whole := @elemWithin_elemOf crates message.body 0 limit true 0 message.name
  rw [← whole, Document.depths, Content.depths_eq, root_writtenDocument,
    List.flatMap_singleton, ElemWithin]
  simp only [Nat.zero_add]

theorem nestingExceeds_writtenDocument (valid : (writtenDocument crates message).valid = true)
    (limit : Nat) :
    nestingExceeds (.ofList (writtenDocument crates message).render) limit = false ↔
      message.body.within limit := by
  rw [← @depths_writtenDocument crates, nestingExceeds_document valid, List.any_eq_false]
  simp

/-- A message read from a document is no deeper than the reader allows. -/
theorem within_of_fromXml {document : Document} (formed : document.Namespaced)
    (parsed : crates.xmlParse (.ofList document.render) = .ok document.tree)
    (read : fromXml crates schema (.ofList document.render) = .ok message) :
    message.body.within maxDepth := by
  obtain ⟨shallow, -, -, here⟩ := fromXml_inv parsed read
  obtain ⟨elem, only, tree, -⟩ := formed.exists_root
  rw [tree] at here
  refine @within_of_readElement _ _ _ _ _ 0 _ _ _ here fun depth member => ?_
  rw [nestingExceeds_document formed.1, List.any_eq_false] at shallow
  have bounded :=
    shallow depth (by rwa [Document.depths, Content.depths_eq, only, List.flatMap_singleton])
  simpa using bounded

/-- A message that is written is written as its document. -/
theorem toXml_eq
    (written : ∃ out, writeElement crates schema (maxDepth + 1) message.name message.body
      (schema.declaredType message) true 0 = .ok out) :
    toXml crates schema message = .ok (.ofList (writtenDocument crates message).render) := by
  obtain ⟨element, written⟩ := written
  rw [Schema.declaredType] at written
  obtain ⟨out, succeeded⟩ : ∃ out, toXml crates schema message = .ok out := by
    simp only [toXml, written]
    exact ⟨_, rfl⟩
  rw [succeeded, render_writtenDocument succeeded]

/-- Reading the tree of a document that was parsed. -/
theorem fromXml_eq {message : Message} (shallow : nestingExceeds text maxDepth = false)
    (parsed : crates.xmlParse text = .ok root) (named : root.localName = message.name)
    (global : (schema.globalType message.name).isSome = true) :
    fromXml crates schema text =
      (readElement schema (maxDepth + 1) root ((xsiType root).getD (schema.declaredType message))
        message.name).map
        (⟨message.name, ·⟩) := by
  obtain ⟨declared, known⟩ := Option.isSome_iff_exists.mp global
  rw [fromXml, shallow, parsed, Schema.declaredType, known]
  simp only [Bool.false_eq_true, ↓reduceIte, named, known, Option.getD_some]
  cases readElement schema (maxDepth + 1) root ((xsiType root).getD declared) message.name <;> rfl

/-- Reading the document of a message is reading its root as the type the message names. -/
theorem fromXml_writtenDocument (carriable : Carriable crates message.body)
    (named : isNcName message.name.toList = true)
    (global : (schema.globalType message.name).isSome = true)
    (shallow : message.body.within maxDepth)
    (reparsed : (writtenDocument crates message).Namespaced →
      crates.xmlParse (.ofList (writtenDocument crates message).render) =
        .ok (writtenDocument crates message).tree) :
    fromXml crates schema (.ofList (writtenDocument crates message).render) =
      (readElement schema (maxDepth + 1) (writtenDocument crates message).tree
        (message.body.typeName.getD (schema.declaredType message)) message.name).map
            (⟨message.name, ·⟩) := by
  obtain ⟨formed, shows⟩ := writtenDocument_formed carriable named
  rw [fromXml_eq ((nestingExceeds_writtenDocument formed.1 maxDepth).mpr shallow) (reparsed formed)
    shows.localName_eq global, shows.xsiType_eq]

/-- A root names no type in the tree: it is read as the type its element names. -/
theorem typeName_of_root
    (read : readElement schema levels xml ((xsiType xml).getD declared) path = .ok node) :
    node.typeName = none := by
  have same : actualType schema xml ((xsiType xml).getD declared) =
      (xsiType xml).getD declared := by
    cases typed : xsiType xml <;> simp [actualType, typed]
  cases levels with
  | zero => cases read
  | succ levels =>
    obtain ⟨leaf, rfl⟩ | ⟨complex, decls, fields, flat, fromFields, rfl⟩ := readElement_inv read
    · rfl
    · rw [same]
      simp [Node.typeName, overriding]

/-- A document whose root names no type is read into a tree that is written and
read again as it is. -/
theorem fromXml_toXml {document : Document} (names : schema.NcNames) (formed : document.Namespaced)
    (parsed : crates.xmlParse (.ofList document.render) = .ok document.tree)
    (untyped : xsiType document.tree = none)
    (read : fromXml crates schema (.ofList document.render) = .ok message)
    (returns : NoReturns crates message.body) (floats : FloatsReparse crates message.body)
    (reparsed : (writtenDocument crates message).Namespaced →
      crates.xmlParse (.ofList (writtenDocument crates message).render) =
        .ok (writtenDocument crates message).tree) :
    toXml crates schema message = .ok (.ofList (writtenDocument crates message).render) ∧
      fromXml crates schema (.ofList (writtenDocument crates message).render) = .ok message := by
  obtain ⟨-, -, global, here⟩ := fromXml_inv parsed read
  obtain ⟨elem, -, tree, valid, -, qualified⟩ := formed.exists_root
  have root := typeName_of_root here
  rw [untyped, Option.getD_none] at here
  have settled := xmlSettled_of_readElement here floats
  have typed := typed_of_readElement here
  rw [tree] at here
  have carriable := (textual_of_readElement here valid floats returns).carriable
    (ncNames_of_readElement here qualified) names typed
  have within := within_of_fromXml formed parsed read
  have named := names.globals _ global
  obtain ⟨-, shows⟩ := writtenDocument_formed carriable named
  refine ⟨toXml_eq (writeElement_settled settled message.name true 0), ?_⟩
  rw [fromXml_writtenDocument carriable named global within reparsed, root, Option.getD_none,
    readElement_shown settled shows]
  rfl

/-- A count is written and read again. -/
def tripCrates : Crates :=
  documentCrates [countDocument .nil, writtenDocument bareCrates sevenReport]

/-- The document of a count is told from the one it was read from by its second character. -/
theorem reparse_seven {crates : Crates} (known : crates.xmlParse = tripCrates.xmlParse)
    (same : writtenDocument crates sevenReport = writtenDocument bareCrates sevenReport) :
    crates.xmlParse (.ofList (writtenDocument crates sevenReport).render) =
      .ok (writtenDocument crates sevenReport).tree := by
  rw [known, same, tripCrates]
  refine documentCrates_parse (List.mem_cons_of_mem _ List.mem_cons_self) fun other listed alike =>
    ?_
  simp only [List.mem_cons, List.not_mem_nil, or_false] at listed
  rcases listed with rfl | rfl
  · exact absurd (congrArg (·[1]?) alike) (by decide)
  · rfl

theorem fromXml_toXml_count :
    toXml tripCrates reportSchema sevenReport =
      .ok (.ofList (writtenDocument tripCrates sevenReport).render) ∧
      fromXml tripCrates reportSchema (.ofList (writtenDocument tripCrates sevenReport).render) =
          .ok sevenReport := by
  have read : fromXml tripCrates reportSchema (.ofList (countDocument .nil).render) =
    .ok sevenReport := rfl
  refine fromXml_toXml reportSchema_ncNames ⟨by decide, by decide⟩ rfl rfl read ?_ ?_ fun _ =>
    reparse_seven rfl rfl
  · refine .complex (fun _ _ => trivial) (fun _ _ => trivial) fun pair member => ?_
    cases List.mem_singleton.mp member
    exact .simple (by decide)
  · refine .complex (fun _ _ => trivial) (fun _ _ => trivial) fun pair member => ?_
    cases List.mem_singleton.mp member
    exact .simple (by simp)

end Documents

end OaGateway.Uci
