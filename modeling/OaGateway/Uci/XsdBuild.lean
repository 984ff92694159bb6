import OaGateway.Uci.Xsd

/-! What the schema compiler builds: the definitions of all documents, each read
by itself, under keys of their own. -/
namespace OaGateway.Uci.Xsd

open Lib
open Lib.Xml (ElementNode)

/-- What one child of a schema defines. -/
inductive Defined where
  | element (name typeName : String)
  | complex (name : String) (definition : ComplexType)
  | simple (name : String) (definition : SimpleType)

namespace Defined

def key : Defined → Definition × String
  | element name _ => (.element, name)
  | complex name _ => (.complex, name)
  | simple name _ => (.simple, name)

/-- The schema with one more definition. -/
def addTo (schema : Schema) : Defined → Schema
  | element name typeName =>
    { schema with globalElements := schema.globalElements.insert name typeName }
  | complex name definition =>
    { schema with complexTypes := schema.complexTypes.insert name definition }
  | simple name definition =>
    { schema with simpleTypes := schema.simpleTypes.insert name definition }

end Defined

/-- The map of a kind of definitions has a name. -/
def taken (schema : Schema) : Definition × String → Bool
  | (.element, name) => (schema.globalElements.lookup name).isSome
  | (.complex, name) => (schema.complexTypes.lookup name).isSome
  | (.simple, name) => (schema.simpleTypes.lookup name).isSome

theorem claim_eq_ok {schema : Schema} {name : String} {kind : Definition} {done : Unit} :
    claim schema name kind = .ok done ↔ taken schema (kind, name) = false := by
  cases kind <;> simp [claim, taken, fail]

theorem required_eq_ok {node : ElementNode} {attr value : String} :
    required node attr = .ok value ↔ node.attributeOf attr = some value := by
  rw [required]
  split <;> simp_all [fail]

/-- What a child of a schema says, whatever the schema has so far. -/
def readDefinition (crates : Crates) (child : ElementNode) : Except UciError (Option Defined) := do
  if child.localName = "element" then
    let name ← required child "name"
    let qname ← mapError
      (.xsd ("global element '" ++ name ++
        "' has no type=; anonymous inline types are not supported"))
      (required child "type")
    .ok (some (.element name (typeRef child qname)))
  else if child.localName = "complexType" then
    let (name, complex) ← complexType child
    .ok (some (.complex name complex))
  else if child.localName = "simpleType" then
    let (name, simple) ← simpleType crates child
    .ok (some (.simple name simple))
  else if child.localName = "include" ∨ child.localName = "import" then .ok none
  else fail ("top-level 'xs:" ++ child.localName ++ "' is outside the supported subset")

section Build
variable {crates : Crates} {schema after : Schema} {child : ElementNode} {defs : List Defined}

/-- Reading and adding are two things. -/
theorem addDefinition_eq_ok :
    addDefinition crates schema child = .ok after ↔
      (readDefinition crates child = .ok none ∧ after = schema) ∨
        ∃ defined, readDefinition crates child = .ok (some defined) ∧
        taken schema defined.key = false ∧
          after = defined.addTo schema := by
  rw [addDefinition, readDefinition]
  split
  · simp only [bind_eq_ok, Except.ok.injEq, reduceCtorEq, and_false, exists_false,
      false_and, false_or, Option.some.injEq]
    constructor
    · rintro ⟨name, named, qname, typed, _, claimed, rfl⟩
      exact ⟨_, ⟨name, named, qname, typed, rfl⟩, claim_eq_ok.mp claimed, rfl⟩
    · rintro ⟨_, ⟨name, named, qname, typed, rfl⟩, free, rfl⟩
      exact ⟨name, named, qname, typed, (), claim_eq_ok.mpr free, rfl⟩
  · split
    · simp only [bind_eq_ok, Except.ok.injEq, reduceCtorEq, and_false, exists_false,
        false_and, false_or, Option.some.injEq]
      constructor
      · rintro ⟨⟨name, complex⟩, read, _, claimed, rfl⟩
        exact ⟨_, ⟨⟨name, complex⟩, read, rfl⟩, claim_eq_ok.mp claimed, rfl⟩
      · rintro ⟨_, ⟨⟨name, complex⟩, read, rfl⟩, free, rfl⟩
        exact ⟨⟨name, complex⟩, read, (), claim_eq_ok.mpr free, rfl⟩
    · split
      · simp only [bind_eq_ok, Except.ok.injEq, reduceCtorEq, and_false, exists_false,
          false_and, false_or, Option.some.injEq]
        constructor
        · rintro ⟨⟨name, simple⟩, read, _, claimed, rfl⟩
          exact ⟨_, ⟨⟨name, simple⟩, read, rfl⟩, claim_eq_ok.mp claimed, rfl⟩
        · rintro ⟨_, ⟨⟨name, simple⟩, read, rfl⟩, free, rfl⟩
          exact ⟨⟨name, simple⟩, read, (), claim_eq_ok.mpr free, rfl⟩
      · split
        · simp only [Except.ok.injEq, true_and, reduceCtorEq, false_and, exists_false, or_false]
          exact eq_comm
        · simp [fail]

theorem taken_addTo (schema : Schema) (defined : Defined) (key : Definition × String) :
    taken (defined.addTo schema) key = (decide (key = defined.key) || taken schema key) := by
  obtain ⟨kind, name⟩ := key
  cases defined <;> cases kind <;> simp [Defined.addTo, Defined.key, taken, Table.lookup_insert_ite]
  all_goals
    split
    · simp_all
    · simp_all

/-- Some definitions are added one after the other, each under a free key. -/
theorem foldlM_addDefinition_eq_ok {children : List ElementNode} :
    children.foldlM (addDefinition crates) schema = .ok after ↔
      ∃ read, collect (readDefinition crates) children = .ok read ∧
        (read.reduceOption.map Defined.key).Nodup ∧
        (∀ defined ∈ read.reduceOption, taken schema defined.key = false) ∧
        after = read.reduceOption.foldl Defined.addTo schema := by
  induction children generalizing schema with
  | nil =>
    rw [List.foldlM_nil]
    constructor
    · rintro ⟨⟩
      exact ⟨[], rfl, List.nodup_nil, nofun, rfl⟩
    · rintro ⟨_, ⟨⟩, -, -, rfl⟩
      rfl
  | cons child rest ih =>
    rw [List.foldlM_cons, bind_eq_ok]
    simp only [addDefinition_eq_ok, ih, collect_cons_eq_ok]
    constructor
    · rintro ⟨middle, ⟨here, rfl⟩ | ⟨defined, here, free, rfl⟩, read, later, apart, unused, rfl⟩
      · exact ⟨none :: read, ⟨none, read, here, later, rfl⟩, apart, unused, rfl⟩
      · simp only [taken_addTo, Bool.or_eq_false_iff, decide_eq_false_iff_not] at unused
        refine ⟨some defined :: read, ⟨some defined, read, here, later, rfl⟩, ?_, ?_, rfl⟩
        · rw [List.reduceOption_cons_of_some, List.map_cons, List.nodup_cons, List.mem_map]
          refine ⟨?_, apart⟩
          rintro ⟨other, member, same⟩
          exact (unused other member).1 same
        · intro other member
          rw [List.reduceOption_cons_of_some] at member
          rcases List.mem_cons.mp member with rfl | member
          · exact free
          · exact (unused other member).2
    · rintro ⟨_, ⟨first, read, here, later, rfl⟩, apart, unused, rfl⟩
      cases first with
      | none => exact ⟨schema, .inl ⟨here, rfl⟩, read, later, apart, unused, rfl⟩
      | some defined =>
        rw [List.reduceOption_cons_of_some] at apart unused
        simp only [List.map_cons, List.nodup_cons, List.mem_map, not_exists, not_and] at apart
        refine ⟨defined.addTo schema,
          .inr ⟨defined, here, unused defined (List.mem_cons_self ..), rfl⟩, read, later, apart.2,
            fun other member => ?_, rfl⟩
        rw [taken_addTo, Bool.or_eq_false_iff, decide_eq_false_iff_not]
        exact ⟨apart.1 other member, unused other (List.mem_cons_of_mem _ member)⟩

/-- A schema has some definitions and no others. -/
structure Defines (defs : List Defined) (schema : Schema) : Prop where
  element : ∀ name typeName, schema.globalElements.lookup name = some typeName ↔
    .element name typeName ∈ defs
  complex : ∀ name definition, schema.complexTypes.lookup name = some definition ↔
    .complex name definition ∈ defs
  simple : ∀ name definition, schema.simpleTypes.lookup name = some definition ↔
    .simple name definition ∈ defs

theorem Defines.unique (one : Defines defs schema) (two : Defines defs after) : schema = after := by
  have elements : schema.globalElements = after.globalElements :=
    Finmap.ext_lookup fun name => Option.ext fun typeName =>
      (one.element name typeName).trans (two.element ..).symm
  have complexes : schema.complexTypes = after.complexTypes :=
    Finmap.ext_lookup fun name => Option.ext fun definition =>
      (one.complex name definition).trans (two.complex ..).symm
  have simples : schema.simpleTypes = after.simpleTypes :=
    Finmap.ext_lookup fun name => Option.ext fun definition =>
      (one.simple name definition).trans (two.simple ..).symm
  cases schema
  cases after
  simp_all

theorem Defines.of_perm {others : List Defined} (defines : Defines defs schema)
    (perm : defs.Perm others) :
    Defines others schema :=
  ⟨fun name typeName => (defines.element name typeName).trans perm.mem_iff,
    fun name definition => (defines.complex name definition).trans perm.mem_iff,
    fun name definition => (defines.simple name definition).trans perm.mem_iff⟩

/-- A definition under a key that none has yet is one more. -/
theorem Defines.addTo {defined : Defined} (defines : Defines defs schema)
    (fresh : defined.key ∉ defs.map Defined.key) :
    Defines (defs ++ [defined]) (defined.addTo schema) := by
  have free {other : Defined} (member : other ∈ defs) (same : other.key = defined.key) : False :=
    fresh (same ▸ List.mem_map_of_mem member)
  obtain ⟨element, complex, simple⟩ := defines
  cases defined with
  | element own ownType =>
    refine ⟨fun name typeName => ?_, fun name definition => ?_, fun name definition => ?_⟩
    · simp only [Defined.addTo, Table.lookup_insert_ite, List.mem_append, List.mem_singleton,
        Defined.element.injEq]
      split
      · rename_i same
        subst same
        simp only [Option.some.injEq, true_and, eq_comm]
        exact ⟨.inr, fun either => either.resolve_left fun member => free member rfl⟩
      · rename_i other
        simp [element, other]
    · simp [Defined.addTo, complex]
    · simp [Defined.addTo, simple]
  | complex own definition =>
    refine ⟨fun name typeName => ?_, fun name definition => ?_, fun name definition => ?_⟩
    · simp [Defined.addTo, element]
    · simp only [Defined.addTo, Table.lookup_insert_ite, List.mem_append, List.mem_singleton,
        Defined.complex.injEq]
      split
      · rename_i same
        subst same
        simp only [Option.some.injEq, true_and, eq_comm]
        exact ⟨.inr, fun either => either.resolve_left fun member => free member rfl⟩
      · rename_i other
        simp [complex, other]
    · simp [Defined.addTo, simple]
  | simple own definition =>
    refine ⟨fun name typeName => ?_, fun name definition => ?_, fun name definition => ?_⟩
    · simp [Defined.addTo, element]
    · simp [Defined.addTo, complex]
    · simp only [Defined.addTo, Table.lookup_insert_ite, List.mem_append, List.mem_singleton,
        Defined.simple.injEq]
      split
      · rename_i same
        subst same
        simp only [Option.some.injEq, true_and, eq_comm]
        exact ⟨.inr, fun either => either.resolve_left fun member => free member rfl⟩
      · rename_i other
        simp [simple, other]

theorem Defines.foldl {more : List Defined} (defines : Defines defs schema)
    (apart : ((defs ++ more).map Defined.key).Nodup) :
    Defines (defs ++ more) (more.foldl Defined.addTo schema) := by
  induction more generalizing defs schema with
  | nil => simpa using defines
  | cons defined more ih =>
    have fresh : defined.key ∉ defs.map Defined.key := by
      rw [List.map_append, List.map_cons] at apart
      exact fun member => (List.nodup_append.mp apart).2.2 _ member _ (List.mem_cons_self ..) rfl
    have rest := ih (defines.addTo fresh) (by simpa using apart)
    simpa using rest

theorem defines_new : Defines [] .new :=
  ⟨by simp [Schema.new], by simp [Schema.new], by simp [Schema.new]⟩

/-- Every type name a schema refers to is an `xs:` name or defined. -/
def Resolved (schema : Schema) : Prop :=
  ∀ typeName ∈ references schema, known schema typeName = true

theorem checkReferences_eq_ok {done : Unit} : checkReferences schema = .ok done ↔
    Resolved schema := by
  rw [checkReferences, Resolved]
  simp only
  split
  · rename_i none
    simp only [Multiset.toFinset_eq_empty, Multiset.filter_eq_nil] at none
    simpa using none
  · rename_i some
    simp only [Multiset.toFinset_eq_empty, Multiset.filter_eq_nil] at some
    simpa [fail] using some

/-- The children of a schema that are looked at. -/
def topLevel (root : ElementNode) : List ElementNode :=
  root.elements.filter fun child => child.localName != "annotation"

/-- The root of a schema document, with nothing foreign directly in it. -/
def IsSchema (root : ElementNode) : Prop :=
  isXs root = true ∧ root.localName = "schema" ∧ ∀ child ∈ root.elements, isXs child = true

theorem definitions_eq_ok {node : ElementNode} {children : List ElementNode} :
    definitions node = .ok children ↔ (∀ child ∈ node.elements, isXs child = true) ∧
      children = topLevel node := by
  rw [definitions]
  split
  · rename_i child found
    have foreign := List.find?_some found
    have member := List.mem_of_find?_eq_some found
    simp only [fail, reduceCtorEq, false_iff, not_and]
    intro all
    rw [all child member] at foreign
    cases foreign
  · rename_i none
    simp only [List.find?_eq_none, Bool.not_eq_true'] at none
    simp only [Except.ok.injEq, topLevel]
    constructor
    · rintro rfl
      exact ⟨by simpa using none, rfl⟩
    · rintro ⟨-, rfl⟩
      rfl

/-- A text that is taken as a schema document. -/
def Accepts (crates : XsdCrates) (text : String) (root : ElementNode) : Prop :=
  nestingExceeds text maxDepth = false ∧ crates.documentParse text = .ok root ∧ IsSchema root

theorem addText_eq_ok {crates : XsdCrates} {document : String × Nat} :
    addText crates schema document = .ok after ↔
      ∃ root, Accepts crates document.1 root ∧
        (topLevel root).foldlM (addDefinition crates.toCrates) schema = .ok after := by
  rw [addText]
  split
  · rename_i deep
    simp [fail, Accepts, deep]
  · rename_i shallow
    simp only [Bool.not_eq_true] at shallow
    split
    · rename_i error malformed
      simp [fail, Accepts, malformed]
    · rename_i root parsed
      rw [addDocument]
      constructor
      · intro added
        split at added
        · cases added
        · rename_i rooted
          obtain ⟨children, found, folded⟩ := bind_eq_ok.mp added
          obtain ⟨all, rfl⟩ := definitions_eq_ok.mp found
          simp only [Bool.or_eq_true, Bool.not_eq_true', bne_iff_ne, not_or,
            Bool.not_eq_false, not_not] at rooted
          exact ⟨root, ⟨shallow, parsed, rooted.1, rooted.2, all⟩, folded⟩
      · rintro ⟨other, ⟨-, same, one, two, all⟩, folded⟩
        rw [parsed] at same
        cases same
        rw [if_neg (by simp [one, two])]
        exact bind_eq_ok.mpr ⟨_, definitions_eq_ok.mpr ⟨all, rfl⟩, folded⟩

theorem foldlM_addText_eq_ok {crates : XsdCrates} {documents : List (String × Nat)} :
    documents.foldlM (addText crates) schema = .ok after ↔
      ∃ roots, List.Forall₂ (Accepts crates) (documents.map Prod.fst) roots ∧
        (roots.flatMap topLevel).foldlM (addDefinition crates.toCrates) schema = .ok after := by
  induction documents generalizing schema with
  | nil => simp [List.forall₂_nil_left_iff]
  | cons document rest ih =>
    rw [List.foldlM_cons, bind_eq_ok, List.map_cons]
    simp only [addText_eq_ok, ih, List.forall₂_cons_left_iff]
    constructor
    · rintro ⟨middle, ⟨root, accepts, first⟩, roots, each, later⟩
      refine ⟨root :: roots, ⟨root, roots, accepts, each, rfl⟩, ?_⟩
      rw [List.flatMap_cons, List.foldlM_append, bind_eq_ok]
      exact ⟨middle, first, later⟩
    · rintro ⟨_, ⟨root, roots, accepts, each, rfl⟩, folded⟩
      rw [List.flatMap_cons, List.foldlM_append, bind_eq_ok] at folded
      obtain ⟨middle, first, later⟩ := folded
      exact ⟨middle, ⟨root, accepts, first⟩, roots, each, later⟩

/-- Documents compile when each is taken and each of its definitions is read, no
two definitions of a kind share a name, and every type name resolves; the schema
has exactly these definitions. -/
theorem compile_eq_ok {crates : XsdCrates} {documents : List String} :
    compile crates documents = .ok schema ↔
      ∃ roots read, List.Forall₂ (Accepts crates) documents roots ∧
        collect (readDefinition crates.toCrates) (roots.flatMap topLevel) = .ok read ∧
        (read.reduceOption.map Defined.key).Nodup ∧ Defines read.reduceOption schema ∧
            Resolved schema := by
  rw [compile, bind_eq_ok]
  simp only [bind_eq_ok, checkReferences_eq_ok, Except.ok.injEq, foldlM_addText_eq_ok,
    foldlM_addDefinition_eq_ok, List.zipIdx_map_fst]
  constructor
  · rintro ⟨_, ⟨roots, each, read, collected, apart, -, rfl⟩, _, resolved, rfl⟩
    exact ⟨roots, read, each, collected, apart, defines_new.foldl apart, resolved⟩
  · rintro ⟨roots, read, each, collected, apart, defines, resolved⟩
    refine ⟨schema, ⟨roots, each, read, collected, apart, ?_, ?_⟩, (), resolved, rfl⟩
    · rintro (_ | _ | _) - <;> simp [Defined.key, taken, Schema.new]
    · exact defines.unique (defines_new.foldl apart)

/-- The type names a definition refers to. -/
def Defined.references : Defined → List String
  | element _ typeName => [typeName]
  | complex _ definition => ComplexContent.references definition.content
  | simple _ definition => [definition.base]

theorem Defines.mem_references (defines : Defines defs schema) {typeName : String} :
    typeName ∈ Xsd.references schema ↔ ∃ defined ∈ defs, typeName ∈ defined.references := by
  simp only [Xsd.references, Multiset.mem_add, Multiset.mem_map, Multiset.mem_bind,
    Multiset.mem_coe]
  constructor
  · rintro ((⟨⟨name, own⟩, entry, rfl⟩ | ⟨⟨name, definition⟩, entry, member⟩) | ⟨⟨name, definition⟩,
      entry, rfl⟩)
    · exact ⟨_, (defines.element ..).mp (Finmap.mem_lookup_iff.mpr entry),
        List.mem_singleton_self _⟩
    · exact ⟨_, (defines.complex ..).mp (Finmap.mem_lookup_iff.mpr entry), member⟩
    · exact ⟨_, (defines.simple ..).mp (Finmap.mem_lookup_iff.mpr entry), List.mem_singleton_self _⟩
  · rintro ⟨defined, inside, member⟩
    cases defined with
    | element name own =>
      exact .inl (.inl ⟨⟨name, own⟩, Finmap.mem_lookup_iff.mp ((defines.element ..).mpr inside),
        (List.mem_singleton.mp member).symm⟩)
    | complex name definition =>
      exact .inl
        (.inr ⟨⟨name, definition⟩, Finmap.mem_lookup_iff.mp ((defines.complex ..).mpr inside),
        member⟩)
    | simple name definition =>
      exact .inr ⟨⟨name, definition⟩, Finmap.mem_lookup_iff.mp ((defines.simple ..).mpr inside),
        (List.mem_singleton.mp member).symm⟩

/-- What one document compiles to. -/
theorem compile_single {crates : XsdCrates} {text : String} {root : ElementNode}
    {read : List (Option Defined)} (accepts : Accepts crates text root)
    (collected : collect (readDefinition crates.toCrates) (topLevel root) = .ok read)
    (apart : (read.reduceOption.map Defined.key).Nodup)
    (resolved : ∀ defined ∈ read.reduceOption, ∀ typeName ∈ defined.references,
      known (read.reduceOption.foldl Defined.addTo .new) typeName = true) :
    compile crates [text] = .ok (read.reduceOption.foldl Defined.addTo .new) := by
  have defines := defines_new.foldl apart
  refine compile_eq_ok.mpr ⟨[root], read,
    .cons accepts .nil, by simpa using collected, apart, defines, ?_⟩
  intro typeName member
  obtain ⟨defined, inside, refers⟩ := defines.mem_references.mp member
  exact resolved defined inside typeName refers

end Build

section Samples

/-- A tag under the prefix `xs`. -/
def xsTag (name : String) (attributes : List (String × String)) : Xml.Tag where
  name := ("xs:" ++ name).toList
  attributes := attributes.map fun entry =>
    ⟨[' '], entry.1.toList, [], [], .double, entry.2.toList.map .char⟩
  space := []

/-- A schema document with some content. -/
def schemaDocument (content : Xml.Content) : Xml.Document where
  declaration := none
  prolog := .nil
  root := .element (xsTag "schema" [("xmlns:xs", xs)]) content [] .nil
  epilog := .nil

/-- A parser that knows some documents. -/
def parserOf (documents : List Xml.Document) : XsdCrates where
  toCrates := bareCrates
  documentParse text :=
    match documents.find? fun document => String.ofList document.render == text with
    | some document => .ok document.elementTree
    | none => .error "unknown token"

theorem parse_head (document : Xml.Document) (documents : List Xml.Document) :
    (parserOf (document :: documents)).documentParse (.ofList document.render) =
      .ok document.elementTree := by
  simp [parserOf]

theorem parse_second {first : Xml.Document} (document : Xml.Document)
    (documents : List Xml.Document) (different : first.render.length ≠ document.render.length) :
    (parserOf (first :: document :: documents)).documentParse (.ofList document.render) =
      .ok document.elementTree := by
  have other : String.ofList first.render ≠ String.ofList document.render := fun same =>
    different (congrArg List.length (by simpa using congrArg String.toList same))
  simp [parserOf, other]

theorem accepts_document {crates : XsdCrates} {document : Xml.Document}
    (valid : document.valid = true) (shallow : (document.depths.any (maxDepth < ·)) = false)
    (isSchema : IsSchema document.elementTree)
    (parsed : crates.documentParse (.ofList document.render) = .ok document.elementTree) :
    Accepts crates (.ofList document.render) document.elementTree :=
  ⟨(nestingExceeds_document valid _).trans shallow, parsed, isSchema⟩

end Samples

end OaGateway.Uci.Xsd
