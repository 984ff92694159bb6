import OaGateway.Uci.XsdBuild

/-! When a compiled schema is closed: which documents leave nothing for a
conversion to find undefined later. -/
namespace OaGateway.Uci.Xsd

open Lib
open Lib.Xml (ElementNode)

/-- The compositors a complex type declares itself. -/
def ComplexContent.ownGroups : ComplexContent → List Group
  | .groups groups => groups
  | .extension _ extra => extra

/-- Every name of a schema lands on something of the right kind. -/
structure Closed (schema : Schema) : Prop where
  separate : ∀ name, (schema.complexTypes.lookup name).isSome →
    (schema.simpleTypes.lookup name).isSome = false
  globals : ∀ name typeName, schema.globalElements.lookup name = some typeName →
    known schema typeName = true
  elements : ∀ name complex, schema.complexTypes.lookup name = some complex →
    ∀ group ∈ ComplexContent.ownGroups complex.content, ∀ element ∈ group.elements,
      known schema element.typeName = true
  bases : ∀ name simple, schema.simpleTypes.lookup name = some simple →
    Schema.isXsName simple.base = true ∨ (schema.simpleTypes.lookup simple.base).isSome
  extensions : ∀ name complex base extra, schema.complexTypes.lookup name = some complex →
    complex.content = .extension base extra → (schema.complexTypes.lookup base).isSome
  groups : ∀ name unknown, (schema.complexTypes.lookup name).isSome →
    schema.groups name ≠ .error (.unknownType unknown)
  flatten : ∀ name unknown, (schema.complexTypes.lookup name).isSome →
    schema.flatten name ≠ .error (.unknownType unknown)

section Chain
variable {schema : Schema}

/-- A chain of extensions that stays among the complex types ends in one of them,
or in a cycle. -/
theorem groupsChain_known
    (extensions : ∀ name complex base extra, schema.complexTypes.lookup name = some complex →
      complex.content = .extension base extra → (schema.complexTypes.lookup base).isSome)
    {fuel : Nat} {name : String} {chain : List String}
    (found : (schema.complexTypes.lookup name).isSome) (apart : chain.Nodup)
    (inside : ∀ link ∈ chain, link ∈ schema.complexTypes.keys)
    (enough : schema.complexTypes.keys.card + 1 ≤ fuel + chain.length) (unknown : String) :
    schema.groupsChain fuel name chain ≠ .error (.unknownType unknown) := by
  induction fuel generalizing name chain with
  | zero =>
    have short : chain.length ≤ schema.complexTypes.keys.card := by
      rw [← List.toFinset_card_of_nodup apart]
      exact Finset.card_le_card fun link member => inside link (List.mem_toFinset.mp member)
    omega
  | succ fuel ih =>
    rw [Schema.groupsChain]
    split
    · nofun
    · rename_i fresh
      simp only [List.contains_iff_mem] at fresh
      obtain ⟨complex, present⟩ := Option.isSome_iff_exists.mp found
      simp only [present]
      split
      · nofun
      · rename_i base extra content
        have next := ih (extensions name complex base extra present content)
          (apart.append (List.nodup_singleton name) (by simpa using fresh)) (by
            intro link member
            rcases List.mem_append.mp member with old | new
            · exact inside link old
            · rw [List.mem_singleton.mp new, Finmap.mem_keys]
              exact Finmap.lookup_isSome.mp found) (by
            simp only [List.length_append, List.length_singleton]
            omega)
        split
        · nofun
        · rename_i failed
          rintro ⟨⟩
          exact next failed

theorem groups_known
    (extensions : ∀ name complex base extra, schema.complexTypes.lookup name = some complex →
      complex.content = .extension base extra → (schema.complexTypes.lookup base).isSome)
    (name unknown : String) (found : (schema.complexTypes.lookup name).isSome) :
    schema.groups name ≠ .error (.unknownType unknown) :=
  groupsChain_known extensions found List.nodup_nil nofun (by simp) unknown

theorem flatten_known
    (extensions : ∀ name complex base extra, schema.complexTypes.lookup name = some complex →
      complex.content = .extension base extra → (schema.complexTypes.lookup base).isSome)
    (name unknown : String) (found : (schema.complexTypes.lookup name).isSome) :
    schema.flatten name ≠ .error (.unknownType unknown) := by
  have known := groups_known extensions name unknown found
  rw [Schema.flatten]
  split
  · nofun
  · rename_i failed
    rintro ⟨⟩
    exact known failed

end Chain

section Documents

/-- The base of the extension in a `complexType`. -/
def extensionBase (node : ElementNode) : Option String := do
  let content ← (topLevel node).head?
  if content.localName = "complexContent" then
    let derivation ← (topLevel content).head?
    (derivation.attributeOf "base").map (typeRef derivation)
  else none

/-- The base of the restriction in a `simpleType`. -/
def restrictionBase (node : ElementNode) : Option String := do
  let restriction ← (topLevel node).head?
  (restriction.attributeOf "base").map (typeRef restriction)

/-- The top-level elements of one name, over all documents. -/
def topNodes (crates : XsdCrates) (documents : List String) (tag : String) : List ElementNode :=
  ((documents.filterMap fun text => (crates.documentParse text).toOption).flatMap topLevel).filter
    fun node => node.localName == tag

/-- A type of some documents, by the tag that defines it. -/
def Names (crates : XsdCrates) (documents : List String) (tag name : String) : Prop :=
  ∃ node ∈ topNodes crates documents tag, node.attributeOf "name" = some name

/-- Complex and simple types are kept apart: no name is of both kinds, simple
types restrict simple types and complex types extend complex types. -/
structure Separated (crates : XsdCrates) (documents : List String) : Prop where
  names : ∀ name, Names crates documents "complexType" name →
    ¬ Names crates documents "simpleType" name
  restrictions : ∀ node ∈ topNodes crates documents "simpleType",
    ∀ base, restrictionBase node = some base →
    Schema.isXsName base = true ∨ Names crates documents "simpleType" base
  extensions : ∀ node ∈ topNodes crates documents "complexType",
    ∀ base, extensionBase node = some base →
    Names crates documents "complexType" base

end Documents

section Reading
variable {crates : Crates} {node : ElementNode} {name : String}

theorem extension_base {owner : String} {content : ComplexContent}
    (read : extension owner node = .ok content) :
    ∃ base extra, content = .extension base extra ∧ (node.attributeOf "base").map (typeRef node) =
      some base := by
  rw [extension] at read
  split at read
  · cases read
  · obtain ⟨base, named, read⟩ := bind_eq_ok.mp read
    obtain ⟨children, -, read⟩ := bind_eq_ok.mp read
    obtain ⟨extra, -, ⟨⟩⟩ := bind_eq_ok.mp read
    exact ⟨_, extra, rfl, by rw [required_eq_ok.mp named]; rfl⟩

theorem complexContent_reads {owner : String} {content : ComplexContent}
    (read : complexContent owner node = .ok content) :
    ∃ derivation rest, topLevel node = derivation :: rest ∧
      extension owner derivation = .ok content := by
  obtain ⟨children, found, read⟩ := bind_eq_ok.mp read
  obtain ⟨-, rfl⟩ := definitions_eq_ok.mp found
  split at read
  · cases read
  · rename_i derivation rest here
    exact ⟨derivation, rest, here, read⟩

/-- A content model is an extension when it is that of a `complexContent`. -/
theorem contentModel_base {owner : String} {content : ComplexContent}
    (read : contentModel owner node = .ok content) (base : String) :
    (∃ extra, content = .extension base extra) ↔
      node.localName = "complexContent" ∧
        ((topLevel node).head?.bind fun derivation =>
            (derivation.attributeOf "base").map (typeRef derivation)) = some base := by
  rw [contentModel] at read
  split at read
  · rename_i tag
    obtain ⟨elements, -, rfl⟩ := map_eq_ok.mp read
    simp [tag]
  · split at read
    · rename_i tag
      obtain ⟨elements, -, rfl⟩ := map_eq_ok.mp read
      simp [tag]
    · split at read
      · rename_i tag
        obtain ⟨derivation, rest, here, extended⟩ := complexContent_reads read
        obtain ⟨own, extra, rfl, same⟩ := extension_base extended
        simp [tag, here, same]
      · cases read

/-- What a complex type extends stands where `extensionBase` finds it. -/
theorem complexType_reads {definition : ComplexType}
    (read : complexType node = .ok (name, definition)) :
    node.attributeOf "name" = some name ∧
      ∀ base, (∃ extra, definition.content = .extension base extra) ↔
          extensionBase node = some base := by
  obtain ⟨own, named, read⟩ := bind_eq_ok.mp read
  obtain ⟨children, found, read⟩ := bind_eq_ok.mp read
  obtain ⟨-, rfl⟩ := definitions_eq_ok.mp found
  split at read
  · rename_i none
    cases read
    exact ⟨required_eq_ok.mp named, fun base => by simp [extensionBase, none]⟩
  · rename_i child only
    obtain ⟨content, modelled, ⟨⟩⟩ := bind_eq_ok.mp read
    refine ⟨required_eq_ok.mp named, fun base => ?_⟩
    rw [contentModel_base modelled]
    by_cases tag : child.localName = "complexContent"
    · simp [extensionBase, only, tag]
    · simp [extensionBase, only, tag]
  · obtain ⟨content, -, ⟨⟩⟩ := bind_eq_ok.mp read

theorem restriction_base {simple : SimpleType} (read : restriction crates name node = .ok simple) :
    (node.attributeOf "base").map (typeRef node) = some simple.base := by
  rw [restriction] at read
  split at read
  · cases read
  · obtain ⟨base, named, read⟩ := bind_eq_ok.mp read
    obtain ⟨children, -, read⟩ := bind_eq_ok.mp read
    obtain ⟨facets, -, ⟨⟩⟩ := bind_eq_ok.mp read
    rw [required_eq_ok.mp named]
    rfl

theorem simpleType_reads {definition : SimpleType}
    (read : simpleType crates node = .ok (name, definition)) :
    node.attributeOf "name" = some name ∧ restrictionBase node = some definition.base := by
  obtain ⟨own, named, read⟩ := bind_eq_ok.mp read
  obtain ⟨children, found, read⟩ := bind_eq_ok.mp read
  obtain ⟨-, rfl⟩ := definitions_eq_ok.mp found
  split at read
  · cases read
  · rename_i first rest here
    obtain ⟨simple, restricted, ⟨⟩⟩ := bind_eq_ok.mp read
    exact ⟨required_eq_ok.mp named, by simp [restrictionBase, here, restriction_base restricted]⟩

theorem readDefinition_complex {definition : ComplexType} :
    readDefinition crates node = .ok (some (.complex name definition)) ↔
      node.localName = "complexType" ∧ complexType node = .ok (name, definition) := by
  rw [readDefinition]
  split
  · rename_i tag
    simp [bind_eq_ok, tag]
  · split
    · rename_i tag
      simp [bind_eq_ok, tag]
    · rename_i other
      split
      · simp [bind_eq_ok, other]
      · split <;> simp [fail, other]

theorem readDefinition_simple {definition : SimpleType} :
    readDefinition crates node = .ok (some (.simple name definition)) ↔
      node.localName = "simpleType" ∧ simpleType crates node = .ok (name, definition) := by
  rw [readDefinition]
  split
  · rename_i tag
    simp [bind_eq_ok, tag]
  · split
    · rename_i tag
      simp [bind_eq_ok, tag]
    · split
      · rename_i tag
        simp [bind_eq_ok, tag]
      · rename_i other
        split <;> simp [fail, other]

theorem readDefinition_complexType {read : Option Defined} (tag : node.localName = "complexType")
    (ran : readDefinition crates node = .ok read) :
    ∃ name definition, read = some (.complex name definition) := by
  rw [readDefinition, if_neg (by simp [tag]), if_pos tag] at ran
  obtain ⟨⟨name, definition⟩, -, ⟨⟩⟩ := bind_eq_ok.mp ran
  exact ⟨name, definition, rfl⟩

theorem readDefinition_simpleType {read : Option Defined} (tag : node.localName = "simpleType")
    (ran : readDefinition crates node = .ok read) :
    ∃ name definition, read = some (.simple name definition) := by
  rw [readDefinition, if_neg (by simp [tag]), if_neg (by simp [tag]), if_pos tag] at ran
  obtain ⟨⟨name, definition⟩, -, ⟨⟩⟩ := bind_eq_ok.mp ran
  exact ⟨name, definition, rfl⟩

end Reading

section Compiled
variable {crates : XsdCrates} {documents : List String} {schema : Schema}

/-- What a compiled schema has is what the elements at the top of its documents say. -/
structure Compiled (crates : XsdCrates) (documents : List String) (schema : Schema) : Prop where
  complex : ∀ name definition, schema.complexTypes.lookup name = some definition ↔
    ∃ node ∈ topNodes crates documents "complexType", complexType node = .ok (name, definition)
  simple : ∀ name definition, schema.simpleTypes.lookup name = some definition ↔
    ∃ node ∈ topNodes crates documents "simpleType", simpleType crates.toCrates node =
      .ok (name, definition)
  complexRead : ∀ node ∈ topNodes crates documents "complexType",
    ∃ name definition, complexType node = .ok (name, definition)
  simpleRead : ∀ node ∈ topNodes crates documents "simpleType",
    ∃ name definition, simpleType crates.toCrates node = .ok (name, definition)
  resolved : Resolved schema

theorem parsed_roots {roots : List ElementNode}
    (each : List.Forall₂ (Accepts crates) documents roots) :
    (documents.filterMap fun text => (crates.documentParse text).toOption) = roots := by
  induction each with
  | nil => rfl
  | cons accepts _ ih =>
    rw [List.filterMap_cons, accepts.2.1, ih]
    rfl

theorem compiled_of_compile (compiled : compile crates documents = .ok schema) :
    Compiled crates documents schema := by
  obtain ⟨roots, read, each, collected, -, defines, resolved⟩ := compile_eq_ok.mp compiled
  have nodes (tag : String) (node : ElementNode) :
      node ∈ topNodes crates documents tag ↔ node ∈ roots.flatMap topLevel ∧
          node.localName = tag := by
    rw [topNodes, parsed_roots each, List.mem_filter, beq_iff_eq]
  have member (defined : Defined) : defined ∈ read.reduceOption ↔
      ∃ node ∈ roots.flatMap topLevel, readDefinition crates.toCrates node =
          .ok (some defined) := by
    rw [List.reduceOption_mem_iff]
    constructor
    · exact of_mem_collect collected
    · rintro ⟨node, inside, ran⟩
      obtain ⟨result, present, again⟩ := mem_of_collect collected inside
      rw [ran] at again
      cases again
      exact present
  refine ⟨fun name definition => ?_, fun name definition => ?_, fun node inside => ?_,
    fun node inside => ?_, resolved⟩
  · simp only [defines.complex, member, readDefinition_complex, nodes, and_assoc]
  · simp only [defines.simple, member, readDefinition_simple, nodes, and_assoc]
  · obtain ⟨present, tag⟩ := (nodes _ _).mp inside
    obtain ⟨result, -, ran⟩ := mem_of_collect collected present
    obtain ⟨name, definition, rfl⟩ := readDefinition_complexType tag ran
    exact ⟨name, definition, (readDefinition_complex.mp ran).2⟩
  · obtain ⟨present, tag⟩ := (nodes _ _).mp inside
    obtain ⟨result, -, ran⟩ := mem_of_collect collected present
    obtain ⟨name, definition, rfl⟩ := readDefinition_simpleType tag ran
    exact ⟨name, definition, (readDefinition_simple.mp ran).2⟩

theorem Compiled.complex_isSome (compiled : Compiled crates documents schema) (name : String) :
    (schema.complexTypes.lookup name).isSome ↔ Names crates documents "complexType" name := by
  rw [Option.isSome_iff_exists]
  simp only [compiled.complex, Names]
  constructor
  · rintro ⟨definition, node, inside, read⟩
    exact ⟨node, inside, (complexType_reads read).1⟩
  · rintro ⟨node, inside, named⟩
    obtain ⟨own, definition, read⟩ := compiled.complexRead node inside
    obtain rfl : own = name := Option.some.inj ((complexType_reads read).1.symm.trans named)
    exact ⟨definition, node, inside, read⟩

theorem Compiled.simple_isSome (compiled : Compiled crates documents schema) (name : String) :
    (schema.simpleTypes.lookup name).isSome ↔ Names crates documents "simpleType" name := by
  rw [Option.isSome_iff_exists]
  simp only [compiled.simple, Names]
  constructor
  · rintro ⟨definition, node, inside, read⟩
    exact ⟨node, inside, (simpleType_reads read).1⟩
  · rintro ⟨node, inside, named⟩
    obtain ⟨own, definition, read⟩ := compiled.simpleRead node inside
    obtain rfl : own = name := Option.some.inj ((simpleType_reads read).1.symm.trans named)
    exact ⟨definition, node, inside, read⟩

theorem mem_references_global {name typeName : String}
    (found : schema.globalElements.lookup name = some typeName) :
    typeName ∈ references schema := by
  simp only [references, Multiset.mem_add, Multiset.mem_map]
  exact .inl (.inl ⟨⟨name, typeName⟩, Finmap.mem_lookup_iff.mp found, rfl⟩)

theorem mem_references_element {name : String} {complex : ComplexType} {group : Group}
    {element : Element} (found : schema.complexTypes.lookup name = some complex)
    (inside : group ∈ ComplexContent.ownGroups complex.content)
    (member : element ∈ group.elements) :
    element.typeName ∈ references schema := by
  simp only [references, Multiset.mem_add, Multiset.mem_bind]
  refine .inl (.inr ⟨⟨name, complex⟩, Finmap.mem_lookup_iff.mp found, ?_⟩)
  have among : element.typeName ∈ (ComplexContent.ownGroups complex.content).flatMap fun group =>
      group.elements.map Element.typeName :=
        List.mem_flatMap.mpr ⟨group, inside, List.mem_map_of_mem member⟩
  cases content : complex.content with
  | groups groups =>
    rw [content] at among
    simpa [ComplexContent.references, ComplexContent.ownGroups] using among
  | extension base extra =>
    rw [content] at among
    simpa [ComplexContent.references, ComplexContent.ownGroups] using Or.inr among

/-- A compiled schema is closed exactly when its documents keep complex and
simple types apart. -/
theorem closed_iff (compiled : compile crates documents = .ok schema) :
    Closed schema ↔ Separated crates documents := by
  have compiled := compiled_of_compile compiled
  constructor
  · intro closed
    refine ⟨fun name complex simple => ?_, fun node inside base restricts => ?_,
      fun node inside base extends_ => ?_⟩
    · have clash := closed.separate name ((compiled.complex_isSome name).mpr complex)
      rw [(compiled.simple_isSome name).mpr simple] at clash
      cases clash
    · obtain ⟨name, definition, read⟩ := compiled.simpleRead node inside
      obtain rfl : definition.base = base :=
        Option.some.inj ((simpleType_reads read).2.symm.trans restricts)
      exact (closed.bases name definition ((compiled.simple ..).mpr ⟨node, inside, read⟩)).imp id
        (compiled.simple_isSome _).mp
    · obtain ⟨name, definition, read⟩ := compiled.complexRead node inside
      obtain ⟨extra, content⟩ := ((complexType_reads read).2 base).mpr extends_
      exact (compiled.complex_isSome _).mp
        (closed.extensions name definition base extra
          ((compiled.complex ..).mpr ⟨node, inside, read⟩) content)
  · intro separated
    have extensions : ∀ name complex base extra, schema.complexTypes.lookup name = some complex →
        complex.content = .extension base extra → (schema.complexTypes.lookup base).isSome := by
      intro name complex base extra found content
      obtain ⟨node, inside, read⟩ := (compiled.complex ..).mp found
      exact (compiled.complex_isSome _).mpr
        (separated.extensions node inside base
          (((complexType_reads read).2 base).mp ⟨extra, content⟩))
    refine ⟨fun name complex => ?_, fun name typeName found => ?_,
      fun name complex found group inside element member => ?_, fun name simple found =>
        ?_, extensions, groups_known extensions, flatten_known extensions⟩
    · have apart := separated.names name ((compiled.complex_isSome name).mp complex)
      rw [← compiled.simple_isSome] at apart
      simpa using apart
    · exact compiled.resolved _ (mem_references_global found)
    · exact compiled.resolved _ (mem_references_element found inside member)
    · obtain ⟨node, inside, read⟩ := (compiled.simple ..).mp found
      exact (separated.restrictions node inside _ (simpleType_reads read).2).imp id
        (compiled.simple_isSome _).mpr

end Compiled

section Samples

/-- `<xs:complexType name="T">` with an extension of some base -/
def extendingType (base : String) (next : Xml.Content) : Xml.Content :=
  .element (xsTag "complexType" [("name", "T")])
    (.element (xsTag "complexContent" []) (.empty (xsTag "extension" [("base", base)]) .nil) []
      .nil) [] next

/-- A complex type that extends a primitive. -/
def extendsPrimitive : Xml.Document := schemaDocument (extendingType "xs:string" .nil)

/-- It compiles, and the first message of the type finds its base unknown. -/
theorem compile_extendsPrimitive : ∃ schema,
    compile (parserOf [extendsPrimitive]) [.ofList extendsPrimitive.render] = .ok schema ∧
      schema.groups "T" = .error (.unknownType "xs:string") ∧ ¬ Closed schema := by
  let read : List (Option Defined) := [some (.complex "T" ⟨false, .extension "xs:string" []⟩)]
  have accepts : Accepts (parserOf [extendsPrimitive]) (.ofList extendsPrimitive.render)
    extendsPrimitive.elementTree :=
    accepts_document (by decide) (by decide) ⟨rfl, rfl, by decide⟩ (parse_head ..)
  have collected : collect (readDefinition bareCrates) (topLevel extendsPrimitive.elementTree) =
    .ok read := by rfl
  have compiled := compile_single accepts collected (by decide) (by decide)
  have unknown : (read.reduceOption.foldl Defined.addTo .new).groups "T" =
    .error (.unknownType "xs:string") := by rfl
  exact ⟨_, compiled, unknown, fun closed => closed.groups "T" "xs:string" rfl unknown⟩

/-- A complex type that extends another. -/
def extendsComplex : Xml.Document :=
  schemaDocument (.empty (xsTag "complexType" [("name", "B")]) (extendingType "B" .nil))

theorem separated_extendsComplex :
    Separated (parserOf [extendsComplex]) [.ofList extendsComplex.render] := by
  have nodes (tag : String) : topNodes (parserOf [extendsComplex])
    [.ofList extendsComplex.render] tag =
      (topLevel extendsComplex.elementTree).filter fun node => node.localName == tag := by
    simp [topNodes, parserOf, Except.toOption]
  have simple : ∀ node, node ∉ topNodes (parserOf [extendsComplex]) [.ofList extendsComplex.render]
      "simpleType" := by
    rw [nodes]
    exact fun node => List.not_mem_nil
  have complex : ∀ node ∈ topNodes (parserOf [extendsComplex]) [.ofList extendsComplex.render]
    "complexType",
      extensionBase node = none ∨ extensionBase node = some "B" := by
    rw [nodes]
    exact List.forall_mem_cons.mpr ⟨.inl rfl,
      List.forall_mem_cons.mpr ⟨.inr rfl, fun _ inside => absurd inside List.not_mem_nil⟩⟩
  refine ⟨fun name _ named => ?_, fun node inside => absurd inside (simple node),
    fun node inside base extends_ => ?_⟩
  · obtain ⟨node, inside, -⟩ := named
    exact simple node inside
  · obtain rfl : "B" = base := by simpa [extends_, eq_comm] using complex node inside
    rw [Names, nodes]
    exact ⟨_, List.mem_cons_self .., rfl⟩

/-- The compiled schema is closed. -/
theorem closed_extendsComplex : ∃ schema,
    compile (parserOf [extendsComplex]) [.ofList extendsComplex.render] = .ok schema ∧
      Closed schema := by
  let read : List (Option Defined) :=
    [some (.complex "B" ⟨false, .groups []⟩), some (.complex "T" ⟨false, .extension "B" []⟩)]
  have accepts : Accepts (parserOf [extendsComplex]) (.ofList extendsComplex.render)
    extendsComplex.elementTree :=
    accepts_document (by decide) (by decide) ⟨rfl, rfl, by decide⟩ (parse_head ..)
  have collected : collect (readDefinition bareCrates) (topLevel extendsComplex.elementTree) =
    .ok read := by rfl
  have compiled := compile_single accepts collected (by decide) (by decide)
  exact ⟨_, compiled, (closed_iff compiled).mpr separated_extendsComplex⟩

end Samples

end OaGateway.Uci.Xsd
