import OaGateway.Uci.Integers
import OaGateway.Uci.XmlTrip

/-! XML carried to JSON: which documents come back as the trees they were read
into. -/
namespace OaGateway.Uci

open Lib Lib.Json

section Leaves
variable {crates : Crates}

/-- A whole number beyond 64 bits that a double can still be read from. -/
def IsLargeInteger (text : String) : Prop :=
  isNumeral text.toList = true ∧
  ¬ (-2 ^ 63 ≤ numeralValue text.toList ∧ numeralValue text.toList < 2 ^ 64) ∧
    ((F64.parse text).bind Number.fromF64).isSome = true

/-- A type of at most 64 bits takes nothing its parser does not read. -/
theorem parseI64_of_fits {low high : Int} (lower : -2 ^ 63 ≤ low) (upper : high ≤ 2 ^ 63 - 1)
    (fits : Primitive.refuses (.integer low high) text = none) :
    ∃ value, parseI64 text = some value := by
  obtain ⟨numeral, ⟨-, above, below⟩ | ⟨rfl, rfl⟩⟩ := Primitive.refuses_eq_none.mp fits
  · exact ⟨_, parseInteger_eq_some.mpr ⟨numeral, fun _ => by decide, rfl, by omega, by omega⟩⟩
  · exact absurd lower (by decide)

/-- A whole number of 64 bits is read as a double too. -/
theorem fromF64_numeral {text : String} (numeral : isNumeral text.toList = true)
    (lower : -2 ^ 63 ≤ numeralValue text.toList) (upper : numeralValue text.toList < 2 ^ 64) :
    ((F64.parse text).bind Number.fromF64).isSome = true := by
  have small : Nat.ofDigitChars 10 (unsigned text.toList) 0 < 2 ^ 64 := by
    rw [numeralValue] at lower upper
    by_cases negative : isNegative text.toList = true
    · rw [if_pos negative] at lower
      omega
    · rw [if_neg negative] at upper
      omega
  rw [F64.parse_numeral numeral, Option.bind_some, Number.fromF64, F64.isFinite,
    F64.magnitude_ofMagnitude _ (F64.nearest_lt _ _)]
  simp [F64.nearest_lt_infinity small]

/-- A clean leaf comes back from JSON as it is, unless it is an integer beyond
64 bits: such a text is carried as a string, and read from it as a double. -/
theorem kept_parseText_iff {primitive text : String}
    (fits : Primitive.refuses (Primitive.kind primitive)
      ((parseText primitive text).asText crates) = none) :
    Kept primitive (parseText primitive text) ↔
      ¬ (primitive = "xs:integer" ∧ IsLargeInteger text) := by
  cases class_of primitive with
  | boolean named known =>
    subst named
    rw [parseText, known]
    by_cases yes : text = "true" ∨ text = "1"
    · simp [yes, Kept]
    · by_cases no : text = "false" ∨ text = "0" <;>
        simp [yes, no, Kept, parseNumericString_of_plain
          (show numericTypes.contains "xs:boolean" = false from rfl)]
  | integer low high known other =>
    rw [parseText, known] at fits ⊢
    dsimp only at fits ⊢
    cases signed : parseI64 text with
    | some value =>
      obtain ⟨-, -, same, lower, upper⟩ := parseInteger_eq_some.mp signed
      refine iff_of_true trivial ?_
      rintro ⟨-, -, outside, -⟩
      exact outside (by omega)
    | none =>
      cases unsigned : parseU64 text with
      | some value =>
        obtain ⟨-, -, same, lower, upper⟩ := parseInteger_eq_some.mp unsigned
        refine iff_of_true trivial ?_
        rintro ⟨-, -, outside, -⟩
        exact outside (by omega)
      | none =>
        simp only [signed, unsigned, Simple.asText] at fits
        simp only [Kept, other, false_and, not_false_eq_true, true_and]
        by_cases whole : primitive = "xs:integer"
        · subst whole
          have outside : ¬ (-2 ^ 63 ≤ numeralValue text.toList ∧
              numeralValue text.toList < 2 ^ 64) := by
            rintro ⟨lower, upper⟩
            simpa [signed, unsigned] using parse_of_small
              (Primitive.refuses_eq_none.mp fits).1 lower upper
          have read : parseNumericString "xs:integer" text =
              ((F64.parse text).bind Number.fromF64).map .number := by
            rw [parseNumericString, signed]
            rfl
          rw [read, IsLargeInteger, Option.map_eq_none_iff]
          simp only [(Primitive.refuses_eq_none.mp fits).1, outside, not_false_eq_true, true_and,
            Option.isSome_iff_ne_none, ne_eq, Decidable.not_not]
        · refine iff_of_true ?_ fun large => whole large.1
          by_cases numeric : numericTypes.contains primitive = true
          · exfalso
            simp only [numericTypes, List.contains_iff_mem, List.mem_cons,
              List.not_mem_nil, or_false] at numeric
            have few : -2 ^ 63 ≤ low ∧ high ≤ 2 ^ 63 - 1 := by
              rcases numeric with rfl | rfl | rfl | rfl | rfl | rfl | rfl | rfl <;> cases known <;>
                first | exact absurd rfl whole | decide
            obtain ⟨value, read⟩ := parseI64_of_fits few.1 few.2 fits
            simp [signed] at read
          · exact parseNumericString_of_plain (by simpa using numeric) text
  | number exponent special known other numeric =>
    have different : primitive ≠ "xs:integer" := by
      rintro rfl
      cases known
    refine iff_of_true ?_ fun large => different large.1
    rw [parseText, known]
    dsimp only
    cases read : (F64.parse text).bind Number.fromF64 with
    | some value => trivial
    | none =>
      simp only [Kept, other, false_and, not_false_eq_true, true_and, parseNumericString,
        numeric, ↓reduceIte]
      cases signed : parseI64 text with
      | none => simp [read]
      | some value =>
        obtain ⟨numeral, -, same, lower, upper⟩ := parseInteger_eq_some.mp signed
        have finite := fromF64_numeral numeral (by omega) (by omega)
        simp [read] at finite
  | text carried other plain whole decimal =>
    rw [carried, Kept, parseNumericString_of_plain plain]
    have different : primitive ≠ "xs:integer" := by
      rintro rfl
      exact absurd plain (by decide)
    simp [other, different]

end Leaves

section Trees
variable {crates : Crates} {schema : Schema}

theorem Field.sorted_sorted {field : Field}
    (each : ∀ node ∈ field.nodes, node.sorted.sorted = node.sorted) :
    field.sorted.sorted = field.sorted := by
  refine Field.sorted_eq_self fun node inside => ?_
  cases field with
  | one only =>
    cases List.mem_singleton.mp inside
    exact each only (by simp [Field.nodes])
  | many nodes =>
    rw [Field.sorted, Field.nodes, sortedNodes_eq] at inside
    obtain ⟨source, listed, rfl⟩ := List.mem_map.mp inside
    exact each source listed

/-- Fields once sorted stay as they are. -/
theorem sorted_sorted (writable : Writable schema levels node declared) :
    node.sorted.sorted = node.sorted := by
  induction levels generalizing node declared with
  | zero => cases writable
  | succ levels ih =>
    cases node with
    | simple => rfl
    | complex typeName fields =>
      obtain ⟨-, decls, -, below⟩ := writable
      rw [sorted_complex, sorted_complex, insertAll_mapValues,
        insertAll_of_increasing (increasing_insertAll fields)]
      simp only [mapValues, List.map_map]
      congr 1
      refine List.map_congr_left fun field member => ?_
      simp only [Function.comp_apply, Prod.mk.injEq, true_and]
      exact Field.sorted_sorted fun node inside =>
        ih (below field (mem_insertAll member) node inside)

/-- A clean tree read from XML can be written as JSON: its names are its own,
and no XML name is the one JSON keeps for a type. -/
theorem writable_of_clean (read : readElement schema levels xml typeName path = .ok node)
    (labels : Everywhere (fun _ => True) (fun name => Xml.isNcName name.toList = true)
      (fun _ => True) node)
    (clean : Clean crates schema levels node declared) : Writable schema levels node declared := by
  induction levels generalizing xml typeName path node declared with
  | zero => cases read
  | succ levels ih =>
    obtain ⟨leaf, rfl⟩ | ⟨complex, decls, fields, flat, fromFields, rfl⟩ := readElement_inv read
    · trivial
    · obtain ⟨-, groups, usable, quiet, below⟩ := clean
      have judged := flatten_of_groups usable
      cases labels with
      | complex _ named labels =>
        refine ⟨⟨?_, ?_⟩, groups.flatMap (·.elements), ?_, fun field member node inside => ?_⟩
        · exact fromFields.nodup
        · intro listed
          obtain ⟨field, member, same⟩ := List.mem_map.mp listed
          obtain ⟨node, inside⟩ := List.exists_mem_of_ne_nil _ (fromFields.shapes field member).1
          have known := named _ (mem_expanded member inside)
          rw [same] at known
          exact absurd known (by decide)
        · rw [writerDecls, isComplex_of_flatten judged]
          exact judged
        · have listed := mem_expanded member inside
          obtain ⟨child, -, -, place, here⟩ := fromFields.exists_child listed
          exact ih here (labels _ listed) (below _ listed)

/-- A field has as many nodes as there are child elements of its name. -/
theorem ReadFields.length_nodes {read : Xml.Node → String → String → Except UciError Node}
    (fromFields : ReadFields read decls xml fields) {field : String × Field}
    (member : field ∈ fields) :
    field.2.nodes.length = (keyed Xml.Node.localName xml.elements field.1).length := by
  have side := (forall₂_keyed fromFields.each (fun _ _ here => here.1) field.1).length_eq
  have moved : (keyed Xml.Node.localName (fieldElements xml) field.1).length =
      (keyed Xml.Node.localName xml.elements field.1).length :=
    ((perm_fieldElements xml).filter _).length_eq
  have found := @keyed_spread _ _ _ _ Field.nodes fields fromFields.nodup field member
  rw [← moved, side, show expanded fields = spread Field.nodes fields from rfl, found,
    List.length_map]

/-- The JSON reader, which takes an element as `declared`, finds there what the
XML reader did, which took it as `typeName`. The two differ below a root that
names a type. -/
def ComesBack (schema : Schema) : Nat → Xml.Node → String → String → Prop
  | 0, _, _, _ => True
  | levels + 1, xml, typeName, declared =>
    if schema.isLeaf typeName then
      schema.isLeaf declared = true ∧
        Kept (schema.primitive declared) (parseText (schema.primitive typeName) (leafText xml))
    else
      let named := overriding (actualType schema xml typeName) typeName
      schema.isLeaf declared ≠ true ∧ named ≠ some declared ∧ ∀ decls judged,
        schema.flatten (actualType schema xml typeName) = .ok decls →
        schema.flatten (named.getD declared) = .ok judged → ∀ child ∈ xml.elements,
          isArray judged child.localName = (isArray decls child.localName ||
              decide (1 < (keyed Xml.Node.localName xml.elements child.localName).length)) ∧
            ComesBack schema levels child (childType decls child.localName)
              (childType judged child.localName)

theorem settled_iff_comesBack (read : readElement schema levels xml typeName path = .ok node)
    (clean : Clean crates schema levels node declared) :
    Settled schema levels node declared ↔ ComesBack schema levels xml typeName declared := by
  induction levels generalizing xml typeName path node declared with
  | zero => cases read
  | succ levels ih =>
    rw [ComesBack]
    obtain ⟨leaf, rfl⟩ | ⟨complex, decls, fields, flat, fromFields, rfl⟩ := readElement_inv read
    · rw [if_pos leaf, Settled]
    · rw [if_neg complex, Settled]
      obtain ⟨-, groups, usable, -, below⟩ := clean
      have judged := flatten_of_groups usable
      have shape : ∀ field ∈ fields, field.2.isMany = (isArray decls field.1 ||
          decide (1 < (keyed Xml.Node.localName xml.elements field.1).length)) := by
        intro field member
        rw [(fromFields.shapes field member).2, fromFields.length_nodes member]
      have inner {child : Xml.Node} {pair : String × Node} (listed : pair ∈ expanded fields)
          (here : ReadAs (readElement schema levels) decls child pair) :
          Settled schema levels pair.2 (childType (groups.flatMap (·.elements)) pair.1) ↔
            ComesBack schema levels child (childType decls pair.1)
              (childType (groups.flatMap (·.elements)) pair.1) := by
        obtain ⟨-, place, inside⟩ := here
        exact ih inside (below pair listed)
      refine and_congr_right fun _ => and_congr_right fun _ => ?_
      constructor
      · rintro ⟨others, same, each⟩ seconds thirds also again child member
        cases Except.ok.inj (flat.symm.trans also)
        cases Except.ok.inj (judged.symm.trans same)
        cases Except.ok.inj (judged.symm.trans again)
        obtain ⟨pair, listed, here⟩ := fromFields.exists_pair member
        obtain ⟨field, held, written⟩ := List.mem_flatMap.mp listed
        obtain ⟨node, inside, rfl⟩ := List.mem_map.mp written
        rw [here.1]
        exact ⟨(each field held).1.symm.trans (shape field held),
          (inner listed here).mp ((each field held).2 node inside)⟩
      · intro back
        refine ⟨_, judged, fun field member => ?_⟩
        have each : ∀ node ∈ field.2.nodes,
            isArray (groups.flatMap (·.elements)) field.1 = (isArray decls field.1 ||
                decide (1 < (keyed Xml.Node.localName xml.elements field.1).length)) ∧
              Settled schema levels node (childType (groups.flatMap (·.elements)) field.1) := by
          intro node inside
          have listed := mem_expanded member inside
          obtain ⟨child, found, here⟩ := fromFields.exists_child listed
          have alike := back decls _ flat judged child found
          rw [here.1] at alike
          exact ⟨alike.1, (inner listed here).mpr alike.2⟩
        obtain ⟨first, inside⟩ := List.exists_mem_of_ne_nil _ (fromFields.shapes field member).1
        exact ⟨(shape field member).trans (each first inside).1.symm, fun node inside =>
          (each node inside).2⟩

/-- No element that is read as a whole number of any size has one beyond 64 bits
for its text. -/
def NoLargeIntegers (schema : Schema) : Nat → Xml.Node → String → Prop
  | 0, _, _ => True
  | levels + 1, xml, typeName =>
    if schema.isLeaf typeName then
      ¬ (schema.primitive typeName = "xs:integer" ∧ IsLargeInteger (leafText xml))
    else ∀ decls, schema.flatten (actualType schema xml typeName) = .ok decls →
      ∀ child ∈ xml.elements, NoLargeIntegers schema levels child (childType decls child.localName)

/-- Where both readers take an element as the same type, only large integers do
not come back: a clean node has no more nodes in a field than JSON carries. -/
theorem comesBack_self_iff (read : readElement schema levels xml declared path = .ok node)
    (clean : Clean crates schema levels node declared) :
    ComesBack schema levels xml declared declared ↔ NoLargeIntegers schema levels xml declared := by
  induction levels generalizing xml declared path node with
  | zero => cases read
  | succ levels ih =>
    rw [ComesBack, NoLargeIntegers]
    obtain ⟨leaf, rfl⟩ | ⟨complex, decls, fields, flat, fromFields, rfl⟩ := readElement_inv read
    · rw [if_pos leaf, if_pos leaf, and_iff_right leaf]
      rw [Clean, valueFindings_eq] at clean
      split at clean
      · cases clean
      · rename_i fits
        exact kept_parseText_iff fits
    · rw [if_neg complex, if_neg complex]
      obtain ⟨-, groups, usable, quiet, below⟩ := clean
      rw [getD_overriding] at usable
      cases Except.ok.inj (flat.symm.trans (flatten_of_groups usable))
      have single : ∀ child ∈ xml.elements, isArray (groups.flatMap (·.elements)) child.localName =
          (isArray (groups.flatMap (·.elements)) child.localName ||
            decide (1 < (keyed Xml.Node.localName xml.elements child.localName).length)) := by
        intro child member
        have named : child.localName ∈ fields.map Prod.fst := by
          rw [fromFields.names]
          exact mem_keysOf.mpr ⟨child, member, rfl⟩
        obtain ⟨field, listed, same⟩ := List.mem_map.mp named
        rw [← same]
        cases array : isArray (groups.flatMap (·.elements)) field.1 with
        | true => rfl
        | false =>
          have few := length_le_one_of_clean quiet fromFields.nodup listed array
          rw [fromFields.length_nodes listed] at few
          simpa using few
      have inner : ∀ child ∈ xml.elements,
          (ComesBack schema levels child (childType (groups.flatMap (·.elements)) child.localName)
              (childType (groups.flatMap (·.elements)) child.localName) ↔
            NoLargeIntegers schema levels child
                (childType (groups.flatMap (·.elements)) child.localName)) := by
        intro child member
        obtain ⟨pair, listed, named, place, here⟩ := fromFields.exists_pair member
        rw [named]
        exact ih here (below pair listed)
      simp only [getD_overriding]
      constructor
      · rintro ⟨-, -, each⟩ others same child member
        cases Except.ok.inj (flat.symm.trans same)
        exact (inner child member).mp (each _ _ flat flat child member).2
      · intro each
        refine ⟨complex, overriding_ne _ _, fun others judged same also child member => ?_⟩
        cases Except.ok.inj (flat.symm.trans same)
        cases Except.ok.inj (flat.symm.trans also)
        exact ⟨single child member, (inner child member).mpr (each _ flat child member)⟩

/-- The message is read from a text again, its fields in any order. -/
def ReadAgain (crates : Crates) (schema : Schema) (text : String) (message : Message) : Prop :=
  ∃ back, fromJson crates schema text = .ok back ∧ back.name = message.name ∧
    back.body.sorted = message.body.sorted

/-- A clean message read from XML is written as JSON, and comes back from it
exactly when the JSON reader finds in each element what the XML reader did.
Without a type on the root that fails for integers beyond 64 bits alone. -/
theorem fromJson_toJson_iff {limit : Nat} {document : Xml.Document} (formed : document.Namespaced)
    (parsed : crates.xmlParse (.ofList document.render) = .ok document.tree)
    (read : fromXml crates schema (.ofList document.render) = .ok message)
    (clean : validate crates schema message = [])
    (reparsed : message.json.within limit = true →
      crates.jsonParse (crates.jsonPrint message.json) = .ok message.json) :
    toJson crates schema message = .ok (crates.jsonPrint message.json) ∧
      (message.json.within limit = true →
        (ReadAgain crates schema (crates.jsonPrint message.json) message ↔
          ComesBack schema (maxDepth + 1) document.tree
            ((xsiType document.tree).getD (schema.declaredType message))
            (schema.declaredType message)) ∧
        (xsiType document.tree = none →
          (ReadAgain crates schema (crates.jsonPrint message.json) message ↔
            NoLargeIntegers schema (maxDepth + 1) document.tree
                (schema.declaredType message)))) := by
  obtain ⟨-, -, global, here⟩ := fromXml_inv parsed read
  obtain ⟨elem, -, tree, -, -, qualified⟩ := formed.exists_root
  have quiet := validate_eq_nil_iff.mp clean
  have labels := ncNames_of_readElement (tree ▸ here) qualified
  have writable := writable_of_clean here labels quiet
  refine ⟨toJson_eq writable, fun within => ?_⟩
  have back := @fromJson_eq _ _ _ message.body.json message (reparsed within) global
  have settled : ReadAgain crates schema (crates.jsonPrint message.json) message ↔
      Settled schema (maxDepth + 1) message.body (schema.declaredType message) := by
    rw [ReadAgain, back]
    constructor
    · rintro ⟨other, ran, -, same⟩
      obtain ⟨body, again, rfl⟩ := map_eq_ok.mp ran
      exact settled_of_readNode writable again same
    · intro settled
      rw [readNode_json writable settled]
      exact ⟨_, rfl, rfl, sorted_sorted writable⟩
  refine ⟨settled.trans (settled_iff_comesBack here quiet), fun untyped => ?_⟩
  have alike := settled_iff_comesBack here quiet
  rw [untyped, Option.getD_none] at here alike
  exact (settled.trans alike).trans (comesBack_self_iff here quiet)

end Trees

section Samples

/-- A count that comes as XML and goes on as JSON. -/
def carriedCrates : Crates :=
  { documentCrates [countDocument .nil] with
    jsonParse := quotedCrates.jsonParse
    jsonPrint := quotedCrates.jsonPrint }

theorem fromJson_toJson_seven :
    ReadAgain carriedCrates reportSchema "\x7b\"Report\":\x7b\"Count\":7\x7d\x7d" sevenReport := by
  have read : fromXml carriedCrates reportSchema (.ofList (countDocument .nil).render) =
    .ok sevenReport := rfl
  have trip := @fromJson_toJson_iff carriedCrates reportSchema sevenReport 128 (countDocument .nil)
    ⟨by decide, by decide⟩ rfl read (by decide +kernel) fun _ => rfl
  refine ((trip.2 rfl).2 rfl).mpr ?_
  intro decls flat child member
  cases Except.ok.inj flat
  cases List.mem_singleton.mp member
  rintro ⟨whole, -⟩
  exact absurd whole (by decide)

/-- A report with a whole number of any size. -/
def largeSchema : Schema where
  globalElements := Finmap.insert "Report" "ReportType" ∅
  complexTypes := Finmap.insert "ReportType"
    ⟨false, .groups [⟨.sequence, [⟨"Count", "xs:integer", 1, .bounded 1⟩]⟩]⟩ ∅
  simpleTypes := ∅

/-- `<Report><Count>99999999999999999999</Count></Report>` -/
def largeDocument : Xml.Document where
  declaration := none
  prolog := .nil
  root := .element ⟨"Report".toList, [], []⟩
    (.element ⟨"Count".toList, [], []⟩ (.text (List.replicate 20 (.char '9')) .nil) [] .nil) [] .nil
  epilog := .nil

def largeReport : Message :=
  ⟨"Report", .complex none [("Count", .one (.simple (.string "99999999999999999999")))]⟩

/-- The same as JSON has it: `10 ^ 20`, a double. -/
def roundedReport : Message :=
  ⟨"Report", .complex none [("Count", .one (.simple (.number (.float ⟨0x4415AF1D78B58C40⟩))))]⟩

def largeText : String := reportText "Count" "99999999999999999999"

def largeCrates : Crates :=
  { documentCrates [largeDocument] with
    jsonParse := (reportCrates "Count" "99999999999999999999").jsonParse
    jsonPrint := fun _ => largeText }

theorem fromJson_largeText : fromJson largeCrates largeSchema largeText = .ok roundedReport := by
  have number : parseNumericString "xs:integer" "99999999999999999999" =
      some (.number (.float ⟨0x4415AF1D78B58C40⟩)) := by decide +kernel
  have leaf (path : String) : readNode largeCrates largeSchema maxDepth
    (.string "99999999999999999999")
      "xs:integer" path = .ok (.simple (.number (.float ⟨0x4415AF1D78B58C40⟩))) := by
    rw [show maxDepth = 95 + 1 from rfl, readNode_leaf (by decide)]
    simp [readSimple, show largeSchema.primitive "xs:integer" = "xs:integer" from rfl,
      number, Except.map]
  have fields : collect (readMember (readNode largeCrates largeSchema maxDepth)
      [⟨"Count", "xs:integer", 1, .bounded 1⟩] "Report")
        (fieldMembers [("Count", .string "99999999999999999999")]) =
        .ok [("Count", .one (.simple (.number (.float ⟨0x4415AF1D78B58C40⟩))))] := by
    simp [fieldMembers, collect, readMember, isArray, MaxOccurs.isArray, childType,
      leaf, Except.map]
  have body : readNode largeCrates largeSchema (maxDepth + 1)
    (.object [("Count", .string "99999999999999999999")])
      "ReportType" "Report" = .ok roundedReport.body := by
    have flat : largeSchema.flatten
      (namedType [("Count", .string "99999999999999999999")] "ReportType") =
        .ok [⟨"Count", "xs:integer", 1, .bounded 1⟩] := rfl
    rw [readNode_object (by decide) rfl flat, fields]
    rfl
  have declared : largeSchema.declaredType roundedReport = "ReportType" := rfl
  rw [@fromJson_eq _ _ _ (.object [("Count", .string "99999999999999999999")]) roundedReport rfl
    rfl, declared, show roundedReport.name = "Report" from rfl, body]
  rfl

/-- A count beyond 64 bits is carried as a string and read as a double. -/
theorem largeReport_rounded :
    largeDocument.Namespaced ∧
    largeCrates.xmlParse (.ofList largeDocument.render) = .ok largeDocument.tree ∧
    fromXml largeCrates largeSchema (.ofList largeDocument.render) = .ok largeReport ∧
    validate largeCrates largeSchema largeReport = [] ∧
    toJson largeCrates largeSchema largeReport = .ok largeText ∧
    largeReport.json.within 128 = true ∧
    largeCrates.jsonParse largeText = .ok largeReport.json ∧
    fromJson largeCrates largeSchema largeText = .ok roundedReport ∧
    ¬ ReadAgain largeCrates largeSchema largeText largeReport := by
  refine ⟨⟨by decide, by decide⟩, rfl,
    rfl, by decide +kernel, rfl, rfl, rfl, fromJson_largeText, ?_⟩
  rintro ⟨other, read, -, same⟩
  rw [fromJson_largeText] at read
  cases read
  cases same

end Samples

end OaGateway.Uci
