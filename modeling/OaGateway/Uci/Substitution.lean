import Mathlib.Logic.Relation
import OaGateway.Uci.Accounted

/-! Whether the types a clean message names may stand where they do. -/
namespace OaGateway.Uci

open Lib

section Types

/-- One complex type extends another directly. -/
def Schema.Extends (schema : Schema) (derived base : String) : Prop :=
  ∃ abstract extra, schema.complexTypes.lookup derived = some ⟨abstract, .extension base extra⟩

/-- One type is the other, or extends it through a chain of bases. -/
def Schema.Derives (schema : Schema) : String → String →
    Prop := Relation.ReflTransGen schema.Extends

/-- A complex type that is not abstract. -/
def Schema.Concrete (schema : Schema) (typeName : String) : Prop :=
  ∃ content, schema.complexTypes.lookup typeName = some ⟨false, content⟩

theorem concrete_of_abstractFindings {schema : Schema} {groups : List Group}
    (quiet : abstractFindings schema none typeName = [])
    (usable : schema.groups typeName = .ok groups) :
    schema.Concrete typeName := by
  have known := isComplex_of_flatten (flatten_of_groups usable)
  obtain ⟨⟨abstract, content⟩, found⟩ := Option.isSome_iff_exists.mp known
  cases abstract with
  | false => exact ⟨content, found⟩
  | true => simp [abstractFindings, found] at quiet

end Types

section Positions
variable {schema : Schema}

/-- Something holds at every position of a node: of the type each node is
declared as, and of the node. -/
inductive AtEvery (schema : Schema) (holds : String → Node → Prop) : String → Node → Prop where
  | simple (here : holds declared (.simple value)) : AtEvery schema holds declared (.simple value)
  | complex (here : holds declared (.complex typeName fields))
      (below : ∀ decls, schema.flatten (typeName.getD declared) = .ok decls →
        ∀ pair ∈ expanded fields, AtEvery schema holds (childType decls pair.1) pair.2) :
      AtEvery schema holds declared (.complex typeName fields)

namespace AtEvery
variable {first second : String → Node → Prop}

theorem imp (weaker : ∀ declared node, first declared node → second declared node)
    (every : AtEvery schema first declared node) : AtEvery schema second declared node := by
  induction every with
  | simple here => exact .simple (weaker _ _ here)
  | complex here _ ih => exact .complex (weaker _ _ here) ih

theorem and (every : AtEvery schema first declared node)
    (also : AtEvery schema second declared node) :
    AtEvery schema (fun declared node => first declared node ∧ second declared node)
      declared node := by
  induction every with
  | simple here =>
    cases also with
    | simple there => exact .simple ⟨here, there⟩
  | complex here _ ih =>
    cases also with
    | complex there below =>
      exact .complex ⟨here, there⟩ fun decls flat pair member =>
        ih decls flat pair member (below decls flat pair member)

/-- Under what holds everywhere, two things that are the same hold alike. -/
theorem congr {given : String → Node → Prop} (every : AtEvery schema given declared node)
    (same : ∀ declared node, given declared node → (first declared node ↔ second declared node)) :
    AtEvery schema first declared node ↔ AtEvery schema second declared node :=
  ⟨fun holds => (every.and holds).imp fun _ _ known => (same _ _ known.1).mp known.2,
    fun holds => (every.and holds).imp fun _ _ known => (same _ _ known.1).mpr known.2⟩

theorem and_iff :
    AtEvery schema (fun declared node => first declared node ∧ second declared node) declared node ↔
    AtEvery schema first declared node ∧ AtEvery schema second declared node :=
  ⟨fun every => ⟨every.imp fun _ _ => And.left, every.imp fun _ _ => And.right⟩,
    fun both => both.1.and both.2⟩

end AtEvery

/-- A complex node at a complex position is of a concrete type that derives from
the declared one; a leaf stands at no complex position, and a complex node at
no simple one. -/
def SoundAt (schema : Schema) (declared : String) : Node → Prop
  | .simple _ => schema.isLeaf declared = true
  | .complex typeName _ => schema.isSimple declared ≠ true ∧
    (schema.isLeaf declared ≠ true →
      schema.Concrete (typeName.getD declared) ∧ schema.Derives (typeName.getD declared) declared)

/-- The node is a leaf or not as its declared type asks. -/
def OfKind (schema : Schema) (declared : String) : Node → Prop
  | .simple _ => schema.isLeaf declared = true
  | .complex _ _ => schema.isSimple declared ≠ true

/-- A type that is named at a complex position is concrete and derives from the
declared one. -/
def NamesDerived (schema : Schema) (declared : String) : Node → Prop
  | .simple _ => True
  | .complex typeName _ => ∀ named, typeName = some named → schema.isLeaf declared ≠ true →
    schema.Concrete named ∧ schema.Derives named declared

/-- Nothing is wrong with the node itself. -/
def CleanAt (schema : Schema) (declared : String) : Node → Prop
  | .simple _ => True
  | .complex typeName _ => abstractFindings schema typeName (typeName.getD declared) = [] ∧
    ∃ groups, schema.groups (typeName.getD declared) = .ok groups

theorem cleanAt_of_clean {crates : Crates} (clean : Clean crates schema levels node declared) :
    AtEvery schema (CleanAt schema) declared node := by
  induction levels generalizing node declared with
  | zero => cases clean
  | succ levels ih =>
    cases node with
    | simple value => exact .simple trivial
    | complex typeName fields =>
      obtain ⟨quiet, groups, usable, -, below⟩ := clean
      refine .complex ⟨quiet, groups, usable⟩ fun decls flat pair member => ?_
      cases Except.ok.inj ((flatten_of_groups usable).symm.trans flat)
      exact ih (below pair member)

/-- On a clean node only its kind and the type it names are left open. -/
theorem soundAt_iff (clean : CleanAt schema declared node) :
    SoundAt schema declared node ↔ OfKind schema declared node ∧
      NamesDerived schema declared node := by
  cases node with
  | simple value => exact ⟨fun sound => ⟨sound, trivial⟩, And.left⟩
  | complex typeName fields =>
    refine and_congr_right fun _ => ?_
    cases typeName with
    | some named => simp [NamesDerived]
    | none =>
      obtain ⟨quiet, groups, usable⟩ := clean
      exact ⟨fun _ named same => absurd same (by simp), fun _ _ =>
        ⟨concrete_of_abstractFindings quiet usable, .refl⟩⟩

end Positions

section Origins
variable {crates : Crates} {schema : Schema}

/-- What the JSON reader makes of a value is of the kind it is declared as, everywhere. -/
theorem ofKind_of_readNode (read : readNode crates schema levels value declared path = .ok node) :
    AtEvery schema (OfKind schema) declared node := by
  induction levels generalizing value declared path node with
  | zero => cases read
  | succ levels ih =>
    obtain ⟨leaf, simple, scalar, rfl⟩ | ⟨complex, members, decls, fields, rfl, known, flat,
      collected, rfl⟩ :=
      readNode_inv read
    · exact .simple leaf
    · refine .complex (fun simple => complex (by simp [Schema.isLeaf, simple])) fun others same =>
        ?_
      rw [getD_overriding] at same
      cases Except.ok.inj (flat.symm.trans same)
      refine forall_expanded.mpr fun field member node inside => ?_
      obtain ⟨source, -, ran⟩ := of_mem_collect collected member
      obtain ⟨item, -, place, here⟩ := exists_of_readMember ran inside
      rw [(readMember_inv ran).1]
      exact ih here

/-- Every element is read as a type of the kind it is declared as. -/
def KindsAgree (schema : Schema) : Nat → Xml.Node → String → String → Prop
  | 0, _, _, _ => True
  | levels + 1, xml, typeName, declared =>
    if schema.isLeaf typeName then schema.isLeaf declared = true
    else schema.isSimple declared ≠ true ∧ ∀ decls judged,
      schema.flatten (actualType schema xml typeName) = .ok decls →
      schema.flatten ((overriding (actualType schema xml typeName) typeName).getD declared)
        = .ok judged →
      ∀ child ∈ xml.elements,
        KindsAgree schema levels child (childType decls child.localName)
          (childType judged child.localName)

theorem kindsAgree_self (levels : Nat) (xml : Xml.Node) (declared : String) :
    KindsAgree schema levels xml declared declared := by
  induction levels generalizing xml declared with
  | zero => trivial
  | succ levels ih =>
    rw [KindsAgree]
    split
    · assumption
    · rename_i complex
      refine ⟨fun simple => complex (by simp [Schema.isLeaf, simple]),
        fun decls judged flat same child _ => ?_⟩
      rw [getD_overriding] at same
      cases Except.ok.inj (flat.symm.trans same)
      exact ih _ _

theorem ofKind_iff_kindsAgree (read : readElement schema levels xml typeName path = .ok node) :
    AtEvery schema (OfKind schema) declared node ↔
      KindsAgree schema levels xml typeName declared := by
  induction levels generalizing xml typeName path node declared with
  | zero => cases read
  | succ levels ih =>
    rw [KindsAgree]
    obtain ⟨leaf, rfl⟩ | ⟨complex, decls, fields, flat, fromFields, rfl⟩ := readElement_inv read
    · rw [if_pos leaf]
      refine ⟨fun every => ?_, fun here => .simple here⟩
      cases every with
      | simple here => exact here
    · rw [if_neg complex]
      have inner {child : Xml.Node} {pair : String × Node} (judged : List Element)
          (here : ReadAs (readElement schema levels) decls child pair) :
          AtEvery schema (OfKind schema) (childType judged pair.1) pair.2 ↔
            KindsAgree schema levels child (childType decls child.localName)
                (childType judged child.localName) := by
        obtain ⟨named, place, below⟩ := here
        rw [named]
        exact ih below
      constructor
      · intro every
        cases every with
        | complex kind below =>
          refine ⟨kind, fun others judged same other child member => ?_⟩
          cases Except.ok.inj (flat.symm.trans same)
          obtain ⟨pair, listed, here⟩ := fromFields.exists_pair member
          exact (inner judged here).mp (below judged other pair listed)
      · rintro ⟨kind, agree⟩
        refine .complex kind fun judged other pair member => ?_
        obtain ⟨child, listed, here⟩ := fromFields.exists_child member
        exact (inner judged here).mpr (agree decls judged flat other child listed)

/-- At every position the node is of the kind of its declared type, and of a
concrete type that derives from it. -/
def Sound (schema : Schema) (message : Message) : Prop :=
  AtEvery schema (SoundAt schema) (schema.declaredType message) message.body

/-- Every type the message names is concrete and derives from the declared one. -/
def NamesSound (schema : Schema) (message : Message) : Prop :=
  AtEvery schema (NamesDerived schema) (schema.declaredType message) message.body

/-- A clean message is soundly typed when the types it names derive from those
declared: the validator asks that of none of them. A type named on the root of
an XML document replaces the declared one for reading alone, so there the
elements must also be read as the kind of type they are declared as. -/
theorem sound_iff_namesSound (clean : validate crates schema message = []) :
    (∀ text value, crates.jsonParse text = .ok value → fromJson crates schema text = .ok message →
      (Sound schema message ↔ NamesSound schema message)) ∧
    ∀ text root, crates.xmlParse text = .ok root → fromXml crates schema text = .ok message →
      (Sound schema message ↔ NamesSound schema message ∧
        KindsAgree schema (maxDepth + 1) root ((xsiType root).getD (schema.declaredType message))
          (schema.declaredType message)) ∧
      (xsiType root = none → (Sound schema message ↔ NamesSound schema message)) := by
  have split : Sound schema message ↔
      AtEvery schema (OfKind schema) (schema.declaredType message) message.body ∧
          NamesSound schema message := by
    rw [NamesSound, ← AtEvery.and_iff]
    exact (cleanAt_of_clean (validate_eq_nil_iff.mp clean)).congr fun _ _ here => soundAt_iff here
  constructor
  · intro text value parsed read
    obtain ⟨body, -, -, here⟩ := fromJson_inv parsed read
    rw [split, and_iff_right (ofKind_of_readNode here)]
  · intro text root parsed read
    obtain ⟨-, -, -, here⟩ := fromXml_inv parsed read
    have kinds := @ofKind_iff_kindsAgree _ _ _ _ _ _ (schema.declaredType message) here
    refine ⟨by rw [split, kinds, and_comm], fun untyped => ?_⟩
    rw [untyped, Option.getD_none] at kinds
    rw [split, kinds, and_iff_right (kindsAgree_self _ _ _)]

end Origins

section Samples
open Lib.Json

/-- A type, two that extend it, one of them abstract, and one that has nothing to do with it. -/
def baseSchema : Schema where
  globalElements := Finmap.insert "Report" "BaseType" ∅
  complexTypes := Finmap.insert "BaseType" ⟨false, .groups []⟩
    (Finmap.insert "WideType" ⟨false, .extension "BaseType" []⟩
      (Finmap.insert "OpenType" ⟨true, .extension "BaseType" []⟩
        (Finmap.insert "OtherType" ⟨false, .groups []⟩ ∅)))
  simpleTypes := ∅

def typedText (typeName : String) : String :=
  "\x7b\"Report\":\x7b\"$type\":\"" ++ typeName ++ "\"\x7d\x7d"

/-- A parser that knows one report with nothing but its type. -/
def typedCrates (typeName : String) : Crates :=
  { bareCrates with
    jsonParse := fun text =>
      if text = typedText typeName then
        .ok (.object [("Report", .object [("$type", .string typeName)])])
      else .error "expected value" }

def typedReport (typeName : String) : Message := ⟨"Report", .complex (some typeName) []⟩

theorem sound_wideType : Sound baseSchema (typedReport "WideType") := by
  have read : fromJson (typedCrates "WideType") baseSchema (typedText "WideType") =
    .ok (typedReport "WideType") :=
    rfl
  refine ((sound_iff_namesSound (by decide +kernel)).1 _ _ rfl read).mpr ?_
  refine .complex ?_ fun decls flat pair member => ?_
  · rintro named ⟨⟩ -
    exact ⟨⟨.extension "BaseType" [], rfl⟩, .single ⟨false, [], rfl⟩⟩
  · simp [expanded] at member

theorem not_derives_otherType : ¬ baseSchema.Derives "OtherType" "BaseType" := by
  intro derives
  rcases Relation.ReflTransGen.cases_head derives with same | ⟨base, ⟨abstract, extra, found⟩, -⟩
  · exact absurd same (by decide)
  · have other : baseSchema.complexTypes.lookup "OtherType" = some ⟨false, .groups []⟩ := rfl
    simp [other] at found

/-- A report may name an abstract type, or one that has nothing to do with the
declared one, and nothing is reported. -/
theorem unsound_named :
    (fromJson (typedCrates "OpenType") baseSchema (typedText "OpenType") =
      .ok (typedReport "OpenType") ∧ validate (typedCrates "OpenType") baseSchema
        (typedReport "OpenType") = [] ∧
      ¬ Sound baseSchema (typedReport "OpenType")) ∧
    fromJson (typedCrates "OtherType") baseSchema (typedText "OtherType") =
      .ok (typedReport "OtherType") ∧
      validate (typedCrates "OtherType") baseSchema (typedReport "OtherType") = [] ∧
      ¬ Sound baseSchema (typedReport "OtherType") := by
  refine ⟨⟨rfl, by decide +kernel, fun sound => ?_⟩, rfl, by decide +kernel, fun sound => ?_⟩
  · cases sound with
    | complex here _ =>
      obtain ⟨content, found⟩ := (here.2 (by decide)).1
      have known : baseSchema.complexTypes.lookup "OpenType" =
        some ⟨true, .extension "BaseType" []⟩ := rfl
      simp [known] at found
  · cases sound with
    | complex here _ => exact not_derives_otherType (here.2 (by decide)).2

end Samples

end OaGateway.Uci
