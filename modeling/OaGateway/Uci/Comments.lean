import OaGateway.Lib.Xml.Resolve
import OaGateway.Uci.Xml

/-! Reading two documents that differ only by comments and processing
instructions. A leaf is read from the text its element starts with, and a
comment ends that text. -/
namespace OaGateway.Uci

open Lib

variable {schema : Schema}

/-- The text a leaf is read from. -/
def leafText (node : Xml.Node) : String := trimText (node.textOf.getD "")

/-- The type is read as a leaf. -/
def Schema.isLeaf (schema : Schema) (typeName : String) : Bool :=
  schema.isSimple typeName || !schema.isComplex typeName

/-- No type met on the way down an element fails to be flattened. -/
def Readable (schema : Schema) : Nat → Xml.Node → String → Prop
  | 0, _, _ => False
  | levels + 1, node, typeName =>
    schema.isLeaf typeName = true ∨
      ∃ decls, schema.flatten (actualType schema node typeName) = .ok decls ∧
        ∀ child ∈ node.elements, Readable schema levels child (childType decls child.localName)

/-- Each leaf below two elements is read as the same value from both. -/
def SameLeaves (schema : Schema) : Nat → Xml.Node → Xml.Node → String → Prop
  | 0, _, _, _ => True
  | levels + 1, first, second, typeName =>
    if schema.isLeaf typeName then
      parseText (schema.primitive typeName) (leafText first) =
        parseText (schema.primitive typeName) (leafText second)
    else ∀ decls, schema.flatten (actualType schema first typeName) = .ok decls →
      ∀ pair ∈ first.elements.zip second.elements,
        SameLeaves schema levels pair.1 pair.2 (childType decls pair.1.localName)

section Fields
variable {read : Xml.Node → String → String → Except UciError Node} {decls : List Element}
  {path : String}

/-- The children of one name on either side of paired elements. -/
def kidsOf (pairs : List (Xml.Node × Xml.Node)) (name : String) : List (Xml.Node × Xml.Node) :=
  pairs.filter fun pair => pair.1.localName == name

variable {pairs : List (Xml.Node × Xml.Node)}

theorem filter_fst (pairs : List (Xml.Node × Xml.Node)) (name : String) :
    ((pairs.map Prod.fst).filter fun child => child.localName == name) =
      (kidsOf pairs name).map Prod.fst :=
  List.filter_map

theorem filter_snd (alike : ∀ pair ∈ pairs, pair.1.localName = pair.2.localName) (name : String) :
    ((pairs.map Prod.snd).filter fun child => child.localName == name) =
      (kidsOf pairs name).map Prod.snd := by
  rw [List.filter_map, kidsOf]
  congr 1
  refine List.filter_congr fun pair member => ?_
  simp [alike pair member]

theorem forall_zipIdx {Item : Type} {items : List Item} {holds : Item → Prop} :
    (∀ entry ∈ items.zipIdx, holds entry.1) ↔ ∀ item ∈ items, holds item := by
  constructor
  · intro each item member
    rw [← List.zipIdx_map_fst 0 items] at member
    obtain ⟨entry, inside, rfl⟩ := List.mem_map.mp member
    exact each entry inside
  · intro each entry member
    exact each entry.1 (List.fst_mem_of_mem_zipIdx member)

/-- Both sides of a field as one collection over the paired children. -/
theorem collect_fst (name : String) :
    collect (fun kid => read kid.1 (childType decls name) (indexed path kid.2))
        ((kidsOf pairs name).map Prod.fst).zipIdx =
      collect (fun kid => read kid.1.1 (childType decls name) (indexed path kid.2))
        (kidsOf pairs name).zipIdx := by
  rw [List.zipIdx_map, collect_map]
  rfl

theorem collect_snd (name : String) :
    collect (fun kid => read kid.1 (childType decls name) (indexed path kid.2))
        ((kidsOf pairs name).map Prod.snd).zipIdx =
      collect (fun kid => read kid.1.2 (childType decls name) (indexed path kid.2))
        (kidsOf pairs name).zipIdx := by
  rw [List.zipIdx_map, collect_map]
  rfl

theorem readField_sameFailure (alike : ∀ pair ∈ pairs, pair.1.localName = pair.2.localName)
    (each : ∀ pair ∈ pairs, ∀ typeName path,
      SameFailure (read pair.1 typeName path) (read pair.2 typeName path)) (name : String) :
    SameFailure (readField read decls path (pairs.map Prod.fst) name)
      (readField read decls path (pairs.map Prod.snd) name) := by
  simp only [readField, filter_fst, filter_snd alike, collect_fst, collect_snd]
  refine .map (.collect fun kid member => ?_) _ _
  exact each kid.1 (List.mem_of_mem_filter (List.fst_mem_of_mem_zipIdx member)) _ _

theorem fieldOf_inj {name : String} {array : Bool} {first second : List Node}
    (count : first.length = second.length) (single : array = false → first.length ≤ 1)
    (same : fieldOf name array first = fieldOf name array second) : first = second := by
  cases array with
  | true => simpa [fieldOf] using same
  | false =>
    have short := single rfl
    match first, second with
    | [], [] => rfl
    | [one], [two] => simpa [fieldOf] using same

/-- Where the children of one name can be read, the field is the same from both
sides when each child is. -/
theorem readField_eq_iff (alike : ∀ pair ∈ pairs, pair.1.localName = pair.2.localName)
    {name : String}
    (succeeds : ∀ pair ∈ kidsOf pairs name, ∀ path, ∃ node,
      read pair.1 (childType decls name) path = .ok node)
    {same : Xml.Node × Xml.Node → Prop}
    (each : ∀ pair ∈ kidsOf pairs name, ∀ path,
      read pair.1 (childType decls name) path = read pair.2 (childType decls name) path ↔
        same pair) :
    readField read decls path (pairs.map Prod.fst) name =
      readField read decls path (pairs.map Prod.snd) name ↔
      ∀ pair ∈ kidsOf pairs name, same pair := by
  simp only [readField, filter_fst, filter_snd alike, collect_fst, collect_snd, List.length_map]
  let one (kid : (Xml.Node × Xml.Node) × Nat) :=
    read kid.1.1 (childType decls name) (indexed (path ++ "." ++ name) kid.2)
  let two (kid : (Xml.Node × Xml.Node) × Nat) :=
    read kid.1.2 (childType decls name) (indexed (path ++ "." ++ name) kid.2)
  have ran : ∀ kid ∈ (kidsOf pairs name).zipIdx, ∃ node, one kid = .ok node := by
    intro kid member
    exact succeeds kid.1 (List.fst_mem_of_mem_zipIdx member) _
  have leaves : (∀ kid ∈ (kidsOf pairs name).zipIdx, one kid = two kid) ↔
      ∀ pair ∈ kidsOf pairs name, same pair := by
    refine Iff.trans (forall₂_congr fun kid member => ?_) forall_zipIdx
    exact each kid.1 (List.fst_mem_of_mem_zipIdx member) _
  have whole : collect one (kidsOf pairs name).zipIdx = collect two (kidsOf pairs name).zipIdx ↔
    _ :=
    collect_eq_iff ran
  rw [← leaves, ← whole]
  refine ⟨fun mapped => ?_, fun equal => congrArg (Except.map _) equal⟩
  obtain ⟨first, read⟩ := collect_succeeds.mpr ran
  change (collect one _).map _ = (collect two _).map _ at mapped
  rw [read] at mapped ⊢
  cases other : collect two (kidsOf pairs name).zipIdx with
  | error failure =>
    rw [other] at mapped
    cases mapped
  | ok second =>
    rw [other] at mapped
    have count := (length_collect read).trans (length_collect other).symm
    refine congrArg _ (fieldOf_inj count ?_ (Except.ok.inj mapped))
    intro single
    rw [length_collect read]
    simp at single
    simpa using single.2

end Fields

section Elements

theorem xsiType_eq {first second : Xml.Node} (same : first.skeleton = second.skeleton) :
    xsiType first = xsiType second := by
  rw [xsiType, xsiType, ← first.attributeOf_skeleton, same, second.attributeOf_skeleton]

theorem actualType_eq {first second : Xml.Node} (same : first.skeleton = second.skeleton)
    (schema : Schema) (typeName : String) :
    actualType schema first typeName = actualType schema second typeName := by
  rw [actualType, actualType, xsiType_eq same]

theorem readElement_leaf (leaf : schema.isLeaf typeName = true) :
    readElement schema (levels + 1) node typeName path =
      .ok (.simple (parseText (schema.primitive typeName) (leafText node))) := by
  rw [Schema.isLeaf] at leaf
  rw [readElement, if_pos leaf, leafText]

theorem readElement_unflattened (complex : schema.isLeaf typeName ≠ true)
    (failed : schema.flatten (actualType schema node typeName) = .error error) :
    readElement schema (levels + 1) node typeName path = .error error := by
  rw [Schema.isLeaf] at complex
  simp only [readElement, if_neg complex, failed]

theorem readElement_complex (complex : schema.isLeaf typeName ≠ true)
    (flat : schema.flatten (actualType schema node typeName) = .ok decls) :
    readElement schema (levels + 1) node typeName path =
      (collect (readField (readElement schema levels) decls path node.elements)
        (node.elements.map Xml.Node.localName).eraseDups).map
      (.complex (if actualType schema node typeName = typeName then none
        else some (actualType schema node typeName))) := by
  rw [Schema.isLeaf] at complex
  simp only [readElement, if_neg complex, flat, Xml.Node.elements]
  cases collect (readField (readElement schema levels) decls path
    (node.children.filter Xml.Node.isElement))
    ((node.children.filter Xml.Node.isElement).map Xml.Node.localName).eraseDups <;> rfl

theorem localName_eq {first second : Xml.Node} (same : first.skeleton = second.skeleton) :
    first.localName = second.localName := by
  rw [← first.localName_skeleton, same, second.localName_skeleton]

/-- Elements with one skeleton are refused alike. -/
theorem readElement_sameFailure {first second : Xml.Node}
    (same : first.skeleton = second.skeleton) :
    SameFailure (readElement schema levels first typeName path)
      (readElement schema levels second typeName path) := by
  induction levels generalizing first second typeName path with
  | zero => exact fun _ => Iff.rfl
  | succ levels ih =>
    by_cases leaf : schema.isLeaf typeName = true
    · rw [readElement_leaf leaf, readElement_leaf leaf]
      exact fun _ => by simp
    · have actual := actualType_eq same schema typeName
      cases flat : schema.flatten (actualType schema first typeName) with
      | error error =>
        rw [readElement_unflattened leaf flat, readElement_unflattened leaf (actual ▸ flat)]
        exact fun _ => Iff.rfl
      | ok decls =>
        obtain ⟨pairs, -, left, right, below⟩ := Xml.Node.elements_paired same
        have alike : ∀ pair ∈ pairs, pair.1.localName = pair.2.localName :=
          fun pair member => localName_eq (below pair member)
        have names : (pairs.map Prod.fst).map Xml.Node.localName =
            (pairs.map Prod.snd).map Xml.Node.localName := by
          simpa using alike
        rw [readElement_complex leaf flat, readElement_complex leaf (actual ▸ flat),
          left, right, names]
        refine .map (.collect fun name _ => ?_) _ _
        exact readField_sameFailure alike (fun pair member _ _ => ih (below pair member)) name

/-- An element is read exactly when no type on the way down fails. -/
theorem readElement_succeeds {node : Xml.Node} :
    (∃ result, readElement schema levels node typeName path = .ok result) ↔
      Readable schema levels node typeName := by
  induction levels generalizing node typeName path with
  | zero => simp [readElement, Readable]
  | succ levels ih =>
    rw [Readable]
    by_cases leaf : schema.isLeaf typeName = true
    · simp [readElement_leaf leaf, leaf]
    · cases flat : schema.flatten (actualType schema node typeName) with
      | error error => simp [readElement_unflattened leaf flat, leaf]
      | ok decls =>
        simp only [readElement_complex leaf flat, leaf, Bool.false_eq_true, false_or,
          Except.ok.injEq, exists_eq_left']
        rw [map_succeeds, collect_succeeds]
        simp only [readField, map_succeeds, collect_succeeds, ih, List.mem_eraseDups]
        constructor
        · intro each child member
          have listed : child ∈ node.elements.filter fun other =>
              other.localName == child.localName := by
            simp [member]
          have kids : ∀ kid ∈ node.elements.filter fun other => other.localName == child.localName,
              Readable schema levels kid (childType decls child.localName) :=
            forall_zipIdx.mp (each child.localName (List.mem_map_of_mem member))
          exact kids child listed
        · intro each name _ kid member
          obtain ⟨inside, same⟩ := List.mem_filter.mp (List.fst_mem_of_mem_zipIdx member)
          exact (beq_iff_eq.mp same) ▸ each kid.1 inside

/-- Where an element can be read, two with its skeleton give the same node
exactly when their leaves do. -/
theorem readElement_eq_iff {first second : Xml.Node} (same : first.skeleton = second.skeleton)
    (readable : Readable schema levels first typeName) :
    readElement schema levels first typeName path = readElement schema levels second typeName path ↔
      SameLeaves schema levels first second typeName := by
  induction levels generalizing first second typeName path with
  | zero => cases readable
  | succ levels ih =>
    rw [SameLeaves]
    by_cases leaf : schema.isLeaf typeName = true
    · rw [readElement_leaf leaf, readElement_leaf leaf, if_pos leaf]
      simp
    · have actual := actualType_eq same schema typeName
      obtain simple | ⟨decls, flat, each⟩ := readable
      · exact absurd simple leaf
      · obtain ⟨pairs, zipped, left, right, below⟩ := Xml.Node.elements_paired same
        have alike : ∀ pair ∈ pairs, pair.1.localName = pair.2.localName :=
          fun pair member => localName_eq (below pair member)
        have names : (pairs.map Prod.fst).map Xml.Node.localName =
            (pairs.map Prod.snd).map Xml.Node.localName := by
          simpa using alike
        have read : ∀ name, ∀ pair ∈ kidsOf pairs name, ∀ path,
            ∃ node, readElement schema levels pair.1 (childType decls name) path = .ok node := by
          intro name pair member path
          obtain ⟨inside, named⟩ := List.mem_filter.mp member
          have child : pair.1 ∈ first.elements := left ▸ List.mem_map_of_mem inside
          exact readElement_succeeds.mpr ((beq_iff_eq.mp named) ▸ each pair.1 child)
        have fields (name : String) :
            readField (readElement schema levels) decls path (pairs.map Prod.fst) name =
                readField (readElement schema levels) decls path (pairs.map Prod.snd) name ↔
              ∀ pair ∈ kidsOf pairs name,
                SameLeaves schema levels pair.1 pair.2 (childType decls pair.1.localName) := by
          refine readField_eq_iff alike (read name) fun pair member path => ?_
          obtain ⟨inside, named⟩ := List.mem_filter.mp member
          have child : pair.1 ∈ first.elements := left ▸ List.mem_map_of_mem inside
          rw [← beq_iff_eq.mp named]
          exact ih (below pair inside) (each pair.1 child)
        have succeeds : ∀ name ∈ ((pairs.map Prod.snd).map Xml.Node.localName).eraseDups, ∃ field,
            readField (readElement schema levels) decls path (pairs.map Prod.fst) name =
                .ok field := by
          intro name _
          rw [readField, map_succeeds, collect_succeeds, filter_fst]
          rintro kid member
          obtain ⟨pair, inside, same⟩ := List.mem_map.mp (List.fst_mem_of_mem_zipIdx member)
          exact same ▸ read name pair inside _
        rw [if_neg leaf, readElement_complex leaf flat,
          readElement_complex leaf (actual ▸ flat), ← actual, ← zipped, left, right, names,
            (map_injective fun _ _ => (Node.complex.inj · |>.2)).eq_iff,
          collect_eq_iff succeeds]
        simp only [fields, flat, Except.ok.injEq, forall_eq', List.mem_eraseDups]
        constructor
        · intro grouped pair member
          refine grouped pair.1.localName ?_ pair (List.mem_filter.mpr ⟨member, by simp⟩)
          rw [← names]
          exact List.mem_map_of_mem (List.mem_map_of_mem member)
        · intro all name _ pair member
          exact all pair (List.mem_of_mem_filter member)

end Elements

section Documents

/-- Unless the documents are refused for their elements alone, every leaf is
read as the same value from both. -/
def LeavesAgree (schema : Schema) (first second : Xml.Document) : Prop :=
  first.depths.all (· ≤ maxDepth) = true →
    ∀ declared, schema.globalType first.tree.localName = some declared →
      Readable schema (maxDepth + 1) first.tree ((xsiType first.tree).getD declared) →
      SameLeaves schema (maxDepth + 1) first.tree second.tree ((xsiType first.tree).getD declared)

theorem fromXml_eq_iff {crates : Crates} {first second : Xml.Document} (valid : first.valid = true)
    (other : second.valid = true) (same : first.SameMarkup second)
    (parsed : crates.xmlParse (.ofList first.render) = .ok first.tree)
    (parsedOther : crates.xmlParse (.ofList second.render) = .ok second.tree) :
    fromXml crates schema (.ofList first.render) = fromXml crates schema (.ofList second.render) ↔
      LeavesAgree schema first second := by
  have rooted : first.root.isRoot = true ∧ second.root.isRoot = true := by
    simp only [Xml.Document.valid, Bool.and_eq_true] at valid other
    exact ⟨valid.1.1.1.2, other.1.1.1.2⟩
  have skeleton := same.skeleton_eq rooted.1 rooted.2
  have guards : nestingExceeds (.ofList second.render) maxDepth =
      nestingExceeds (.ofList first.render) maxDepth := by
    rw [nestingExceeds_document valid, nestingExceeds_document other, same.depths_eq]
  have shallow : first.depths.all (· ≤ maxDepth) = true ↔
      nestingExceeds (.ofList first.render) maxDepth = false := by
    rw [nestingExceeds_document valid]
    simp
  rw [LeavesAgree, shallow, fromXml, fromXml, guards, parsed, parsedOther]
  cases nestingExceeds (.ofList first.render) maxDepth with
  | true => simp
  | false =>
    simp only [Bool.false_eq_true, ↓reduceIte, forall_const, ← localName_eq skeleton,
      ← xsiType_eq skeleton]
    cases schema.globalType first.tree.localName with
    | none => simp
    | some declared =>
      simp only [Option.some.injEq, forall_eq']
      generalize (xsiType first.tree).getD declared = typeName
      generalize first.tree.localName = path
      have failure : SameFailure (readElement schema (maxDepth + 1) first.tree typeName path)
          (readElement schema (maxDepth + 1) second.tree typeName path) :=
        readElement_sameFailure skeleton
      by_cases readable : Readable schema (maxDepth + 1) first.tree typeName
      · have leaves : readElement schema (maxDepth + 1) first.tree typeName path =
            readElement schema (maxDepth + 1) second.tree typeName path ↔ _ :=
          readElement_eq_iff skeleton readable
        obtain ⟨body, read⟩ := readElement_succeeds.mpr readable
        rw [← leaves, read]
        cases replied : readElement schema (maxDepth + 1) second.tree typeName path with
        | error error => simp [(failure error).mpr replied] at read
        | ok reply => simp [readable]
      · have alike := failure.eq_of_error fun body read =>
          readable (readElement_succeeds.mp ⟨body, read⟩)
        simp [readable, alike]

end Documents

end OaGateway.Uci
