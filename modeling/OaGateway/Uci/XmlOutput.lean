import OaGateway.Lib.Xml.Layout
import OaGateway.Uci.Xml

/-! When the XML writer's output is a well-formed document with the element
tree of its message. -/
namespace OaGateway.Uci

open Lib

/-- Every leaf, every child name and every named type below a node is as given. -/
inductive Everywhere (leaf : Simple → Prop) (child named : String → Prop) : Node → Prop where
  | simple (holds : leaf value) : Everywhere leaf child named (.simple value)
  | complex (known : ∀ name, typeName = some name → named name)
      (children : ∀ pair ∈ expanded fields, child pair.1)
      (below : ∀ pair ∈ expanded fields, Everywhere leaf child named pair.2) :
      Everywhere leaf child named (.complex typeName fields)

theorem Everywhere.imp {leaf other : Simple → Prop} {child label named known : String → Prop}
    (leaves : ∀ value, leaf value → other value) (children : ∀ name, child name → label name)
    (types : ∀ name, named name → known name) (every : Everywhere leaf child named node) :
    Everywhere other label known node := by
  induction every with
  | simple holds => exact .simple (leaves _ holds)
  | complex typed inside _ ih =>
    exact .complex (fun name same => types name (typed name same))
      (fun pair member => children _ (inside pair member)) ih

/-- Every type a node names is complex in the schema. -/
abbrev Typed (schema : Schema) : Node → Prop :=
  Everywhere (fun _ => True) (fun _ => True) (fun name => schema.isComplex name = true)

/-- Every child's name is an XML name. -/
abbrev Named : Node → Prop :=
  Everywhere (fun _ => True) (fun name => Xml.isName name.toList = true) (fun _ => True)

/-- Text an XML document can hold and give back as it was: XML characters, and
no carriage return, which a reader takes for a line feed. -/
def Textual (text : String) : Prop := ∀ c ∈ text.toList, Xml.isChar c = true ∧ c ≠ '\r'

/-- Every leaf's text can be carried. -/
abbrev TextualLeaves (crates : Crates) : Node → Prop :=
  Everywhere (fun value => Textual (value.asText crates)) (fun _ => True) (fun _ => True)

/-- An element stands for a node: the node's name, one child element for each
child node in field order, and a leaf's text as its character data. -/
inductive Mirrors (crates : Crates) : String → Node → Xml.Elem → Prop where
  | simple (name : elem.tag.name = label.toList) (bare : elem.inner.elements = [])
      (data : elem.inner.charData = (value.asText crates).toList) :
      Mirrors crates label (.simple value) elem
  | complex (name : elem.tag.name = label.toList)
      (count : (expanded fields).length = elem.inner.elements.length)
      (each : ∀ pair ∈ (expanded fields).zip elem.inner.elements,
        Mirrors crates pair.1.1 pair.1.2 pair.2) :
      Mirrors crates label (.complex typeName fields) elem

/-- A well-formed document whose root element stands for the message. -/
def Represents (crates : Crates) (document : Xml.Document) (message : Message) : Prop :=
  document.valid = true ∧
    ∃ root, document.rootElement = some root ∧ Mirrors crates message.name message.body root

/-- Element and type names are names without a colon. -/
structure Schema.NcNames (schema : Schema) : Prop where
  globals : ∀ name, (schema.globalType name).isSome → Xml.isNcName name.toList = true
  types : ∀ name, schema.isComplex name = true ∨ (schema.simpleTypes.lookup name).isSome →
    Xml.isNcName name.toList = true
  elements : ∀ name decls, schema.flatten name = .ok decls →
    ∀ decl ∈ decls, Xml.isNcName decl.name.toList = true

section Escape
open Xml

/-- One character as the writer escapes it. -/
def escapePiece (c : Char) : Piece :=
  if c = '&' then .ref (.entity .amp)
  else if c = '<' then .ref (.entity .lt)
  else if c = '>' then .ref (.entity .gt)
  else .char c

theorem render_escapePieces (text : List Char) : renderPieces (text.map escapePiece) =
    escape text := by
  induction text with
  | nil => rfl
  | cons c text ih =>
    have split : renderPieces ((c :: text).map escapePiece) =
        (escapePiece c).render ++ renderPieces (text.map escapePiece) := by
      simp [renderPieces]
    have head : escape (c :: text) = escape [c] ++ escape text := by
      simp [escape, replaceChar]
    rw [split, ih, head]
    congr 1
    by_cases amp : c = '&'
    · subst amp; rfl
    · by_cases less : c = '<'
      · subst less; rfl
      · by_cases greater : c = '>'
        · subst greater; rfl
        · simp [escapePiece, amp, less, greater, Piece.render, escape, replaceChar]

theorem escapePieces_valid {text : List Char} (chars : ∀ c ∈ text, isChar c = true) :
    (text.map escapePiece).all (Piece.valid []) = true := by
  rw [List.all_map, List.all_eq_true]
  intro c member
  simp only [Function.comp_apply, escapePiece]
  by_cases amp : c = '&'
  · simp [amp, Piece.valid, Reference.valid]
  · by_cases less : c = '<'
    · simp [less, Piece.valid, Reference.valid]
    · by_cases greater : c = '>'
      · simp [greater, Piece.valid, Reference.valid]
      · simp [amp, less, greater, Piece.valid, chars c member]

theorem pieceChars_escapePieces {text : List Char} (lines : '\r' ∉ text) :
    pieceChars (text.map escapePiece) = text := by
  induction text with
  | nil => rfl
  | cons c text ih =>
    have later := ih fun member => lines (List.mem_cons_of_mem c member)
    have notReturn : c ≠ '\r' := fun same => lines (by simp [same])
    by_cases amp : c = '&'
    · simp [amp, escapePiece, pieceChars, later, Reference.value, Entity.value]
    · by_cases less : c = '<'
      · simp [less, escapePiece, pieceChars, later, Reference.value, Entity.value]
      · by_cases greater : c = '>'
        · simp [greater, escapePiece, pieceChars, later, Reference.value, Entity.value]
        · simp only [List.map_cons, escapePiece, amp, less, greater, ↓reduceIte]
          rw [pieceChars_char notReturn, later]

/-- Escaped text has no `>` left to close a section with. -/
theorem occurs_escape (text : List Char) : occurs [']', ']', '>'] (escape text) = false := by
  have absent : '>' ∉ escape text := by
    intro member
    obtain ⟨c, -, inside⟩ := List.mem_flatMap.mp member
    by_cases same : c = '>'
    · simp [same] at inside
    · simp only [same, ↓reduceIte, List.mem_singleton] at inside
      exact same inside.symm
  by_contra present
  have found := occurs_iff_infix.mp (Bool.of_not_eq_false present)
  exact absent (found.subset (by simp))

/-- Text that puts no character reference into what it stands in. -/
def Unreferenced (text : List Char) : Prop :=
  ∀ tail, occurs ['&', '#'] tail = false → occurs ['&', '#'] (text ++ tail) = false

namespace Unreferenced

theorem plain {text : List Char} (absent : '&' ∉ text) : Unreferenced text :=
  fun _ later => (occurs_append_of_notMem absent).trans later

theorem append {text more : List Char} (first : Unreferenced text) (second : Unreferenced more) :
    Unreferenced (text ++ more) := by
  intro tail later
  rw [List.append_assoc]
  exact first _ (second tail later)

theorem cons {text : List Char} (different : c ≠ '&') (later : Unreferenced text) :
    Unreferenced (c :: text) :=
  (plain (by simpa using different.symm) : Unreferenced [c]).append later

theorem flatMap {Item : Type} {items : List Item} {write : Item → List Char}
    (each : ∀ item ∈ items, Unreferenced (write item)) : Unreferenced (items.flatMap write) := by
  induction items with
  | nil => exact .plain (by simp)
  | cons item items ih =>
    rw [List.flatMap_cons]
    exact (each item (by simp)).append (ih fun other member => each other (by simp [member]))

theorem name {name : List Char} (named : isName name = true) : Unreferenced name :=
  .plain (notMem_of_isName named (by decide))

theorem escape (text : List Char) : Unreferenced (escape text) := by
  rw [← render_escapePieces, renderPieces]
  refine .flatMap fun piece member => ?_
  obtain ⟨c, -, rfl⟩ := List.mem_map.mp member
  intro tail later
  unfold escapePiece
  split
  · simpa [Piece.render, Reference.render, Entity.name, occurs, List.isPrefixOf] using later
  · split
    · simpa [Piece.render, Reference.render, Entity.name, occurs, List.isPrefixOf] using later
    · split
      · simpa [Piece.render, Reference.render, Entity.name, occurs, List.isPrefixOf] using later
      · rename_i other _ _
        exact Unreferenced.plain (by simpa [Piece.render] using fun same => other same.symm)
          tail later

end Unreferenced

end Escape

section Tags
open Xml

/-- A namespace declaration or `xsi:type`, as the writer spaces it. -/
def plainAttribute (name value : List Char) : Attribute :=
  ⟨[' '], name, [], [], .double, value.map .char⟩

theorem render_plainAttribute (name value : List Char) :
    (plainAttribute name value).render = (' ' :: name ++ ['=', '"']) ++ value ++ ['"'] := by
  simp [plainAttribute, Attribute.render, renderPieces_chars, Quote.char]

def defaultNs : Attribute := plainAttribute "xmlns".toList ns.toList

def xsiNs : Attribute := plainAttribute "xmlns:xsi".toList xsi.toList

def typeAttribute (name : String) : Attribute := plainAttribute "xsi:type".toList name.toList

theorem render_defaultNs : defaultNs.render = " xmlns=\"".toList ++ ns.toList ++ ['"'] := by
  have opening : ' ' :: "xmlns".toList ++ ['=', '"'] = " xmlns=\"".toList := by decide
  exact (render_plainAttribute _ _).trans (congrArg (· ++ ns.toList ++ ['"']) opening)

theorem render_xsiNs : xsiNs.render = xsiAttribute := by
  have opening : ' ' :: "xmlns:xsi".toList ++ ['=', '"'] = " xmlns:xsi=\"".toList := by decide
  exact (render_plainAttribute _ _).trans (congrArg (· ++ xsi.toList ++ ['"']) opening)

theorem render_typeAttribute (name : String) :
    (typeAttribute name).render = " xsi:type=\"".toList ++ name.toList ++ ['"'] := by
  have opening : ' ' :: "xsi:type".toList ++ ['=', '"'] = " xsi:type=\"".toList := by decide
  exact (render_plainAttribute _ _).trans (congrArg (· ++ name.toList ++ ['"']) opening)

/-- The attributes of a tag the writer opens. -/
def attributesOf (isRoot : Bool) (typeName : Option String) : List Attribute :=
  (if isRoot then [defaultNs] else []) ++
    match typeName with
    | some name => [xsiNs, typeAttribute name]
    | none => []

private theorem writeRootNs_eq (needXsi : Bool) :
    writeRootNs needXsi = defaultNs.render ++ if needXsi then xsiNs.render else [] := by
  rw [render_defaultNs, render_xsiNs]
  rfl

private theorem writeAttributes_none (isRoot : Bool) :
    writeAttributes isRoot none = if isRoot then writeRootNs false else [] := by
  cases isRoot
  · rfl
  · exact List.append_nil _

private theorem writeAttributes_some (isRoot : Bool) (name : String) :
    writeAttributes isRoot (some name) =
      (if isRoot then writeRootNs true else xsiNs.render) ++ (typeAttribute name).render := by
  rw [render_typeAttribute, render_xsiNs]
  cases isRoot <;> rfl

theorem render_attributesOf (isRoot : Bool) (typeName : Option String) :
    (attributesOf isRoot typeName).flatMap Attribute.render = writeAttributes isRoot typeName := by
  cases typeName with
  | none =>
    rw [writeAttributes_none, writeRootNs_eq]
    cases isRoot <;> simp [attributesOf]
  | some name =>
    rw [writeAttributes_some, writeRootNs_eq]
    cases isRoot <;> simp [attributesOf]

private theorem plainAttribute_valid {name value : List Char} (named : isName name = true)
    (chars : ∀ c ∈ value, Piece.valid ['"'] (.char c) = true) :
    (plainAttribute name value).valid = true := by
  have pieces : (value.map Piece.char).all (Piece.valid ['"']) = true := by
    rw [List.all_map, List.all_eq_true]
    exact chars
  simp [plainAttribute, Attribute.valid, named, Quote.char, pieces, isSpace]

private theorem nameChar_valid {c : Char} (named : isNameChar c = true) :
    Piece.valid ['"'] (.char c) = true := by
  have other (a : Char) (refused : isNameChar a = false) : c ≠ a := by
    rintro rfl
    simp [named] at refused
  simp [Piece.valid, isChar_of_isNameChar named, other '<' (by decide), other '&' (by decide),
    other '"' (by decide)]

private theorem defaultNs_valid : defaultNs.valid = true :=
  plainAttribute_valid (by decide) (List.all_iff_forall_prop.mp (by decide))

private theorem xsiNs_valid : xsiNs.valid = true :=
  plainAttribute_valid (by decide) (List.all_iff_forall_prop.mp (by decide))

private theorem typeAttribute_valid {name : String} (named : isName name.toList = true) :
    (typeAttribute name).valid = true :=
  plainAttribute_valid (by decide) fun c member =>
    nameChar_valid (isNameChar_of_isName named c member)

/-- The writer's attributes are well formed when the type it names is. -/
theorem attributesOf_valid (isRoot : Bool) {typeName : Option String}
    (named : ∀ name, typeName = some name → isName name.toList = true) :
    (attributesOf isRoot typeName).all Attribute.valid = true := by
  cases typeName with
  | none => cases isRoot <;> simp [attributesOf, defaultNs_valid]
  | some name =>
    have typed := typeAttribute_valid (named name rfl)
    cases isRoot <;> simp [attributesOf, defaultNs_valid, xsiNs_valid, typed]

theorem attributesOf_nodup (isRoot : Bool) (typeName : Option String) :
    ((attributesOf isRoot typeName).map Attribute.name).Nodup := by
  have all : ["xmlns".toList, "xmlns:xsi".toList, "xsi:type".toList].Nodup := by decide
  refine List.Sublist.nodup ?_ all
  cases isRoot <;> cases typeName <;> simp [attributesOf, plainAttribute, defaultNs, xsiNs,
    typeAttribute, -String.reduceToList]

end Tags

section Read
variable {crates : Crates} {schema : Schema}

/-- What a node read from JSON is: a leaf, or a complex node of a known type
whose children were read one level down. -/
theorem readNode_cases (read : readNode crates schema (levels + 1) value typeName path = .ok node) :
    (∃ simple, node = .simple simple) ∨
      ∃ actual fields, schema.isComplex actual = true ∧
        node = .complex (if actual = typeName then none else some actual) fields ∧
        ∀ pair ∈ expanded fields, ∃ item childType childPath,
          readNode crates schema levels item childType childPath = .ok pair.2 := by
  rw [readNode] at read
  split at read
  · split at read
    · rename_i simple _
      exact .inl ⟨simple, (Except.ok.inj read).symm⟩
    · cases read
  · split at read
    · cases read
    · simp only at read
      split at read
      · cases read
      · rename_i complex
        split at read
        · cases read
        · rename_i decls _
          split at read
          · cases read
          · rename_i fields collected
            refine .inr ⟨_, fields, by simpa using complex, (Except.ok.inj read).symm, ?_⟩
            intro pair member
            obtain ⟨field, listed, inside⟩ := List.mem_flatMap.mp member
            obtain ⟨node, below, rfl⟩ := List.mem_map.mp inside
            obtain ⟨member, -, ran⟩ := of_mem_collect collected listed
            split at ran
            · split at ran
              · rename_i nodes read
                cases ran
                split at read
                · obtain ⟨item, -, here⟩ := of_mem_collect read below
                  exact ⟨_, _, _, here⟩
                · obtain ⟨item, -, here⟩ := of_mem_collect read below
                  exact ⟨_, _, _, here⟩
              · cases ran
            · split at ran
              · rename_i result here
                cases ran
                cases List.mem_singleton.mp below
                exact ⟨_, _, _, here⟩
              · cases ran

theorem typed_of_readNode (read : readNode crates schema levels value typeName path = .ok node) :
    Typed schema node := by
  induction levels generalizing value typeName path node with
  | zero => cases read
  | succ levels ih =>
    obtain ⟨simple, rfl⟩ | ⟨actual, fields, complex, rfl, below⟩ := readNode_cases read
    · exact .simple trivial
    · refine .complex ?_ (fun _ _ => trivial) fun pair member => ?_
      · intro name named
        split at named
        · cases named
        · cases named
          exact complex
      · obtain ⟨item, childType, childPath, here⟩ := below pair member
        exact ih here

theorem fromJson_cases (read : fromJson crates schema text = .ok message) :
    (schema.globalType message.name).isSome = true ∧ Typed schema message.body := by
  rw [fromJson] at read
  split at read
  · cases read
  · split at read
    · cases read
    · split at read
      · cases read
      · rename_i declared known
        split at read
        · rename_i node body
          cases read
          exact ⟨by simp [known], typed_of_readNode body⟩
        · cases read
    · cases read

end Read

section Write
open Xml

theorem exists_zip_right {Left Right : Type} {lefts : List Left} {rights : List Right}
    (count : lefts.length = rights.length) {right : Right} (member : right ∈ rights) :
    ∃ left, (left, right) ∈ lefts.zip rights := by
  obtain ⟨index, inside, rfl⟩ := List.mem_iff_getElem.mp member
  refine ⟨lefts[index], List.mem_iff_getElem.mpr ⟨index, ?_, ?_⟩⟩
  · simp [count, inside]
  · simp

theorem exists_zip_left {Left Right : Type} {lefts : List Left} {rights : List Right}
    (count : lefts.length = rights.length) {left : Left} (member : left ∈ lefts) :
    ∃ right, (left, right) ∈ lefts.zip rights := by
  obtain ⟨index, inside, rfl⟩ := List.mem_iff_getElem.mp member
  refine ⟨rights[index], List.mem_iff_getElem.mpr ⟨index, ?_, ?_⟩⟩
  · simp [← count, inside]
  · simp

theorem mem_zip_map {Item Image : Type} {items : List Item} {image : Item → Image}
    {pair : Item × Image} (member : pair ∈ items.zip (items.map image)) :
    ∃ item ∈ items, (item, image item) = pair := by
  rw [List.zip_map_right, List.mem_map] at member
  obtain ⟨⟨first, second⟩, inside, rfl⟩ := member
  obtain ⟨index, reached, same⟩ := List.mem_iff_getElem.mp inside
  rw [List.getElem_zip, Prod.mk.injEq] at same
  obtain ⟨rfl, rfl⟩ := same
  exact ⟨_, List.getElem_mem _, rfl⟩

variable {crates : Crates} {schema : Schema}

/-- What the writer makes of a complex node with children. -/
theorem writeElement_complex
    (written : writeElement crates schema (levels + 1) name (.complex typeName fields) declared
      isRoot depth = .ok out) (some : fields ≠ []) :
    ∃ decls texts, writerDecls schema (typeName.getD declared) = .ok decls ∧
      List.Forall₂ (fun child text => writeElement crates schema levels child.1 child.2
        (childType decls child.1) false (depth + 1) = .ok text) (expanded fields) texts ∧
      out = pad depth ++ '<' :: name.toList ++ writeAttributes isRoot typeName ++ ['>', '\n'] ++
        texts.flatMap (· ++ ['\n']) ++ pad depth ++ ['<', '/'] ++ name.toList ++ ['>'] := by
  rw [writeElement] at written
  simp only [List.isEmpty_iff, some, ↓reduceIte] at written
  split at written
  · cases written
  · rename_i decls known
    split at written
    · cases written
    · rename_i texts collected
      exact ⟨decls, texts, known, collect_eq_ok.mp collected, (Except.ok.inj written).symm⟩

/-- The tag the writer opens an element with. -/
def tagOf (name : String) (isRoot : Bool) (typeName : Option String) : Tag :=
  ⟨name.toList, attributesOf isRoot typeName, []⟩

theorem name_tagOf (name : String) (isRoot : Bool) (typeName : Option String) :
    (tagOf name isRoot typeName).name = name.toList := rfl

theorem render_tagOf (name : String) (isRoot : Bool) (typeName : Option String) :
    (tagOf name isRoot typeName).render = name.toList ++ writeAttributes isRoot typeName := by
  simp [tagOf, Tag.render, render_attributesOf]

theorem tagOf_valid {name : String} (isRoot : Bool) {typeName : Option String}
    (named : isName name.toList = true)
    (known : ∀ type, typeName = some type → isName type.toList = true) :
    (tagOf name isRoot typeName).valid = true := by
  simp [tagOf, Tag.valid, named, attributesOf_valid isRoot known, attributesOf_nodup]

theorem Schema.NcNames.isName_of_isComplex (names : schema.NcNames) {type : String}
    (complex : schema.isComplex type = true) : isName type.toList = true :=
  isName_of_isNcName (names.types type (.inl complex))

/-- The types a tree names in a schema with XML names are XML names. -/
theorem Everywhere.names_of_typed (typed : Typed schema node) (names : schema.NcNames) :
    Everywhere (fun _ => True) (fun _ => True) (fun name => isName name.toList = true) node :=
  typed.imp (fun _ _ => trivial) (fun _ _ => trivial) fun _ complex =>
    names.isName_of_isComplex complex

theorem pad_blank (depth : Nat) : (pad depth).all isSpace = true := by
  simp [pad, isSpace]

/-- The type a node names. -/
def Node.typeName : Node → Option String
  | .simple _ => none
  | .complex typeName _ => typeName

/-- The node is written as an empty element. -/
def Node.isBare : Node → Bool
  | .simple _ => false
  | .complex _ fields => fields.isEmpty

/-- An element in front of other content, without an end tag where it has no content. -/
def wrapElement (tag : Tag) (bare : Bool) (inner next : Content) : Content :=
  if bare then .empty tag next else .element tag inner [] next

mutual

/-- What the element of a node holds. -/
def contentOf (crates : Crates) (depth : Nat) : Node → Content
  | .simple value => .text ((value.asText crates).toList.map escapePiece) .nil
  | .complex _ fields => if fields.isEmpty then .nil else fieldLines crates depth fields

def fieldLines (crates : Crates) (depth : Nat) : List (String × Field) → Content
  | [] => gap (pad depth) .nil
  | (name, field) :: rest => nodeLines crates depth name field (fieldLines crates depth rest)

def nodeLines (crates : Crates) (depth : Nat) (name : String) : Field → Content → Content
  | .one node, next => gap (pad (depth + 1))
    (wrapElement (tagOf name false node.typeName) node.isBare
      (contentOf crates (depth + 1) node) next)
  | .many nodes, next => itemLines crates depth name nodes next

def itemLines (crates : Crates) (depth : Nat) (name : String) : List Node → Content → Content
  | [], next => next
  | node :: rest, next => gap (pad (depth + 1))
      (wrapElement (tagOf name false node.typeName) node.isBare
      (contentOf crates (depth + 1) node) (itemLines crates depth name rest next))

end

/-- The element the writer makes of a node. -/
def elemOf (crates : Crates) (isRoot : Bool) (depth : Nat) (name : String) (node : Node) : Elem :=
  ⟨tagOf name isRoot node.typeName, contentOf crates depth node⟩

/-- That element in front of other content. -/
def elementOf (crates : Crates) (isRoot : Bool) (depth : Nat) (name : String) (node : Node) :
    Content → Content :=
  wrapElement (tagOf name isRoot node.typeName) node.isBare (contentOf crates depth node)

/-- The elements of a node's children. -/
def childOf (crates : Crates) (depth : Nat) (child : String × Node) : Content → Content :=
  elementOf crates false (depth + 1) child.1 child.2

private theorem itemLines_eq (crates : Crates) (depth : Nat) (name : String) (nodes : List Node)
    (next : Content) :
    itemLines crates depth name nodes next =
      ((nodes.map fun node => (name, node)).map (childOf crates depth)).foldr
      (fun wrap next => gap (pad (depth + 1)) (wrap next)) next := by
  induction nodes with
  | nil => rfl
  | cons node rest ih =>
    rw [itemLines, ih]
    rfl

theorem fieldLines_eq (crates : Crates) (depth : Nat) (fields : List (String × Field)) :
    fieldLines crates depth fields =
      lines (pad (depth + 1)) (pad depth) ((expanded fields).map (childOf crates depth)) := by
  induction fields with
  | nil => rfl
  | cons field rest ih =>
    obtain ⟨name, field⟩ := field
    have split : expanded ((name, field) :: rest) = field.nodes.map (fun node => (name, node)) ++
        expanded rest := by
      simp [expanded]
    rw [split, List.map_append, lines, List.foldr_append, ← lines, ← ih, fieldLines]
    cases field with
    | one node => rfl
    | many nodes => exact itemLines_eq crates depth name nodes _

theorem contentOf_complex (crates : Crates) (depth : Nat) (typeName : Option String)
    {fields : List (String × Field)} (some : fields ≠ []) :
    contentOf crates depth (.complex typeName fields) =
      lines (pad (depth + 1)) (pad depth) ((expanded fields).map (childOf crates depth)) := by
  rw [contentOf, if_neg (by simpa using some), fieldLines_eq]

theorem elements_elementOf (crates : Crates) (isRoot : Bool) (depth : Nat)
    (name : String) (node : Node) (next : Content) :
    (elementOf crates isRoot depth name node next).elements =
      elemOf crates isRoot depth name node :: next.elements := by
  rw [elementOf, wrapElement, elemOf]
  split
  · rename_i bare
    cases node with
    | simple => cases bare
    | complex typeName fields =>
      rw [Node.isBare] at bare
      rw [contentOf, if_pos bare]
      rfl
  · rfl

/-- What the writer appends is the element of the node. -/
theorem render_elementOf
    (written : writeElement crates schema levels name node declared isRoot depth = .ok out)
    (next : Content) :
    pad depth ++ (elementOf crates isRoot depth name node next).render = out ++ next.render := by
  induction levels generalizing name node declared isRoot depth out next with
  | zero => cases written
  | succ levels ih =>
    cases node with
    | simple value =>
      rw [writeElement, ← writeAttributes_none] at written
      cases written
      simp only [elementOf, wrapElement, Node.isBare, Bool.false_eq_true, ↓reduceIte,
        Content.render, Content.renderStart, render_tagOf, contentOf, render_escapePieces,
          Content.renderEnd, name_tagOf, Node.typeName,
        List.append_assoc, List.cons_append, List.nil_append, List.append_nil]
    | complex typeName fields =>
      by_cases bare : fields = []
      · subst bare
        rw [writeElement] at written
        cases written
        simp only [elementOf, wrapElement, Node.isBare, List.isEmpty_nil, ↓reduceIte,
          Content.render, Content.renderEmpty, render_tagOf, Node.typeName, List.append_assoc,
            List.cons_append, List.nil_append]
      · obtain ⟨decls, texts, -, each, rfl⟩ := writeElement_complex written bare
        have inner : (contentOf crates depth (.complex typeName fields)).render =
            '\n' :: texts.flatMap (· ++ ['\n']) ++ pad depth := by
          rw [contentOf_complex crates depth typeName bare]
          have padded : List.Forall₂ (fun child text => ∀ next,
              pad (depth + 1) ++ (childOf crates depth child next).render = text ++ next.render)
              (expanded fields) texts := each.imp fun _ _ here next => ih here next
          exact render_lines padded
        simp only [elementOf, wrapElement, Node.isBare, List.isEmpty_iff, bare, ↓reduceIte,
          Content.render, Content.renderStart, render_tagOf, inner, Content.renderEnd, name_tagOf,
            Node.typeName,
          List.append_assoc, List.cons_append, List.nil_append, List.append_nil]

/-- The child elements of a complex node's element. -/
theorem elements_elemOf (crates : Crates) (isRoot : Bool) (depth : Nat) (name : String)
    (typeName : Option String) (fields : List (String × Field)) :
    (elemOf crates isRoot depth name (.complex typeName fields)).inner.elements =
      (expanded fields).map fun child => elemOf crates false (depth + 1) child.1 child.2 := by
  by_cases bare : fields = []
  · subst bare
    rfl
  · rw [elemOf, contentOf_complex crates depth typeName bare]
    exact elements_lines fun child _ next => elements_elementOf crates _ _ _ _ next

/-- The element of a node with carriable texts stands for it. -/
theorem mirrors_elemOf (leaves : TextualLeaves crates node) (isRoot : Bool) (depth : Nat)
    (name : String) :
    Mirrors crates name node (elemOf crates isRoot depth name node) := by
  induction leaves generalizing isRoot depth name with
  | simple textual =>
    have noReturn : '\r' ∉ (Simple.asText crates _).toList := fun member => (textual _ member).2 rfl
    refine .simple rfl rfl ?_
    simp [elemOf, contentOf, Content.charData, pieceChars_escapePieces noReturn]
  | @complex typeName fields _ _ _ ih =>
    have elements := elements_elemOf crates isRoot depth name typeName fields
    refine .complex rfl (by rw [elements, List.length_map]) fun pair member => ?_
    rw [elements] at member
    obtain ⟨child, inside, rfl⟩ := mem_zip_map member
    exact ih child inside false (depth + 1) child.1

/-- Its element is well formed and can stand in front of other content. -/
theorem elementOf_wraps
    (types : Everywhere (fun _ => True) (fun _ => True)
      (fun name => isName name.toList = true) node)
    (children : Named node) (leaves : TextualLeaves crates node) (named : isName name.toList = true)
    (isRoot : Bool) (depth : Nat) :
    ∃ text, Wraps (elementOf crates isRoot depth name node)
      (elemOf crates isRoot depth name node) text := by
  induction types generalizing name isRoot depth with
  | simple =>
    cases leaves with
    | simple textual =>
      refine ⟨_, .element (tagOf_valid isRoot named (by simp [Node.typeName])) ?_⟩
      have pieces := escapePieces_valid fun c member => (textual c member).1
      simp [contentOf, Content.valid, pieces, render_escapePieces, occurs_escape,
        Content.startsWithText]
  | @complex typeName fields known _ _ ih =>
    cases children with
    | complex _ labels children =>
    cases leaves with
    | complex _ _ leaves =>
      have tag : (tagOf name isRoot typeName).valid = true :=
        tagOf_valid isRoot named known
      by_cases bare : fields = []
      · subst bare
        exact ⟨_, .empty tag⟩
      · have inner : (contentOf crates depth (.complex typeName fields)).valid = true := by
          rw [contentOf_complex crates depth typeName bare]
          refine lines_valid (pad_blank (depth + 1)) (pad_blank depth) fun child inside => ?_
          obtain ⟨text, wraps⟩ := ih child inside (children child inside) (leaves child inside)
            (labels child inside) false (depth + 1)
          exact ⟨_, text, wraps⟩
        have element : elementOf crates isRoot depth name (.complex typeName fields) =
            .element (tagOf name isRoot typeName)
                (contentOf crates depth (.complex typeName fields)) [] := by
          funext next
          simp [elementOf, wrapElement, Node.isBare, bare, Node.typeName]
        rw [element]
        exact ⟨_, .element tag inner⟩

private theorem unreferenced_attribute {name value : List Char} (named : isName name = true)
    (plain : '&' ∉ value) : Unreferenced (plainAttribute name value).render := by
  have absent : '&' ∉ name := notMem_of_isName named (by decide)
  rw [render_plainAttribute]
  exact .plain (by simp [absent, plain])

theorem unreferenced_writeAttributes (isRoot : Bool) {typeName : Option String}
    (known : ∀ type, typeName = some type → isName type.toList = true) :
    Unreferenced (writeAttributes isRoot typeName) := by
  rw [← render_attributesOf]
  refine .flatMap fun attr listed => ?_
  rcases List.mem_append.mp listed with inRoot | typing
  · have same : attr = defaultNs := by
      cases isRoot <;> simp at inRoot
      exact inRoot
    exact same ▸ unreferenced_attribute (by decide) (by decide)
  · cases typeName with
    | none => simp at typing
    | some type =>
      simp only [List.mem_cons, List.not_mem_nil, or_false] at typing
      rcases typing with rfl | rfl
      · exact unreferenced_attribute (by decide) (by decide)
      · exact unreferenced_attribute (by decide) (notMem_of_isName (known type rfl) (by decide))

/-- Whatever its leaves hold, a message with carriable names is written without
character references. -/
theorem writeElement_unreferenced (names : schema.NcNames)
    (written : writeElement crates schema levels name node declared isRoot depth = .ok out)
    (named : isName name.toList = true) (children : Named node) (typed : Typed schema node) :
    Unreferenced out := by
  have label := Unreferenced.name named
  have start : Unreferenced ('<' :: name.toList) := label.cons (by decide)
  have blank (depth : Nat) : Unreferenced (pad depth) := .plain (by simp [pad])
  induction levels generalizing name node declared isRoot depth out with
  | zero => cases written
  | succ levels ih =>
    cases node with
    | simple value =>
      rw [writeElement, ← writeAttributes_none] at written
      cases written
      have attributes : Unreferenced (writeAttributes isRoot none) :=
        unreferenced_writeAttributes isRoot (by simp)
      have opening := ((blank depth).append start).append attributes
      have close : Unreferenced ['>'] := .plain (by decide)
      have content := (opening.append close).append (.escape (value.asText crates).toList)
      exact ((content.append (.plain (by decide))).append label).append (.plain (by decide))
    | complex typeName fields =>
      cases typed with
      | complex known _ typed =>
      cases children with
      | complex _ labels children =>
        have attributes : Unreferenced (writeAttributes isRoot typeName) :=
          unreferenced_writeAttributes isRoot fun type same =>
            names.isName_of_isComplex (known type same)
        have opening := ((blank depth).append start).append attributes
        by_cases bare : fields = []
        · subst bare
          rw [writeElement] at written
          cases written
          exact opening.append (.plain (by decide))
        · obtain ⟨decls, texts, -, each, rfl⟩ := writeElement_complex written bare
          have below : ∀ text ∈ texts, Unreferenced (text ++ ['\n']) := by
            intro text member
            rw [List.forall₂_iff_zip] at each
            obtain ⟨child, paired⟩ := exists_zip_right each.1 member
            have inside := (List.of_mem_zip paired).1
            have label := Unreferenced.name (labels child inside)
            have lower := ih (each.2 paired) (labels child inside) (children child inside)
              (typed child inside) label (label.cons (by decide))
            exact lower.append (.plain (by decide))
          have close : Unreferenced ['>', '\n'] := .plain (by decide)
          have content := (opening.append close).append (.flatMap below)
          exact (((content.append (blank depth)).append (.plain (by decide))).append label).append
            (.plain (by decide))

/-- An element of well-formed content written without character references can
only stand for a node with carriable names and texts. -/
theorem Mirrors.carriable (mirrors : Mirrors crates label node elem)
    (valid : elem.inner.valid = true) (plain : ¬ ['&', '#'] <:+: elem.inner.render) :
    TextualLeaves crates node := by
  induction mirrors with
  | simple _ _ data =>
    refine .simple fun c member => ?_
    rw [← data] at member
    refine ⟨Content.isChar_of_charData valid c member, ?_⟩
    rintro rfl
    exact plain (Content.reference_of_return member)
  | complex _ count each ih =>
    refine .complex (fun _ _ => trivial) (fun _ _ => trivial) fun pair member => ?_
    obtain ⟨below, paired⟩ := exists_zip_left count member
    have inside := (List.of_mem_zip paired).2
    exact ih _ paired (Content.elements_valid valid below inside).2
      fun found => plain (found.trans (Content.elements_infix below inside))

theorem Mirrors.name_eq (mirrors : Mirrors crates label node elem) :
    elem.tag.name = label.toList := by
  cases mirrors <;> assumption

theorem Mirrors.named (mirrors : Mirrors crates label node elem) (valid : elem.inner.valid = true) :
    Named node := by
  induction mirrors with
  | simple => exact .simple trivial
  | complex _ count each ih =>
    refine .complex (fun _ _ => trivial) (fun pair member => ?_) fun pair member => ?_
    · obtain ⟨below, paired⟩ := exists_zip_left count member
      have tag := (Content.elements_valid valid below (List.of_mem_zip paired).2).1
      have same : below.tag.name = pair.1.toList := (each _ paired).name_eq
      exact same ▸ Tag.isName_of_valid tag
    · obtain ⟨below, paired⟩ := exists_zip_left count member
      exact ih _ paired (Content.elements_valid valid below (List.of_mem_zip paired).2).2

/-- The declaration every document of the writer starts with. -/
def header : Declaration where
  version := plainAttribute "version".toList "1.0".toList
  encoding := some (plainAttribute "encoding".toList "UTF-8".toList)
  standalone := none
  space := []

/-- The writer's document around its root element. -/
def documentOf (wrap : Content → Content) : Document :=
  ⟨some header, gap [] .nil, wrap .nil, gap [] .nil⟩

/-- The document a message is written as. -/
def writtenDocument (crates : Crates) (message : Message) : Document :=
  documentOf (elementOf crates true 0 message.name message.body)

theorem toXml_cases (written : toXml crates schema message = .ok out) :
    ∃ declared element, writeElement crates schema (maxDepth + 1) message.name message.body
      declared true 0 =
        .ok element ∧
      out = .ofList ((header.render ++ ['\n']) ++ element ++ ['\n']) := by
  have first : "<?xml version=\"1.0\" encoding=\"UTF-8\"?>\n".toList = header.render ++
    ['\n'] := by decide
  rw [toXml] at written
  split at written
  · cases written
  · rename_i element body
    exact ⟨_, element, body, ((Except.ok.inj written).symm.trans
      (congrArg (fun front => String.ofList (front ++ element ++ ['\n'])) first))⟩

theorem header_valid : header.valid = true := by decide

theorem documentOf_valid (wraps : Wraps wrap elem text) : (documentOf wrap).valid = true := by
  have space : (gap [] .nil).valid = true := gap_valid rfl rfl rfl
  simp only [documentOf, Document.valid, Option.all_some, header_valid, space, wraps.root,
    wraps.valid .nil rfl, Bool.true_and, Bool.and_true]
  rfl

theorem render_documentOf (wrap : Content → Content) :
    (documentOf wrap).render = (header.render ++ ['\n']) ++ (wrap .nil).render ++ ['\n'] := by
  simp only [Document.render, Document.renderDeclaration, documentOf, render_gap, Content.render,
    List.append_nil]

/-- Whatever a message holds, its document is what the writer writes. -/
theorem render_writtenDocument (written : toXml crates schema message = .ok out) :
    String.ofList (writtenDocument crates message).render = out := by
  obtain ⟨declared, element, body, rfl⟩ := toXml_cases written
  rw [writtenDocument, render_documentOf, ← List.append_nil element, ← Content.render,
    ← render_elementOf body]
  rfl

theorem writtenDocument_valid
    (types : Everywhere (fun _ => True) (fun _ => True) (fun name => isName name.toList = true)
      message.body)
    (children : Named message.body) (leaves : TextualLeaves crates message.body)
    (named : isName message.name.toList = true) :
    (writtenDocument crates message).valid = true := by
  obtain ⟨text, wraps⟩ := elementOf_wraps types children leaves named true 0
  exact documentOf_valid wraps

theorem exists_document (names : schema.NcNames) (read : fromJson crates schema text = .ok message)
    (written : toXml crates schema message = .ok out) (children : Named message.body)
    (leaves : TextualLeaves crates message.body) :
    ∃ document : Document, String.ofList document.render = out ∧
      Represents crates document message := by
  obtain ⟨global, typed⟩ := fromJson_cases read
  have named := isName_of_isNcName (names.globals message.name global)
  refine ⟨writtenDocument crates message, render_writtenDocument written,
    writtenDocument_valid (typed.names_of_typed names) children leaves named,
      elemOf crates true 0 message.name message.body, ?_,
    mirrors_elemOf leaves _ _ _⟩
  rw [Document.rootElement, writtenDocument, documentOf, elements_elementOf]
  rfl

theorem carriable_of_document (names : schema.NcNames)
    (read : fromJson crates schema text = .ok message)
    (written : toXml crates schema message = .ok out) {document : Document}
    (same : String.ofList document.render = out) (represents : Represents crates document message) :
    Named message.body ∧ TextualLeaves crates message.body := by
  obtain ⟨global, typed⟩ := fromJson_cases read
  obtain ⟨declared, element, body, rfl⟩ := toXml_cases written
  obtain ⟨valid, root, first, mirrors⟩ := represents
  have member : root ∈ document.root.elements := List.mem_of_mem_head? first
  have named := isName_of_isNcName (names.globals message.name global)
  simp only [Document.valid, Bool.and_eq_true] at valid
  have inner := (Content.elements_valid valid.1.1.2 root member).2
  have children := mirrors.named inner
  have unreferenced := writeElement_unreferenced names body named children typed
  refine ⟨children, mirrors.carriable inner fun found => ?_⟩
  have opening : Unreferenced (header.render ++ ['\n']) := .plain (by decide)
  have absent := (opening.append unreferenced) ['\n'] (by decide)
  have inRoot : document.root.render <:+: document.render :=
    ⟨document.renderDeclaration ++ document.prolog.render, document.epilog.render, rfl⟩
  have present :=
    occurs_iff_infix.mpr ((found.trans (Content.elements_infix root member)).trans inRoot)
  rw [String.ofList_inj.mp same, absent] at present
  cases present

/-- The writer's output is a well-formed document with the element tree of its
message exactly when the message's names are XML names and its texts are ones
XML can carry. The writer puts names into the output as they are, and escapes
only the three markup characters of a text. -/
theorem toXml_represents_iff (names : schema.NcNames)
    (read : fromJson crates schema text = .ok message)
    (written : toXml crates schema message = .ok out) :
    (∃ document : Document, String.ofList document.render = out ∧
      Represents crates document message) ↔
      Named message.body ∧ TextualLeaves crates message.body := by
  constructor
  · rintro ⟨document, same, represents⟩
    exact carriable_of_document names read written same represents
  · rintro ⟨children, leaves⟩
    exact exists_document names read written children leaves

end Write

section Samples
open Xml

/-- A report with one declared field. -/
def reportSchema : Schema where
  globalElements := Finmap.insert "Report" "ReportType" ∅
  complexTypes := Finmap.insert "ReportType"
    ⟨false, .groups [⟨.sequence, [⟨"Count", "xs:int", 1, .bounded 1⟩]⟩]⟩ ∅
  simpleTypes := ∅

theorem reportSchema_ncNames : reportSchema.NcNames where
  globals name known := by
    have same : name = "Report" := by
      by_contra other
      simp [Schema.globalType, reportSchema, other] at known
    subst same
    decide
  types name known := by
    have same : name = "ReportType" := by
      by_contra other
      simp [Schema.isComplex, reportSchema, other] at known
    subst same
    decide
  elements name decls flat := by
    have same : name = "ReportType" := by
      by_contra other
      simp [Schema.flatten, Schema.groups, Schema.groupsChain, reportSchema, other] at flat
    subst same
    have only : decls = [⟨"Count", "xs:int", 1, .bounded 1⟩] := (Except.ok.inj flat).symm
    subst only
    decide

def reportText (member value : String) : String :=
  "\x7b\"Report\":\x7b\"" ++ member ++ "\":\"" ++ value ++ "\"\x7d\x7d"

/-- A JSON parser that knows one report with one member. -/
def reportCrates (member value : String) : Crates where
  jsonParse text :=
    if text = reportText member value then
      .ok (.object [("Report", .object [(member, .string value)])])
    else .error "expected value"
  jsonPrint _ := ""
  floatPrint _ := ""
  floatDisplay _ := ""
  xmlParse _ := .error "unknown token"
  regex _ := none
  hexUpper := upperHex

def reportOf (member value : String) : Message :=
  ⟨"Report", .complex none [(member, .one (.simple (.string value)))]⟩

def reportXml (element : String) : String :=
  "<?xml version=\"1.0\" encoding=\"UTF-8\"?>\n" ++
    "<Report xmlns=\"https://www.vdl.afrl.af.mil/programs/oam\">\n  " ++ element ++ "\n</Report>\n"

set_option maxRecDepth 4000 in
theorem toXml_represents_note :
    ∃ document : Document, String.ofList document.render = reportXml "<Note>a&lt;b</Note>" ∧
      Represents (reportCrates "Note" "a<b") document (reportOf "Note" "a<b") := by
  have read : fromJson (reportCrates "Note" "a<b") reportSchema (reportText "Note" "a<b") =
      .ok (reportOf "Note" "a<b") := rfl
  have written : toXml (reportCrates "Note" "a<b") reportSchema (reportOf "Note" "a<b") =
      .ok (reportXml "<Note>a&lt;b</Note>") := by decide +kernel
  refine (toXml_represents_iff reportSchema_ncNames read written).mpr ⟨?_, ?_⟩
  · refine .complex (fun _ _ => trivial) (fun pair member => ?_) fun pair member => ?_
    · cases List.mem_singleton.mp member
      decide
    · cases List.mem_singleton.mp member
      exact .simple trivial
  · refine .complex (fun _ _ => trivial) (fun _ _ => trivial) fun pair member => ?_
    cases List.mem_singleton.mp member
    have textual : ∀ c ∈ "a<b".toList, isChar c = true ∧ c ≠ '\r' :=
      List.all_iff_forall_prop.mp (by decide)
    exact .simple textual

set_option maxRecDepth 4000 in
/-- A client's member name closes its own tag and opens a second element. -/
theorem toXml_foreignMarkup :
    reportSchema.NcNames ∧
    fromJson (reportCrates "a><b" "7") reportSchema (reportText "a><b" "7") =
      .ok (reportOf "a><b" "7") ∧
    toXml (reportCrates "a><b" "7") reportSchema (reportOf "a><b" "7") =
      .ok (reportXml "<a><b>7</a><b>") ∧
    ¬ ∃ document : Document, String.ofList document.render = reportXml "<a><b>7</a><b>" ∧
      Represents (reportCrates "a><b" "7") document (reportOf "a><b" "7") := by
  have read : fromJson (reportCrates "a><b" "7") reportSchema (reportText "a><b" "7") =
      .ok (reportOf "a><b" "7") := rfl
  have written : toXml (reportCrates "a><b" "7") reportSchema (reportOf "a><b" "7") =
      .ok (reportXml "<a><b>7</a><b>") := by decide +kernel
  refine ⟨reportSchema_ncNames, read, written, ?_⟩
  rintro ⟨document, same, represents⟩
  cases (carriable_of_document reportSchema_ncNames read written same represents).1 with
  | complex _ children _ => exact absurd (children _ (List.mem_singleton_self _)) (by decide)

end Samples

end OaGateway.Uci
