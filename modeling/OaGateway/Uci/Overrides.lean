import OaGateway.Uci.XmlTrip

/-! Which of the types a message names are still named after a trip through XML. -/
namespace OaGateway.Uci

open Lib

variable {crates : Crates} {schema : Schema}

/-- Every complex node names the type its counterpart does: children are
counterparts one by one, repeating groups expanded. -/
inductive SameTypes : Node → Node → Prop where
  | simple : SameTypes (.simple value) (.simple other)
  | complex (count : (expanded fields).length = (expanded others).length)
      (names : ∀ pair ∈ (expanded fields).zip (expanded others), pair.1.1 = pair.2.1)
      (each : ∀ pair ∈ (expanded fields).zip (expanded others), SameTypes pair.1.2 pair.2.2) :
      SameTypes (.complex typeName fields) (.complex typeName others)

theorem SameTypes.typeName_eq (same : SameTypes node other) : node.typeName = other.typeName := by
  cases same <;> rfl

/-- A child is settled as the type the effective type of its parent gives it. -/
theorem Settled.child (settled : Settled schema (levels + 1) (.complex typeName fields) declared)
    (flat : schema.flatten (typeName.getD declared) = .ok decls) {pair : String × Node}
    (member : pair ∈ expanded fields) : Settled schema levels pair.2 (childType decls pair.1) := by
  obtain ⟨-, -, others, same, below⟩ := settled
  cases Except.ok.inj (flat.symm.trans same)
  have each : ∀ pair ∈ expanded fields, Settled schema levels pair.2 (childType decls pair.1) :=
    forall_expanded.mpr fun field listed node inside => (below field listed).2 node inside
  exact each pair member

theorem Writable.child (writable : Writable schema (levels + 1) (.complex typeName fields) declared)
    (flat : schema.flatten (typeName.getD declared) = .ok decls) {pair : String × Node}
    (member : pair ∈ expanded fields) : Writable schema levels pair.2 (childType decls pair.1) := by
  obtain ⟨-, others, same, below⟩ := writable
  rw [writerDecls, isComplex_of_flatten flat] at same
  cases Except.ok.inj (flat.symm.trans same)
  have each : ∀ pair ∈ expanded fields, Writable schema levels pair.2 (childType decls pair.1) :=
    forall_expanded.mpr below
  exact each pair member

/-- An element that shows a node as the reader of JSON made it is read into one
that names the same types. -/
theorem sameTypes_of_shown (settled : Settled schema levels node declared)
    (writable : Writable schema levels node declared) (shows : Shows crates label node xml)
    (read : readElement schema levels xml declared path = .ok back) : SameTypes node back := by
  induction levels generalizing node declared label xml path back with
  | zero => cases read
  | succ levels ih =>
    cases shows with
    | simple name untyped text =>
      rw [readElement_leaf settled.1] at read
      cases read
      exact .simple
    | @complex _ _ typeName fields name typed count each =>
      obtain ⟨complex, different, decls, flat, -⟩ := id settled
      have actual := actualType_shown typed flat
      obtain ⟨leaf, -⟩ | ⟨-, found, backs, same, fromFields, rfl⟩ := readElement_inv read
      · exact absurd leaf complex
      · rw [actual] at same
        cases Except.ok.inj (flat.symm.trans same)
        have shown : List.Forall₂ (fun (pair : String × Node) child =>
          Shows crates pair.1 pair.2 child)
            (expanded fields) (fieldElements xml) := by
          rw [← show grouped Prod.fst (expanded fields) =
            expanded fields from grouped_spread writable.1.1]
          exact forall₂_grouped (List.forall₂_iff_zip.mpr ⟨count, fun member => each _ member⟩)
            fun _ _ here => here.localName_eq.symm
        obtain ⟨length, paired⟩ := List.forall₂_iff_zip.mp (forall₂_comp shown fromFields.each)
        rw [actual, overriding_getD different]
        refine .complex length (fun pair member => ?_) fun pair member => ?_
        · obtain ⟨child, here, named, -⟩ := paired member
          exact here.localName_eq.symm.trans named
        · obtain ⟨child, here, named, place, there⟩ := paired member
          have inside := (List.of_mem_zip member).1
          rw [← here.localName_eq.symm.trans named] at there
          exact ih (settled.child flat inside) (writable.child flat inside) here there

/-- The types below the root of a message come back from its XML, and the one
the root names does not: the reader takes it for the declared one. So all of
them come back exactly when the root names none. -/
theorem overrides_survive_iff (names : schema.NcNames) (parsed : crates.jsonParse text = .ok value)
    (sorted : value.Sorted) (read : fromJson crates schema text = .ok message)
    (children : Everywhere (fun _ => True) (fun name => Xml.isNcName name.toList = true)
      (fun _ => True) message.body)
    (leaves : TextualLeaves crates message.body) (written : toXml crates schema message = .ok out)
    (reparsed : (writtenDocument crates message).Namespaced →
      crates.xmlParse (.ofList (writtenDocument crates message).render) =
        .ok (writtenDocument crates message).tree)
    (accepted : fromXml crates schema out = .ok back) :
    SameTypes message.body back.body ↔ message.body.typeName = none := by
  obtain ⟨body, rfl, global, here⟩ := fromJson_inv parsed read
  have typed := (fromJson_cases read).2
  have carriable : Carriable crates message.body := leaves.carriable children names typed
  obtain ⟨formed, shows⟩ := writtenDocument_formed carriable (names.globals _ global)
  rw [← render_writtenDocument written] at accepted
  obtain ⟨-, named, -, there⟩ := fromXml_inv (reparsed formed) accepted
  have same : back.name = message.name := named.trans shows.localName_eq
  constructor
  · intro survived
    exact survived.typeName_eq.trans (typeName_of_root there)
  · intro bare
    cases sorted with
    | object _ each =>
      obtain ⟨settled, writable, -⟩ := readNode_normal (each _ (List.mem_singleton_self _)) here
      rw [shows.xsiType_eq, bare, Option.getD_none, Schema.declaredType, same,
        ← Schema.declaredType] at there
      exact sameTypes_of_shown settled writable shows there

section Samples
open Lib.Json

/-- A report whose detail may be of a type that extends the declared one. -/
def detailSchema : Schema where
  globalElements := Finmap.insert "Report" "ReportType" ∅
  complexTypes := Finmap.insert "ReportType"
      ⟨false, .groups [⟨.sequence, [⟨"Detail", "DetailType", 0, .bounded 1⟩]⟩]⟩
    (Finmap.insert "WideReportType" ⟨false, .extension "ReportType" []⟩
      (Finmap.insert "DetailType" ⟨false, .groups []⟩
        (Finmap.insert "WideDetailType" ⟨false, .extension "DetailType" []⟩ ∅)))
  simpleTypes := ∅

theorem detailSchema_types (known : detailSchema.isComplex name = true) :
    name = "ReportType" ∨ name = "WideReportType" ∨ name = "DetailType" ∨
      name = "WideDetailType" := by
  by_contra other
  simp only [not_or] at other
  simp [Schema.isComplex, detailSchema, other] at known

theorem detailSchema_ncNames : detailSchema.NcNames where
  globals name known := by
    have same : name = "Report" := by
      by_contra other
      simp [Schema.globalType, detailSchema, other] at known
    subst same
    decide
  types name known := by
    have complex : detailSchema.isComplex name = true := by simpa [detailSchema] using known
    rcases detailSchema_types complex with rfl | rfl | rfl | rfl <;> decide
  elements name decls flat := by
    rcases detailSchema_types (isComplex_of_flatten flat) with rfl | rfl | rfl | rfl <;>
      cases flat <;> decide

def detailText (body : String) : String := "\x7b\"Report\":" ++ body ++ "\x7d"

/-- Crates that know one report, in JSON and as the document of its message. -/
def detailCrates (body : String) (value : Value) (message : Message) : Crates :=
  { documentCrates [writtenDocument bareCrates message] with
    jsonParse := fun text =>
      if text = detailText body then .ok (.object [("Report", value)])
        else .error "expected value" }

theorem detailCrates_xmlParse : (detailCrates body value message).xmlParse =
    (documentCrates [writtenDocument bareCrates message]).xmlParse := rfl

theorem reparse_of_known {message : Message}
    (known : crates.xmlParse = (documentCrates [writtenDocument bareCrates message]).xmlParse)
    (same : writtenDocument crates message = writtenDocument bareCrates message) :
    crates.xmlParse (.ofList (writtenDocument crates message).render) =
      .ok (writtenDocument crates message).tree := by
  rw [known, same]
  exact documentCrates_parse List.mem_cons_self fun other listed _ => List.mem_singleton.mp listed

def wideDetail : Message :=
  ⟨"Report", .complex none [("Detail", .one (.complex (some "WideDetailType") []))]⟩

def wideDetailText : String := "\x7b\"Detail\":\x7b\"$type\":\"WideDetailType\"\x7d\x7d"

def wideDetailCrates : Crates :=
  detailCrates wideDetailText (.object [("Detail", .object [("$type", .string "WideDetailType")])])
    wideDetail

theorem wideDetail_everywhere (known : types "WideDetailType") (labels : names "Detail") :
    Everywhere leaves names types wideDetail.body := by
  refine .complex (by simp) (fun pair member => ?_) fun pair member => ?_
  · cases List.mem_singleton.mp member
    exact labels
  · cases List.mem_singleton.mp member
    exact .complex (by simpa using known) (by simp [expanded]) (by simp [expanded])

theorem overrides_survive_below :
    fromXml wideDetailCrates detailSchema
      (.ofList (writtenDocument wideDetailCrates wideDetail).render) =
        .ok wideDetail ∧
      SameTypes wideDetail.body wideDetail.body := by
  have read : fromJson wideDetailCrates detailSchema (detailText wideDetailText) =
    .ok wideDetail := rfl
  obtain ⟨out, written⟩ : ∃ out, toXml wideDetailCrates detailSchema wideDetail =
    .ok out := ⟨_, rfl⟩
  have reparsed := @reparse_of_known wideDetailCrates wideDetail detailCrates_xmlParse rfl
  have shallow : wideDetail.body.within maxDepth := by
    intro pair member
    cases List.mem_singleton.mp member
    intro pair member
    simp [expanded] at member
  have accepted : fromXml wideDetailCrates detailSchema
      (.ofList (writtenDocument wideDetailCrates wideDetail).render) = .ok wideDetail := by
    rw [fromXml_writtenDocument (wideDetail_everywhere (by decide) (by decide))
      (by decide) rfl shallow
      fun _ => reparsed]
    rfl
  refine ⟨accepted, ?_⟩
  rw [render_writtenDocument written] at accepted
  refine (overrides_survive_iff detailSchema_ncNames rfl ?_ read ?_ ?_ written (fun _ => reparsed)
    accepted).mpr rfl
  · exact Json.Value.Sorted.string.single.single.single
  · exact wideDetail_everywhere trivial (by decide)
  · exact wideDetail_everywhere trivial trivial

def wideReport : Message := ⟨"Report", .complex (some "WideReportType") []⟩

def wideReportText : String := "\x7b\"$type\":\"WideReportType\"\x7d"

def wideReportCrates : Crates :=
  detailCrates wideReportText (.object [("$type", .string "WideReportType")]) wideReport

theorem wideReport_everywhere (known : types "WideReportType") :
    Everywhere leaves names types wideReport.body :=
  .complex (by simpa using known) (by simp [expanded]) (by simp [expanded])

/-- The type a report names is written and not read. -/
theorem override_lost :
    detailSchema.NcNames ∧
    fromJson wideReportCrates detailSchema (detailText wideReportText) = .ok wideReport ∧
    toXml wideReportCrates detailSchema wideReport =
      .ok (.ofList (writtenDocument wideReportCrates wideReport).render) ∧
    (writtenDocument wideReportCrates wideReport).Namespaced ∧
    wideReportCrates.xmlParse (.ofList (writtenDocument wideReportCrates wideReport).render) =
      .ok (writtenDocument wideReportCrates wideReport).tree ∧
    fromXml wideReportCrates detailSchema
      (.ofList (writtenDocument wideReportCrates wideReport).render) =
      .ok ⟨"Report", .complex none []⟩ ∧
    ¬ SameTypes wideReport.body (.complex none []) := by
  have carriable : Carriable wideReportCrates wideReport.body := wideReport_everywhere (by decide)
  have reparsed := @reparse_of_known wideReportCrates wideReport detailCrates_xmlParse rfl
  refine ⟨detailSchema_ncNames, rfl, ?_, ?_, reparsed, ?_, ?_⟩
  · obtain ⟨out, written⟩ : ∃ out, toXml wideReportCrates detailSchema wideReport =
      .ok out := ⟨_, rfl⟩
    rw [written, render_writtenDocument written]
  · exact (writtenDocument_formed carriable (by decide)).1
  · have shallow : wideReport.body.within maxDepth := by
      intro pair member
      simp [expanded] at member
    rw [fromXml_writtenDocument carriable (by decide) rfl shallow fun _ => reparsed]
    rfl
  · intro same
    cases same.typeName_eq

end Samples

end OaGateway.Uci
