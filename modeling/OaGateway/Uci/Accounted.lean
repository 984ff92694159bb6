import OaGateway.Uci.XmlReader

/-! Which elements of a document a clean message accounts for. -/
namespace OaGateway.Uci

open Lib

variable {crates : Crates} {schema : Schema}

/-- Every element below `xml` is declared in the effective type of its parent,
and has a node of its own. -/
inductive Accounted (schema : Schema) : String → Xml.Node → Node → Prop where
  | simple (bare : xml.elements = []) : Accounted schema declared xml (.simple value)
  | complex (flat : schema.flatten (typeName.getD declared) = .ok decls)
      (declares : ∀ child ∈ xml.elements, ∃ decl ∈ decls, decl.name = child.localName)
      (count : (fieldElements xml).length = (expanded fields).length)
      (names : ∀ pair ∈ (fieldElements xml).zip (expanded fields), pair.1.localName = pair.2.1)
      (below : ∀ pair ∈ (fieldElements xml).zip (expanded fields),
        Accounted schema (childType decls pair.2.1) pair.1 pair.2.2) :
      Accounted schema declared xml (.complex typeName fields)

/-- No element that is read as a leaf has child elements. -/
def LeavesBare (schema : Schema) : Nat → Xml.Node → String → Prop
  | 0, _, _ => True
  | levels + 1, xml, typeName =>
    if schema.isLeaf typeName then xml.elements = []
    else ∀ decls, schema.flatten (actualType schema xml typeName) = .ok decls →
      ∀ child ∈ xml.elements, LeavesBare schema levels child (childType decls child.localName)

/-- The reader and the validator may see an element as two types. Between them
they account for what is below it when no leaf has child elements. -/
theorem accounted_iff_leavesBare (read : readElement schema levels xml typeName path = .ok node)
    (clean : Clean crates schema levels node declared) :
    Accounted schema declared xml node ↔ LeavesBare schema levels xml typeName := by
  induction levels generalizing xml typeName path node declared with
  | zero => cases read
  | succ levels ih =>
    rw [LeavesBare]
    obtain ⟨leaf, rfl⟩ | ⟨complex, decls, fields, flat, fromFields, rfl⟩ := readElement_inv read
    · rw [if_pos leaf]
      refine ⟨fun accounted => ?_, .simple⟩
      cases accounted with
      | simple bare => exact bare
    · rw [if_neg complex]
      obtain ⟨-, groups, usable, quiet, below⟩ := clean
      have judged := flatten_of_groups usable
      obtain ⟨count, paired⟩ := List.forall₂_iff_zip.mp fromFields.each
      have inner : ∀ pair ∈ (fieldElements xml).zip (expanded fields),
          (Accounted schema (childType (groups.flatMap (·.elements)) pair.2.1) pair.1 pair.2.2 ↔
            LeavesBare schema levels pair.1 (childType decls pair.1.localName)) := by
        intro pair member
        obtain ⟨named, place, here⟩ := paired member
        rw [named]
        exact ih here (below pair.2 (List.of_mem_zip member).2)
      constructor
      · intro accounted others same child member
        cases Except.ok.inj (flat.symm.trans same)
        cases accounted with
        | complex other _ _ _ each =>
          cases Except.ok.inj (judged.symm.trans other)
          have listed := (perm_fieldElements xml).mem_iff.mpr member
          obtain ⟨pair, zipped⟩ := exists_zip_left count listed
          exact (inner _ zipped).mp (each _ zipped)
      · intro bare
        refine .complex judged (fun child member => ?_) count
          (fun pair member => (paired member).1) ?_
        · have named : child.localName ∈ fields.map Prod.fst := by
            rw [fromFields.names]
            exact mem_keysOf.mpr ⟨child, member, rfl⟩
          exact declares_of_clean quiet named
        · intro pair member
          have listed := (perm_fieldElements xml).mem_iff.mp (List.of_mem_zip member).1
          exact (inner pair member).mpr (bare decls flat pair.1 listed)

/-- A clean message accounts for every element below the root of its document
exactly when no element that was read as a leaf has child elements: those the
reader drops, and the validator never sees. -/
theorem clean_accounts_iff (parsed : crates.xmlParse text = .ok root)
    (read : fromXml crates schema text = .ok message)
    (clean : validate crates schema message = []) :
    Accounted schema (schema.declaredType message) root message.body ↔
      LeavesBare schema (maxDepth + 1) root
          ((xsiType root).getD (schema.declaredType message)) := by
  obtain ⟨-, -, -, here⟩ := fromXml_inv parsed read
  exact accounted_iff_leavesBare here (validate_eq_nil_iff.mp clean)

section Samples

theorem clean_accounts_count :
    Accounted reportSchema "ReportType" (countDocument .nil).tree sevenReport.body := by
  have read : fromXml (documentCrates [countDocument .nil]) reportSchema
    "<Report><Count>7</Count></Report>" =
      .ok sevenReport := rfl
  refine (clean_accounts_iff rfl read (by decide +kernel)).mpr ?_
  intro decls flat child member
  cases Except.ok.inj flat
  cases List.mem_singleton.mp member
  rfl

/-- An element inside a count is dropped, and nothing is reported. -/
theorem clean_drops_extra :
    fromXml (documentCrates [countDocument (.empty ⟨"Extra".toList, [], []⟩ .nil)]) reportSchema
        "<Report><Count>7<Extra/></Count></Report>" = .ok sevenReport ∧
      validate (documentCrates [countDocument (.empty ⟨"Extra".toList, [], []⟩ .nil)]) reportSchema
        sevenReport = [] ∧
      ¬ Accounted reportSchema "ReportType"
        (countDocument (.empty ⟨"Extra".toList, [], []⟩ .nil)).tree
        sevenReport.body := by
  refine ⟨rfl, by decide +kernel, fun accounted => ?_⟩
  cases accounted with
  | complex flat _ _ _ below =>
    have leaf := below (_, _) (List.mem_singleton_self _)
    cases leaf with
    | simple bare => cases bare

end Samples

end OaGateway.Uci
