import Mathlib.Data.List.Perm.Basic
import OaGateway.Uci.XsdBuild

/-! The order of the documents, and of the definitions in each, does not matter
to the schema compiler. -/
namespace OaGateway.Uci.Xsd

open Lib
open Lib.Xml (ElementNode)

/-- Both fail, or both succeed with one result. -/
def SameOutcome {Failure Result : Type} (first second : Except Failure Result) : Prop :=
  (∃ result, first = .ok result ∧ second = .ok result) ∨
    ∃ fault other, first = .error fault ∧ second = .error other

theorem sameOutcome_of_iff {Failure Result : Type} {first second : Except Failure Result}
    (same : ∀ result, first = .ok result ↔ second = .ok result) : SameOutcome first second := by
  cases first with
  | ok result => exact .inl ⟨result, rfl, (same result).mp rfl⟩
  | error fault =>
    cases second with
    | ok result => cases (same result).mpr rfl
    | error other => exact .inr ⟨fault, other, rfl, rfl⟩

section Order
variable {crates : XsdCrates} {documents others : List String} {schema : Schema}

/-- A well-formed document and one whose top-level definitions stand in another order. -/
def Reordered (crates : XsdCrates) (text other : String) : Prop :=
  ∃ first second : Xml.Document, first.valid = true ∧ second.valid = true ∧
  first.Rearranged second ∧
    text = .ofList first.render ∧ other = .ofList second.render ∧
    crates.documentParse text = .ok first.elementTree ∧
      crates.documentParse other = .ok second.elementTree

/-- The same documents in some order, some of them with their definitions in
another order. -/
def SameDocuments (crates : XsdCrates) (documents others : List String) : Prop :=
  ∃ middle, documents.Perm middle ∧
    List.Forall₂ (fun text other => text = other ∨ Reordered crates text other) middle others

theorem Reordered.symm (moved : Reordered crates text other) : Reordered crates other text := by
  obtain ⟨first, second, valid, alsoValid, rearranged, rfl, rfl, parsed, alsoParsed⟩ := moved
  exact ⟨second, first, alsoValid, valid, rearranged.symm, rfl, rfl, alsoParsed, parsed⟩

/-- Taken before means taken after, with the same children. -/
theorem Reordered.accepts (moved : Reordered crates text other) {root : ElementNode}
    (accepts : Accepts crates text root) :
    ∃ replaced, Accepts crates other replaced ∧ (topLevel root).Perm (topLevel replaced) := by
  obtain ⟨first, second, valid, alsoValid, rearranged, rfl, rfl, parsed, alsoParsed⟩ := moved
  obtain ⟨shallow, same, xs, named, all⟩ := accepts
  rw [parsed] at same
  cases same
  obtain ⟨header, elements, replaced, one, two, perm⟩ := rearranged.elementTree
  rw [one] at xs named all
  refine ⟨second.elementTree, ⟨?_, alsoParsed, ?_⟩, ?_⟩
  · rw [nestingExceeds_document valid] at shallow
    rw [nestingExceeds_document alsoValid, ← shallow]
    exact List.Perm.any_eq rearranged.depths_perm.symm
  · rw [two]
    exact ⟨xs, named, fun child member => all child (perm.mem_iff.mpr member)⟩
  · rw [one, two]
    exact perm.filter _

/-- A schema is built from the definitions, in whatever order they come. -/
theorem compile_of_perm {roots replaced : List ElementNode} {read : List (Option Defined)}
    (each : List.Forall₂ (Accepts crates) others replaced)
    (perm : (replaced.flatMap topLevel).Perm (roots.flatMap topLevel))
    (collected : collect (readDefinition crates.toCrates) (roots.flatMap topLevel) = .ok read)
    (apart : (read.reduceOption.map Defined.key).Nodup) (defines : Defines read.reduceOption schema)
    (resolved : Resolved schema) : compile crates others = .ok schema := by
  obtain ⟨again, collected, moved⟩ := List.perm_comp_forall₂ perm (collect_eq_ok.mp collected)
  have defs : again.reduceOption.Perm read.reduceOption := moved.filterMap id
  rw [compile_eq_ok]
  exact ⟨replaced, again, each, collect_eq_ok.mpr collected, (defs.map _).nodup_iff.mpr apart,
    defines.of_perm defs.symm, resolved⟩

theorem compile_of_perm_documents (perm : others.Perm documents)
    (compiled : compile crates documents = .ok schema) :
    compile crates others = .ok schema := by
  obtain ⟨roots, read, each, collected, apart, defines, resolved⟩ := compile_eq_ok.mp compiled
  obtain ⟨replaced, again, moved⟩ := List.perm_comp_forall₂ perm each
  exact compile_of_perm again (moved.flatMap_right _) collected apart defines resolved

theorem compile_of_reordered
    (moved : List.Forall₂ (fun text other => text = other ∨ Reordered crates text other)
      documents others)
    (compiled : compile crates documents = .ok schema) : compile crates others = .ok schema := by
  obtain ⟨roots, read, each, collected, apart, defines, resolved⟩ := compile_eq_ok.mp compiled
  have replaced : ∃ replaced, List.Forall₂ (Accepts crates) others replaced ∧
      (replaced.flatMap topLevel).Perm (roots.flatMap topLevel) := by
    clear compiled collected
    induction moved generalizing roots with
    | nil =>
      cases each
      exact ⟨[], .nil, .refl _⟩
    | cons here _ ih =>
      cases each with
      | cons accepts later =>
        obtain ⟨rest, again, perm⟩ := ih _ later
        obtain rfl | moved := here
        · exact ⟨_ :: rest, .cons accepts again, perm.append_left _⟩
        · obtain ⟨root, accepted, children⟩ := moved.accepts accepts
          exact ⟨root :: rest, .cons accepted again, children.symm.append perm⟩
  obtain ⟨replaced, again, perm⟩ := replaced
  exact compile_of_perm again perm collected apart defines resolved

/-- Documents in another order, and definitions in another order in them,
compile to the same schema or not at all. -/
theorem compile_sameDocuments (same : SameDocuments crates documents others) :
    SameOutcome (compile crates documents) (compile crates others) := by
  obtain ⟨middle, perm, moved⟩ := same
  refine sameOutcome_of_iff fun schema => ⟨fun compiled => ?_, fun compiled => ?_⟩
  · exact compile_of_reordered moved (compile_of_perm_documents perm.symm compiled)
  · have back : List.Forall₂ (fun text other => text = other ∨ Reordered crates text other)
      others middle :=
      (moved.flip).imp fun _ _ either => either.imp Eq.symm Reordered.symm
    exact compile_of_perm_documents perm (compile_of_reordered back compiled)

end Order

section Samples

def emptyType (name : String) : Xml.Content → Xml.Content :=
  .empty (xsTag "complexType" [("name", name)])

def typesInOrder : Xml.Document := schemaDocument (emptyType "A" (emptyType "B" .nil))

def typesReversed : Xml.Document := schemaDocument (emptyType "B" (emptyType "A" .nil))

def typeAlone : Xml.Document := schemaDocument (emptyType "C" .nil)

def threeDocuments : XsdCrates := parserOf [typesInOrder, typesReversed, typeAlone]

/-- Two documents change places, and two types in one of them. -/
theorem compile_typesReversed :
    SameOutcome (compile threeDocuments [.ofList typesInOrder.render, .ofList typeAlone.render])
      (compile threeDocuments [.ofList typeAlone.render, .ofList typesReversed.render]) := by
  refine compile_sameDocuments ⟨_, .swap _ _ _, .cons (.inl rfl) (.cons (.inr ?_) .nil)⟩
  refine ⟨typesInOrder, typesReversed, by decide, by decide, ?_, rfl, rfl, ?_, ?_⟩
  · exact ⟨_, _, _, _, _, rfl, rfl, .swap _ _ _⟩
  · rfl
  · rfl

end Samples

end OaGateway.Uci.Xsd
