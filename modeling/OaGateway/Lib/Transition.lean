import Mathlib.Data.List.Induction

/-! Labelled transition systems: finite runs, reachable states and the
induction rules every safety result of the development goes through. -/
namespace OaGateway.Lib
universe u v
variable {State : Type u} {Label : Type v}

/-- A nondeterministic system. Two steps with one label may differ. -/
structure System (State : Type u) (Label : Type v) where
  initial : State → Prop
  step : State → Label → State → Prop

namespace System
variable {sys : System State Label}

/-- The same system with only the steps some condition on the state before allows. -/
def restrict (sys : System State Label) (allowed : State → Label → Prop) : System State Label where
  initial := sys.initial
  step before label after := allowed before label ∧ sys.step before label after

/-- A finite run and the labels it takes, first label first. -/
inductive Run (sys : System State Label) : State → List Label → State → Prop where
  | nil (state : State) : Run sys state [] state
  | cons (first : sys.step source label middle) (rest : Run sys middle labels target) :
      Run sys source (label :: labels) target

def Reachable (sys : System State Label) (state : State) : Prop :=
  ∃ start labels, sys.initial start ∧ Run sys start labels state

theorem Run.single (step : sys.step source label target) : Run sys source [label] target :=
  .cons step (.nil target)

theorem Run.append (first : Run sys source labels middle) (second : Run sys middle more target) :
    Run sys source (labels ++ more) target := by
  induction first with
  | nil => exact second
  | cons step _ ih => exact .cons step (ih second)

theorem Run.split (run : Run sys source (labels ++ more) target) :
    ∃ middle, Run sys source labels middle ∧ Run sys middle more target := by
  induction labels generalizing source with
  | nil => exact ⟨source, .nil source, run⟩
  | cons label labels ih =>
    cases run with
    | cons step rest =>
      obtain ⟨middle, front, back⟩ := ih rest
      exact ⟨middle, .cons step front, back⟩

theorem Run.snoc (front : Run sys source labels middle) (last : sys.step middle label target) :
    Run sys source (labels ++ [label]) target :=
  front.append (.single last)

/-- Induction on the last step of a run. -/
theorem Run.snocInduction {motive : List Label → State → Prop}
    (run : Run sys source labels target) (start : motive [] source)
    (last : ∀ labels middle label target, Run sys source labels middle → motive labels middle →
      sys.step middle label target → motive (labels ++ [label]) target) : motive labels target := by
  induction labels using List.reverseRecOn generalizing target with
  | nil =>
    cases run
    exact start
  | append_singleton labels label ih =>
    obtain ⟨middle, front, back⟩ := run.split
    cases back with
    | cons step rest =>
      cases rest
      exact last labels middle label _ front (ih front) step

theorem Run.of_restrict (run : Run (sys.restrict allowed) source labels target) :
    Run sys source labels target := by
  induction run with
  | nil state => exact .nil state
  | cons step _ ih => exact .cons step.2 ih

/-- Labels that are always allowed are no restriction. -/
theorem Run.to_restrict (run : Run sys source labels target)
    (within : ∀ label ∈ labels, ∀ state, allowed state label) :
    Run (sys.restrict allowed) source labels target := by
  induction run with
  | nil state => exact .nil state
  | cons first rest ih =>
    exact .cons ⟨within _ (by simp) _, first⟩
      (ih fun label member => within label (by simp [member]))

/-- A property each step keeps is kept by a whole run. -/
theorem Run.preserves {motive : State → Prop} (run : Run sys source labels target)
    (holds : motive source)
    (step : ∀ before label after, sys.step before label after → motive before → motive after) :
    motive target := by
  induction run with
  | nil => exact holds
  | cons first _ ih => exact ih (step _ _ _ first holds)

/-- As `Run.preserves`, for a property only the listed labels have to keep. -/
theorem Run.preserves_of {motive : State → Prop} {allowed : Label → Prop}
    (run : Run sys source labels target) (holds : motive source)
    (within : ∀ label ∈ labels, allowed label)
    (step : ∀ before label after, allowed label → sys.step before label after →
      motive before → motive after) : motive target := by
  induction run with
  | nil => exact holds
  | @cons _ label _ _ _ first _ ih =>
    have here := within label (by simp)
    exact ih (step _ _ _ here first holds) (fun other member => within other (by simp [member]))

/-- The invariant rule: true at the start and kept by every step. -/
theorem Reachable.invariant {motive : State → Prop} (reached : Reachable sys state)
    (start : ∀ state, sys.initial state → motive state)
    (step : ∀ before label after, sys.step before label after → motive before → motive after) :
    motive state := by
  obtain ⟨source, labels, initial, run⟩ := reached
  exact run.preserves (start source initial) step

theorem Reachable.step (reached : Reachable sys state) (next : sys.step state label after) :
    Reachable sys after := by
  obtain ⟨source, labels, initial, run⟩ := reached
  exact ⟨source, labels ++ [label], initial, run.append (.single next)⟩

end System

end OaGateway.Lib
