import OaGateway.Lib.Transition

/-! Work that is tried again until it is done: attempts, one after another, on a
world they share with others, and a verdict after each. -/
namespace OaGateway.Lib

inductive Ended (Result : Type) where
  | finished (result : Result)
  | crashed

inductive Verdict (Answer : Type) where
  | answer (answer : Answer)
  | again

inductive Watch (Stage Result Answer : Type) where
  | checking
  | trying (stage : Stage)
  | joined (ended : Ended Result)
  | pausing
  | answered (answer : Answer)

structure Supervised (World Stage Result Answer : Type) where
  world : World
  watch : Watch Stage Result Answer
  cancelled : Bool
  /-- Whether an attempt has crashed. -/
  crashed : Bool

/-- One step of the supervisor, of its attempt, or of somebody else. -/
inductive Watched (Label Aside : Type) where
  | stop
  | start
  | work (label : Label)
  | finish
  | crash
  | judge
  | wake
  | cancel
  | aside (label : Aside)

/-- What is tried, what others do meanwhile, and what is made of each attempt. -/
structure Supervision (World Stage Label Aside Result Answer : Type) where
  start : World → Stage → Prop
  /-- An attempt sees whether it was cancelled. -/
  work : Bool → World → Stage → Label → World → Stage → Prop
  result : Stage → Option Result
  aside : World → Aside → World → Prop
  verdict : Ended Result → Verdict Answer
  /-- The answer of a supervisor that was cancelled. -/
  stopped : Answer

namespace Supervision
variable {World Stage Label Aside Result Answer : Type}
  (sup : Supervision World Stage Label Aside Result Answer)

inductive Step (run : Supervised World Stage Result Answer) :
    Watched Label Aside → Supervised World Stage Result Answer → Prop where
  | stop (here : run.watch = .checking) (cancelled : run.cancelled = true) :
      Step run .stop { run with watch := .answered sup.stopped }
  | start (here : run.watch = .checking) (alive : run.cancelled = false)
      (begins : sup.start run.world stage) :
      Step run .start { run with watch := .trying stage }
  | work (here : run.watch = .trying stage)
      (moved : sup.work run.cancelled run.world stage label world later) :
      Step run (.work label) { run with world, watch := .trying later }
  | finish (here : run.watch = .trying stage) (done : sup.result stage = some value) :
      Step run .finish { run with watch := .joined (.finished value) }
  | crash (here : run.watch = .trying stage) (busy : sup.result stage = none) :
      Step run .crash { run with watch := .joined .crashed, crashed := true }
  | answer (here : run.watch = .joined ended) (verdict : sup.verdict ended = .answer answer) :
      Step run .judge { run with watch := .answered answer }
  | again (here : run.watch = .joined ended) (verdict : sup.verdict ended = .again) :
      Step run .judge
        { run with watch := if run.cancelled then .answered sup.stopped else .pausing }
  | interrupted (here : run.watch = .pausing) (cancelled : run.cancelled = true) :
      Step run .wake { run with watch := .answered sup.stopped }
  | wake (here : run.watch = .pausing) : Step run .wake { run with watch := .checking }
  | cancel : Step run .cancel { run with cancelled := true }
  | aside (moved : sup.aside run.world label world) : Step run (.aside label) { run with world }

def system (initial : World → Prop) :
    System (Supervised World Stage Result Answer) (Watched Label Aside) where
  initial run := initial run.world ∧ run.watch = .checking ∧ run.crashed = false
  step := sup.Step

/-- What holds of the world between attempts, given whether one has crashed, what
holds during one, given also whether it is cancelled, and of how one ended. -/
structure Sound (initial : World → Prop) (idle : Bool → World → Prop)
    (busy : Bool → Bool → World → Stage → Prop) (past : Bool → Ended Result → Prop) : Prop where
  initially : ∀ world, initial world → idle false world
  starts : ∀ crashed world stage, idle crashed world → sup.start world stage →
    busy crashed false world stage
  works : ∀ crashed cancelled world stage label after later, busy crashed cancelled world stage →
    sup.work cancelled world stage label after later → busy crashed cancelled after later
  finishes : ∀ crashed cancelled world stage result, busy crashed cancelled world stage →
    sup.result stage = some result → idle crashed world ∧ past cancelled (.finished result)
  crashes : ∀ crashed cancelled world stage, busy crashed cancelled world stage →
    sup.result stage = none → idle true world ∧ past cancelled .crashed
  asideIdle : ∀ crashed world label after, idle crashed world → sup.aside world label after →
    idle crashed after
  asideBusy : ∀ crashed cancelled world stage label after, busy crashed cancelled world stage →
    sup.aside world label after → busy crashed cancelled after stage
  lateBusy : ∀ crashed cancelled world stage, busy crashed cancelled world stage →
    busy crashed true world stage
  latePast : ∀ cancelled ended, past cancelled ended → past true ended

/-- A supervisor in one of the states it is promised to be in. -/
structure Stands (idle : Bool → World → Prop) (busy : Bool → Bool → World → Stage → Prop)
    (past : Bool → Ended Result → Prop) (run : Supervised World Stage Result Answer) : Prop where
  trying : ∀ stage, run.watch = .trying stage → busy run.crashed run.cancelled run.world stage
  idle : (∀ stage, run.watch ≠ .trying stage) → idle run.crashed run.world
  joined : ∀ ended, run.watch = .joined ended → past run.cancelled ended
  answered : ∀ answer, run.watch = .answered answer →
    answer = sup.stopped ∧ run.cancelled = true ∨
      ∃ ended, sup.verdict ended = .answer answer ∧ past run.cancelled ended

variable {sup} {initial : World → Prop} {idle : Bool → World → Prop}
  {busy : Bool → Bool → World → Stage → Prop}
  {past : Bool → Ended Result → Prop} {before after : Supervised World Stage Result Answer}

namespace Stands

theorem rest (stands : sup.Stands idle busy past before)
    (away : ∀ stage, before.watch ≠ .trying stage) {watch : Watch Stage Result Answer}
    (still : ∀ stage, watch ≠ .trying stage)
    (joined : ∀ ended, watch = .joined ended → past before.cancelled ended)
    (answered : ∀ answer, watch = .answered answer →
      answer = sup.stopped ∧ before.cancelled = true ∨
        ∃ ended, sup.verdict ended = .answer answer ∧ past before.cancelled ended) :
    sup.Stands idle busy past { before with watch } :=
  ⟨fun stage trying => absurd trying (still stage), fun _ => stands.idle away, joined, answered⟩

theorem step (sound : sup.Sound initial idle busy past) (stands : sup.Stands idle busy past before)
    {label : Watched Label Aside} (moved : sup.Step before label after) :
    sup.Stands idle busy past after := by
  cases moved with
  | stop here cancelled =>
    refine stands.rest (by simp [here]) (by simp) (by simp) fun answer same => ?_
    cases same
    exact .inl ⟨rfl, cancelled⟩
  | start here alive begins =>
    refine ⟨fun stage same => ?_, fun away => absurd rfl (away _), by simp, by simp⟩
    cases same
    simp only [alive]
    exact sound.starts _ _ _ (stands.idle (by simp [here])) begins
  | work here moved =>
    refine ⟨fun stage same => ?_, fun away => absurd rfl (away _), by simp, by simp⟩
    cases same
    exact sound.works _ _ _ _ _ _ _ (stands.trying _ here) moved
  | finish here done =>
    obtain ⟨between, ended⟩ := sound.finishes _ _ _ _ _ (stands.trying _ here) done
    refine ⟨by simp, fun _ => between, fun other same => ?_, by simp⟩
    cases same
    exact ended
  | crash here unfinished =>
    obtain ⟨between, ended⟩ := sound.crashes _ _ _ _ (stands.trying _ here) unfinished
    refine ⟨by simp, fun _ => between, fun other same => ?_, by simp⟩
    cases same
    exact ended
  | answer here verdict =>
    refine stands.rest (by simp [here]) (by simp) (by simp) fun answer same => ?_
    cases same
    exact .inr ⟨_, verdict, stands.joined _ here⟩
  | again here verdict =>
    refine stands.rest (by simp [here]) ?_ ?_ fun answer same => ?_
    · intro stage
      split <;> simp
    · intro ended
      split <;> simp
    · split at same
      · rename_i cancelled
        cases same
        exact .inl ⟨rfl, cancelled⟩
      · cases same
  | interrupted here cancelled =>
    refine stands.rest (by simp [here]) (by simp) (by simp) fun answer same => ?_
    cases same
    exact .inl ⟨rfl, cancelled⟩
  | wake here => exact stands.rest (by simp [here]) (by simp) (by simp) (by simp)
  | cancel =>
    refine ⟨fun stage here => ?_, stands.idle, fun ended here => ?_, fun answer here => ?_⟩
    · exact sound.lateBusy _ _ _ _ (stands.trying stage here)
    · exact sound.latePast _ _ (stands.joined ended here)
    · rcases stands.answered answer here with ⟨same, -⟩ | ⟨ended, verdict, before⟩
      · exact .inl ⟨same, rfl⟩
      · exact .inr ⟨ended, verdict, sound.latePast _ _ before⟩
  | aside moved =>
    refine ⟨fun stage here => ?_, fun away => ?_, stands.joined, stands.answered⟩
    · exact sound.asideBusy _ _ _ _ _ _ (stands.trying stage here) moved
    · exact sound.asideIdle _ _ _ _ (stands.idle away) moved

end Stands

/-- The rule for supervisors: what attempts, crashes and others keep holds in
every state of every run. -/
theorem Sound.stands (sound : sup.Sound initial idle busy past)
    (reached : (sup.system initial).Reachable after) :
    sup.Stands idle busy past after := by
  refine reached.invariant ?_ fun _ _ _ moved stands => stands.step sound moved
  rintro run ⟨began, checking, calm⟩
  refine ⟨by simp [checking], fun _ => ?_, by simp [checking], by simp [checking]⟩
  rw [calm]
  exact sound.initially _ began

end Supervision

end OaGateway.Lib
