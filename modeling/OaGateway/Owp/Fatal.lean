import OaGateway.Owp.Blocking

/-! What a client is told before its session ends: the frames queued for it,
next to those written to its socket. -/
namespace OaGateway.Owp

open Lib OaGateway.Core

/-- A session with a record of what entered the queue, of what was written, and
of the error that ends it. -/
structure Observed where
  session : SessionState
  queued : List ServerOp
  written : List Outgoing
  /-- The `-ERR` of a fatal frame that was read. -/
  verdict : Option ServerOp

namespace Observed

def start : Observed := ⟨.start, [], [], none⟩

/-- What a step writes to the socket. -/
def writes (state : SessionState) : Event → List Outgoing
  | .written true =>
    match state.task with
    | .writing message => [message]
    | _ => []
  | _ => []

section
variable (crates : OwpCrates) (session : Session)

/-- The error a step finds the session guilty of. -/
def condemns (state : SessionState) : Event → Option ServerOp
  | .incoming message answers =>
    match state.respond crates session answers message with
    | some outcome => if outcome.fatal then outcome.replies.head? else none
    | none => none
  | _ => none

def step (observed : Observed) (event : Event) : Option Observed :=
  (observed.session.step crates session event).map fun after =>
    { session := after
      queued := observed.queued ++ after.out.queue.drop observed.session.out.queue.length
      written := observed.written ++ writes observed.session event
      verdict := observed.verdict.or (condemns crates session observed.session event) }

end

end Observed

def observedSystem (crates : OwpCrates) (session : Session) : System Observed Event where
  initial observed := observed = .start
  step before event after := before.step crates session event = some after

/-- The error, and every frame queued before it, has been written. -/
def Told (error : ServerOp) (observed : Observed) : Prop :=
  ∃ before after, observed.queued = before ++ error :: after ∧
    ∀ op ∈ before ++ [error], .op op ∈ observed.written

/-- The frames that end a session. -/
def ServerOp.Fatal : ServerOp → Prop
  | .err .unsupportedVersion _ | .err .unsupportedSchema _ | .err .illegalOperation _ => True
  | .err .illegalState details =>
    details = some "INIT must be the first operation" ∨ details = some "duplicate INIT"
  | _ => False

section Outcomes
variable {crates : OwpCrates} {session : Session} {answers : Answers} {state : SessionState}

/-- Fatal or not, a frame is answered accordingly. -/
def Outcome.Fair (outcome : Outcome) : Prop :=
  if outcome.fatal then ∃ error, outcome.replies = [error] ∧ error.Fatal
  else ∀ op ∈ outcome.replies, ¬ op.Fatal

theorem acknowledge_fair {verbose : Bool} {op : ServerOp} (member : op ∈ acknowledge verbose) :
    ¬ op.Fatal := by
  cases verbose with
  | false => cases member
  | true =>
    rw [List.mem_singleton.mp member]
    exact id

theorem handleInit_fair (init : InitPayload) : (handleInit crates session init).Fair := by
  rw [handleInit]
  split
  · intro op member
    rcases List.mem_append.mp member with acknowledged | info
    · exact acknowledge_fair acknowledged
    · rw [List.mem_singleton.mp info]
      exact id
  · rename_i error refused
    refine ⟨_, rfl, ?_⟩
    rw [negotiate] at refused
    split at refused
    · cases refused
      trivial
    · split at refused
      · cases refused
      · split at refused
        · cases refused
          trivial
        · cases refused

theorem handlePub_fair :
    (handlePub crates session answers verbose serviceId topic payload).Fair := by
  rw [handlePub]
  split
  · exact fun op => acknowledge_fair
  · simp [Outcome.Fair, ServerOp.Fatal]

theorem handleSub_fair :
    (handleSub session answers subs verbose serviceId sid messageName topic).Fair := by
  simp only [handleSub]
  split
  · simp [Outcome.Fair, ServerOp.Fatal]
  · split
    · simp [Outcome.Fair, ServerOp.Fatal]
    · split
      · simp [Outcome.Fair, ServerOp.Fatal]
      · exact fun op => acknowledge_fair

theorem handleUnsub_fair : (handleUnsub subs verbose serviceId sid).Fair := by
  rw [handleUnsub]
  split
  · exact fun op => acknowledge_fair
  · simp [Outcome.Fair, ServerOp.Fatal]

theorem handleText_fair : (handleText crates session answers phase subs text).Fair := by
  rw [handleText]
  split
  · simp [Outcome.Fair, ServerOp.Fatal]
  · split
    · split
      · exact handleInit_fair _
      · simp [Outcome.Fair, ServerOp.Fatal]
    · split
      · simp [Outcome.Fair, ServerOp.Fatal]
      · exact handlePub_fair
      · exact handleSub_fair
      · exact handleUnsub_fair

theorem respond_fair {message : Incoming} {outcome : Outcome}
    (handled : state.respond crates session answers message = some outcome) : outcome.Fair := by
  cases message with
  | text text =>
    cases handled
    exact handleText_fair
  | binary =>
    cases handled
    exact ⟨_, rfl, trivial⟩
  | ping | pong | frame | close => cases handled

theorem forwardFrame_fair {sid : String} {envelope : Envelope} {op : ServerOp}
    (made : forwardFrame crates session sid envelope = some op) : ¬ op.Fatal := by
  have refusal {violations : List Uci.Violation} {detail : String}
      (refused : handleViolations session violations sid detail = some op) : ¬ op.Fatal := by
    rw [handleViolations] at refused
    split at refused
    · cases refused
      exact id
    · cases refused
  rw [forwardFrame] at made
  split at made
  · cases made
  · simp only at made
    split at made
    · rename_i refused
      cases made
      exact refusal refused
    · split at made
      · split at made
        · cases made
          exact id
        · split at made
          · rename_i refused
            cases made
            split at refused
            · exact refusal refused
            · cases refused
          · cases made
            exact id
      · cases made
        exact id

end Outcomes

section Invariant
variable {crates : OwpCrates} {session : Session} {before after : SessionState}

/-- The task is bound to end, or has. -/
def Task.doomed : Task → Bool
  | replying _ _ fatal | waiting _ _ fatal => fatal
  | stopped => true
  | _ => false

/-- The frames a task has in hand. -/
def Task.inHand : Task → List ServerOp
  | replying ops _ _ | waiting ops _ _ => ops
  | writing (.op op) => [op]
  | _ => []

/-- Nothing on its way to the client is fatal. -/
structure Harmless (state : SessionState) : Prop where
  out : ∀ op ∈ state.out.contents, ¬ op.Fatal
  task : ∀ op ∈ state.task.inHand, ¬ op.Fatal
  held : ∀ forwarder ∈ state.forwarders, ∀ op, forwarder.stage = .holding op → ¬ op.Fatal

/-- What stands in a list after one entry was changed. -/
theorem mem_modify {α : Type} {list : List α} {change : α → α} {index : Nat} {entry : α}
    (member : entry ∈ list.modify index change) :
    ∃ old ∈ list, entry = old ∨ entry = change old := by
  obtain ⟨place, found⟩ := List.mem_iff_getElem?.mp member
  rw [List.getElem?_modify] at found
  obtain ⟨old, present, same⟩ := Option.map_eq_some_iff.mp found
  refine ⟨old, List.mem_of_getElem? present, ?_⟩
  split at same
  · exact .inr same.symm
  · exact .inl same.symm

/-! What each step of a forwarder does to its stage. -/

theorem deliver_stage {old new : Forwarder}
    (changed : SessionState.deliver envelope old = some new) :
    old.stage ≠ .ended ∧ new.stage = old.stage := by
  rw [SessionState.deliver] at changed
  split at changed
  · cases changed
  · rename_i alive
    split at changed
    · cases changed
      exact ⟨alive, rfl⟩
    · cases changed

theorem take_holding {old new : Forwarder}
    (changed : SessionState.take crates session old = some new)
    (holding : new.stage = .holding op) :
    ∃ envelope, forwardFrame crates session old.sid envelope = some op := by
  rw [SessionState.take] at changed
  split at changed
  · rename_i envelope inbox idle queued
    split at changed
    · cases changed
      simp [idle] at holding
    · rename_i made found
      cases changed
      cases holding
      exact ⟨envelope, found⟩
  · cases changed

theorem finish_stage {old new : Forwarder} (changed : SessionState.finish old = some new) :
    new.stage = .ended := by
  rw [SessionState.finish] at changed
  split at changed
  · cases changed
    rfl
  · cases changed

theorem drop_stage {old new : Forwarder} (changed : SessionState.drop old = some new) :
    old.aborted = true ∧ new.stage = .ended := by
  rw [SessionState.drop] at changed
  split at changed
  · cases changed
  · split at changed
    · rename_i aborted
      cases changed
      exact ⟨aborted, rfl⟩
    · cases changed

namespace Harmless

theorem start : Harmless .start := ⟨nofun, nofun, nofun⟩

/-- Only the task moved. -/
theorem of_task (harmless : Harmless before) (out : after.out = before.out)
    (forwarders : after.forwarders = before.forwarders)
    (task : ∀ op ∈ after.task.inHand, ¬ op.Fatal) :
    Harmless after :=
  ⟨by rw [out]; exact harmless.out, task, by rw [forwarders]; exact harmless.held⟩

theorem perform (harmless : Harmless before) (effect : Effect) :
    Harmless (before.perform effect) := by
  cases effect with
  | none | publish => exact harmless
  | subscribe sid engineSub route =>
    refine ⟨harmless.out, harmless.task, fun forwarder member => ?_⟩
    rcases List.mem_append.mp member with old | new
    · exact harmless.held forwarder old
    · rw [List.mem_singleton.mp new]
      intro op holding
      cases holding
  | unsubscribe sid live =>
    refine ⟨harmless.out, harmless.task, fun forwarder member => ?_⟩
    obtain ⟨old, present, rfl | rfl⟩ := mem_modify member
    · exact harmless.held _ present
    · exact harmless.held old present

theorem read (harmless : Harmless before) {message : Incoming}
    (spared : (before.read crates session answers message).task.doomed = false) :
    Harmless (before.read crates session answers message) := by
  cases message with
  | text text =>
    have fair := @handleText_fair crates session answers before.phase before.subs text
    have alive : (handleText crates session answers before.phase before.subs text).fatal =
      false := spared
    rw [Outcome.Fair, alive] at fair
    exact ⟨by simpa [SessionState.read, SessionState.respond] using harmless.out, fair,
      (harmless.perform _).held⟩
  | binary | close => cases spared
  | ping data => exact harmless.of_task rfl rfl (fun _ inside => absurd inside List.not_mem_nil)
  | pong | frame => exact harmless

theorem reply (harmless : Harmless before) (moved : before.reply = some after) : Harmless after ∨
    after.task.doomed := by
  rw [SessionState.reply] at moved
  split at moved
  · rename_i phase fatal task
    cases moved
    cases fatal with
    | true => exact .inr rfl
    | false =>
      exact .inl (harmless.of_task rfl rfl (fun _ inside => absurd inside List.not_mem_nil))
  · rename_i op ops phase fatal task
    cases moved
    have inHand := harmless.task
    rw [task] at inHand
    obtain ⟨first, later⟩ := List.forall_mem_cons.mp inHand
    refine .inl ⟨fun other member => ?_, ?_, harmless.held⟩
    · rcases Mailbox.mem_contents_send member with rfl | old
      · exact first
      · exact harmless.out other old
    · simp only
      split <;> exact later
  · cases moved

theorem settle (harmless : Harmless before) {party : Party}
    (moved : before.settle party = some after) :
    Harmless after := by
  rw [SessionState.settle] at moved
  split at moved
  · cases moved
  · rename_i out settled
    have kept : ∀ op ∈ out.contents, ¬ op.Fatal := fun op member =>
      harmless.out op (Mailbox.mem_contents_settle settled member)
    cases party with
    | forwarder index =>
      cases moved
      refine ⟨kept, harmless.task, fun forwarder member => ?_⟩
      obtain ⟨old, present, rfl | rfl⟩ := mem_modify member
      · exact harmless.held _ present
      · intro op holding
        cases holding
    | task =>
      simp only at moved
      split at moved
      · rename_i ops phase fatal task
        cases moved
        have inHand := harmless.task
        rw [task] at inHand
        exact ⟨kept, inHand, harmless.held⟩
      · cases moved

theorem advance (harmless : Harmless before) {index : Nat} {change : Forwarder → Option Forwarder}
    (fine : ∀ old ∈ before.forwarders, ∀ new, change old = some new →
      ∀ op, new.stage = .holding op → ¬ op.Fatal)
    (moved : before.advance index change = some after) : Harmless after := by
  rw [SessionState.advance] at moved
  split at moved
  · cases moved
  · rename_i forwarder changed
    cases moved
    obtain ⟨old, found, changed⟩ := Option.bind_eq_some_iff.mp changed
    refine ⟨harmless.out, harmless.task, fun other member => ?_⟩
    rcases List.mem_or_eq_of_mem_set member with kept | rfl
    · exact harmless.held other kept
    · exact fine old (List.mem_of_getElem? found) _ changed

theorem queue (harmless : Harmless before) {index : Nat} (moved : before.queue index = some after) :
    Harmless after := by
  rw [SessionState.queue] at moved
  split at moved
  · rename_i sid inbox op aborted found
    cases moved
    have held := harmless.held _ (List.mem_of_getElem? found) op rfl
    refine ⟨fun other member => ?_, harmless.task, fun forwarder member => ?_⟩
    · rcases Mailbox.mem_contents_send member with rfl | old
      · exact held
      · exact harmless.out other old
    · rcases List.mem_or_eq_of_mem_set member with kept | rfl
      · exact harmless.held forwarder kept
      · intro op holding
        split at holding <;> cases holding
  · cases moved

/-- One step keeps the way to the client harmless, or seals the session's end. -/
theorem step (harmless : Harmless before) {event : Event}
    (moved : before.step crates session event = some after) :
    Harmless after ∨ after.task.doomed := by
  cases event with
  | cancel =>
    cases moved
    exact .inl (harmless.of_task rfl rfl harmless.task)
  | shutdown =>
    simp only [SessionState.step, SessionState.select_eq_some, Option.ite_none_right_eq_some,
      Option.some.injEq] at moved
    obtain ⟨-, -, rfl⟩ := moved
    exact .inr rfl
  | timeout =>
    simp only [SessionState.step, SessionState.select_eq_some, Option.map_eq_some_iff] at moved
    obtain ⟨-, reason, -, rfl⟩ := moved
    exact .inl (harmless.of_task rfl rfl (fun _ inside => absurd inside List.not_mem_nil))
  | recv =>
    simp only [SessionState.step, SessionState.select_eq_some, Option.map_eq_some_iff] at moved
    obtain ⟨-, ⟨op, out⟩, taken, rfl⟩ := moved
    obtain ⟨first, rest⟩ := Mailbox.mem_contents_receive taken
    have member : op ∈ before.out.contents := List.mem_append_left _ first
    refine .inl ⟨fun other left => harmless.out other (rest other left), ?_, harmless.held⟩
    simpa [Task.inHand] using harmless.out op member
  | hangup =>
    simp only [SessionState.step, SessionState.select_eq_some, Option.some.injEq] at moved
    obtain ⟨-, rfl⟩ := moved
    exact .inr rfl
  | incoming message answers =>
    simp only [SessionState.step, SessionState.select_eq_some, Option.some.injEq] at moved
    obtain ⟨-, rfl⟩ := moved
    by_cases spared : (before.read crates session answers message).task.doomed = false
    · exact .inl (harmless.read spared)
    · exact .inr (by simpa using spared)
  | written success =>
    simp only [SessionState.step] at moved
    split at moved
    · rename_i message writing
      cases moved
      cases message with
      | op op =>
        cases success with
        | true =>
          exact .inl (harmless.of_task rfl rfl (fun _ inside => absurd inside List.not_mem_nil))
        | false => exact .inr rfl
      | pong data =>
        exact .inl (harmless.of_task rfl rfl (fun _ inside => absurd inside List.not_mem_nil))
      | close reason => exact .inr rfl
    · cases moved
  | reply => exact harmless.reply moved
  | settle party => exact .inl (harmless.settle moved)
  | queue index => exact .inl (harmless.queue moved)
  | deliver index envelope =>
    refine .inl (harmless.advance (fun old present new changed => ?_) moved)
    obtain ⟨-, stage⟩ := deliver_stage changed
    rw [stage]
    exact harmless.held old present
  | take index =>
    refine .inl (harmless.advance (fun old present new changed op holding => ?_) moved)
    obtain ⟨envelope, made⟩ := take_holding changed holding
    exact forwardFrame_fair made
  | finish index =>
    exact .inl
      (harmless.advance
      (fun old _ new changed op holding => by simp [finish_stage changed] at holding) moved)
  | drop index =>
    simp only [SessionState.step, Option.map_eq_some_iff] at moved
    obtain ⟨middle, moved, rfl⟩ := moved
    have kept :=
      harmless.advance
      (fun old _ new changed op holding => by simp [(drop_stage changed).2] at holding) moved
    exact .inl ⟨fun op member => kept.out op (Mailbox.mem_contents_cancel member),
      kept.task, kept.held⟩

end Harmless

/-- A task that is bound to end reads and writes nothing more. -/
theorem doomed_step {event : Event} (doomed : before.task.doomed = true)
    (moved : before.step crates session event = some after) :
    after.task.doomed = true ∧ Observed.writes before event = [] := by
  have busy : before.task ≠ .selecting := by
    intro selecting
    simp [selecting, Task.doomed] at doomed
  have other : ∀ message, before.task ≠ .writing message := by
    intro message writing
    simp [writing, Task.doomed] at doomed
  cases event with
  | cancel =>
    cases moved
    exact ⟨doomed, rfl⟩
  | shutdown | timeout | recv | hangup | incoming =>
    simp only [SessionState.step, SessionState.select_eq_some] at moved
    exact absurd moved.1 busy
  | written success =>
    simp only [SessionState.step] at moved
    cases task : before.task with
    | writing message => exact absurd task (other message)
    | _ => cases moved
  | reply =>
    refine ⟨?_, rfl⟩
    simp only [SessionState.step, SessionState.reply] at moved
    split at moved
    · rename_i phase fatal task
      simp only [task, Task.doomed] at doomed
      cases moved
      rw [if_pos doomed]
      rfl
    · rename_i op ops phase fatal task
      simp only [task, Task.doomed] at doomed
      cases moved
      simp only
      split <;> exact doomed
    · cases moved
  | settle party =>
    refine ⟨?_, rfl⟩
    simp only [SessionState.step, SessionState.settle] at moved
    split at moved
    · cases moved
    · cases party with
      | forwarder index =>
        cases moved
        exact doomed
      | task =>
        simp only at moved
        split at moved
        · rename_i ops phase fatal task
          simp only [task, Task.doomed] at doomed
          cases moved
          exact doomed
        · cases moved
  | queue index =>
    refine ⟨?_, rfl⟩
    simp only [SessionState.step, SessionState.queue] at moved
    split at moved
    · cases moved
      exact doomed
    · cases moved
  | deliver index envelope | take index | finish index =>
    exact ⟨by rw [(SessionState.advance_frame moved).2]; exact doomed, rfl⟩
  | drop index =>
    simp only [SessionState.step, Option.map_eq_some_iff] at moved
    obtain ⟨middle, moved, rfl⟩ := moved
    exact ⟨by rw [← doomed, ← (SessionState.advance_frame moved).2], rfl⟩

/-- Nothing fatal was written, and the verdict is fatal. -/
structure Silent (observed : Observed) : Prop where
  written : ∀ op, .op op ∈ observed.written → ¬ op.Fatal
  pending : observed.session.task.doomed = true ∨ Harmless observed.session
  verdict : ∀ error, observed.verdict = some error → error.Fatal

theorem writes_harmless (harmless : Harmless before) {event : Event} {op : ServerOp}
    (written : .op op ∈ Observed.writes before event) : ¬ op.Fatal := by
  cases event with
  | written success =>
    cases success with
    | false => cases written
    | true =>
      cases task : before.task with
      | writing message =>
        simp only [Observed.writes, task, List.mem_singleton] at written
        subst written
        exact harmless.task op (by simp [task, Task.inHand])
      | _ => simp [Observed.writes, task] at written
  | _ => cases written

theorem condemns_fatal {event : Event} {error : ServerOp}
    (condemned : Observed.condemns crates session before event = some error) : error.Fatal := by
  cases event with
  | incoming message answers =>
    simp only [Observed.condemns] at condemned
    split at condemned
    · rename_i outcome handled
      have fair := respond_fair handled
      split at condemned
      · rename_i fatal
        rw [Outcome.Fair, if_pos fatal] at fair
        obtain ⟨reply, alone, found⟩ := fair
        rw [alone] at condemned
        cases condemned
        exact found
      · cases condemned
    · cases condemned
  | _ => cases condemned

theorem silent_step {before after : Observed} {event : Event} (silent : Silent before)
    (moved : before.step crates session event = some after) : Silent after := by
  rw [Observed.step] at moved
  obtain ⟨next, stepped, rfl⟩ := Option.map_eq_some_iff.mp moved
  refine ⟨fun op member => ?_, ?_, fun error found => ?_⟩
  · rcases List.mem_append.mp member with early | now
    · exact silent.written op early
    · rcases silent.pending with doomed | harmless
      · rw [(doomed_step doomed stepped).2] at now
        cases now
      · exact writes_harmless harmless now
  · rcases silent.pending with doomed | harmless
    · exact .inl (doomed_step doomed stepped).1
    · exact (harmless.step stepped).symm
  · rcases Option.or_eq_some_iff.mp found with early | ⟨-, now⟩
    · exact silent.verdict error early
    · exact condemns_fatal now

/-- However a session runs, the error that ends it is never written. -/
theorem fatal_untold {observed : Observed} {error : ServerOp}
    (reached : (observedSystem crates session).Reachable observed)
    (fatal : observed.verdict = some error) :
    ¬ Told error observed := by
  have silent : Silent observed := by
    refine reached.invariant ?_ fun before event after moved silent => silent_step silent moved
    rintro _ rfl
    exact ⟨nofun, .inr .start, nofun⟩
  rintro ⟨before, after, -, told⟩
  exact silent.written error (told error (by simp)) (silent.verdict error fatal)

end Invariant

section Samples

def binaryRefusal : ServerOp := .err .illegalOperation (some "binary frames are not allowed")

/-- A binary frame as the first frame: the refusal is queued, and the session is
over before anything is written. -/
theorem binary_ends_silently :
    ∃ observed, (observedSystem initCrates plainSession).Reachable observed ∧
    observed.session.task = .stopped ∧ observed.verdict = some binaryRefusal ∧
      observed.queued = [binaryRefusal] ∧
    observed.written = [] ∧ ¬ Told binaryRefusal observed := by
  have run : (observedSystem initCrates plainSession).Run .start [.incoming .binary sampleAnswers,
    .reply, .reply] _ :=
    .cons rfl (.cons rfl (.cons rfl (.nil _)))
  refine ⟨_, ⟨_, _, rfl, run⟩, rfl, rfl, rfl, rfl, ?_⟩
  rintro ⟨before, after, -, told⟩
  cases told binaryRefusal (by simp)

/-- The same after the handshake. -/
theorem fatal_untold_active :
    ∃ observed, (observedSystem initCrates plainSession).Reachable observed ∧
    observed.session.task = .stopped ∧ observed.verdict = some binaryRefusal ∧
      ¬ Told binaryRefusal observed := by
  have run : (observedSystem initCrates plainSession).Run .start
      [.incoming (.text ("INIT " ++ initBody)) sampleAnswers, .reply, .reply, .recv, .written true,
        .incoming .binary sampleAnswers, .reply, .reply] _ :=
    .cons rfl
      (.cons rfl (.cons rfl (.cons rfl (.cons rfl (.cons rfl (.cons rfl (.cons rfl (.nil _))))))))
  have reached : (observedSystem initCrates plainSession).Reachable _ := ⟨_, _, rfl, run⟩
  exact ⟨_, reached, rfl, rfl, fatal_untold reached rfl⟩

end Samples

end OaGateway.Owp
