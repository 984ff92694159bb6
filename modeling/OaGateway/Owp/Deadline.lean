import OaGateway.Owp.Blocking

/-! A session with a clock: when its deadlines can strike. -/
namespace OaGateway.Owp

open Lib

/-- `init_timeout` and `idle_timeout`, in any unit of time. -/
structure Timeouts where
  init : Option Nat
  idle : Option Nat

/-- The timeouts a config stands for. -/
structure Timeouts.Of (timeouts : Timeouts) (config : OwpConfig) : Prop where
  init : config.initTimeout = timeouts.init.isSome
  idle : config.idleTimeout = timeouts.idle.isSome

structure Clocked where
  session : SessionState
  now : Nat
  started : Nat
  lastFrame : Nat
  /-- When frames were taken from the client or for it. -/
  frames : List Nat
  /-- When the deadline struck, and in which phase. -/
  closed : Option (Nat × Phase)

/-- The deadline of the next turn of the loop: fixed from the handshake on while
`INIT` is missing, and moved by every frame after that. -/
def Timeouts.due (timeouts : Timeouts) (clocked : Clocked) : Option Nat :=
  match clocked.session.phase with
  | .awaitingInit => timeouts.init.map (clocked.started + ·)
  | .active _ _ => timeouts.idle.map (clocked.lastFrame + ·)

/-- The arms of `select!` that set `last_frame`. -/
def Event.Frame : Event → Prop
  | .recv | .incoming _ _ => True
  | _ => False

inductive ClockedEvent where
  | tick (now : Nat)
  | moved (event : Event)

section
variable (crates : OwpCrates) (session : Session) (timeouts : Timeouts)

/-- A step of the session, or of the clock. A deadline does not strike early. -/
inductive ClockedStep (clocked : Clocked) : ClockedEvent → Clocked → Prop where
  | tick (later : clocked.now ≤ now) : ClockedStep clocked (.tick now) { clocked with now }
  | timeout (moved : clocked.session.step crates session .timeout = some after)
      (due : timeouts.due clocked = some moment) (passed : moment ≤ clocked.now) :
      ClockedStep clocked (.moved .timeout)
        { clocked with session := after, closed := some (clocked.now, clocked.session.phase) }
  | frame (moved : clocked.session.step crates session event = some after) (frame : event.Frame) :
      ClockedStep clocked (.moved event)
        { clocked with
          session := after, lastFrame := clocked.now, frames := clocked.frames ++ [clocked.now] }
  | other (moved : clocked.session.step crates session event = some after) (still : ¬ event.Frame)
      (on_time : event ≠ .timeout) :
        ClockedStep clocked (.moved event) { clocked with session := after }

def clockedSystem : System Clocked ClockedEvent where
  initial clocked := clocked.session = .start ∧ clocked.started = clocked.now ∧
    clocked.lastFrame = clocked.now ∧
    clocked.frames = [] ∧ clocked.closed = none
  step := ClockedStep crates session timeouts

end

/-- Closing for a deadline, or gone. -/
def Task.Leaving : Task → Prop
  | .writing (.close _) | .stopped => True
  | _ => False

def Task.Answering : Task → Prop
  | .replying _ _ _ | .waiting _ _ _ => True
  | _ => False

/-- What a step does to the session task and its phase. -/
inductive Moves (before next : SessionState) : Event → Prop where
  | still (task : next.task = before.task) (phase : next.phase = before.phase)
      (own : ¬ event.Frame) :
      Moves before next event
  | frame (selecting : before.task = .selecting) (frame : event.Frame) : Moves before next event
  | expired (selecting : before.task = .selecting) (closing : next.task = .writing (.close reason))
      (phase : next.phase = before.phase) : Moves before next .timeout
  | stopped (task : next.task = .stopped) (phase : next.phase = before.phase)
      (own : ¬ event.Frame) :
      Moves before next event
  | wrote (writing : ¬ before.task.Leaving) (task : next.task = .selecting)
      (phase : next.phase = before.phase) (own : ¬ event.Frame) : Moves before next event
  | answered (answering : before.task.Answering) (own : ¬ event.Frame) : Moves before next event

section Punctual
variable {crates : OwpCrates} {session : Session} {timeouts : Timeouts} {clocked after : Clocked}
  {before next : SessionState} {event : Event}

theorem moves_of_advance {index : Nat} {change : Forwarder → Option Forwarder}
    (moved : before.advance index change = some next) (own : ¬ event.Frame) :
    Moves before next event :=
  .still (SessionState.advance_frame moved).2 (by
    rw [SessionState.advance] at moved
    split at moved
    · cases moved
    · cases moved
      rfl) own

theorem moves_of_step (moved : before.step crates session event = some next) :
    Moves before next event := by
  cases event with
  | cancel =>
    cases moved
    exact .still rfl rfl id
  | shutdown =>
    simp only [SessionState.step, SessionState.select_eq_some, Option.ite_none_right_eq_some,
      Option.some.injEq] at moved
    obtain ⟨-, -, rfl⟩ := moved
    exact .stopped rfl rfl id
  | timeout =>
    simp only [SessionState.step, SessionState.select_eq_some, Option.map_eq_some_iff] at moved
    obtain ⟨selecting, reason, -, rfl⟩ := moved
    exact .expired selecting rfl rfl
  | recv =>
    simp only [SessionState.step, SessionState.select_eq_some] at moved
    exact .frame moved.1 trivial
  | hangup =>
    simp only [SessionState.step, SessionState.select_eq_some, Option.some.injEq] at moved
    obtain ⟨-, rfl⟩ := moved
    exact .stopped rfl rfl id
  | incoming message answers =>
    simp only [SessionState.step, SessionState.select_eq_some] at moved
    exact .frame moved.1 trivial
  | written success =>
    simp only [SessionState.step] at moved
    split at moved
    · rename_i message writing
      cases moved
      cases message with
      | op op =>
        cases success with
        | true => exact .wrote (by simp [writing, Task.Leaving]) rfl rfl id
        | false => exact .stopped rfl rfl id
      | pong data => exact .wrote (by simp [writing, Task.Leaving]) rfl rfl id
      | close reason => exact .stopped rfl rfl id
    · cases moved
  | reply =>
    refine .answered ?_ id
    simp only [SessionState.step, SessionState.reply] at moved
    split at moved
    · rename_i task
      simp [task, Task.Answering]
    · rename_i task
      simp [task, Task.Answering]
    · cases moved
  | settle party =>
    simp only [SessionState.step, SessionState.settle] at moved
    split at moved
    · cases moved
    · cases party with
      | forwarder index =>
        cases moved
        exact .still rfl rfl id
      | task =>
        simp only at moved
        split at moved
        · rename_i task
          exact .answered (by simp [task, Task.Answering]) id
        · cases moved
  | queue index =>
    simp only [SessionState.step, SessionState.queue] at moved
    split at moved
    · cases moved
      exact .still rfl rfl id
    · cases moved
  | deliver index envelope | take index | finish index => exact moves_of_advance moved id
  | drop index =>
    simp only [SessionState.step, Option.map_eq_some_iff] at moved
    obtain ⟨middle, moved, rfl⟩ := moved
    have settled : Moves before middle (.drop index) := moves_of_advance moved id
    cases settled with
    | still task phase own => exact .still task phase own
    | frame _ frame => exact frame.elim
    | stopped task phase own => exact .stopped task phase own
    | wrote writing task phase own => exact .wrote writing task phase own
    | answered answering own => exact .answered answering own

/-- A session keeps its clock: its deadline is behind every frame it has taken,
and what closed it was due. -/
structure Punctual (timeouts : Timeouts) (clocked : Clocked) : Prop where
  clock : clocked.started ≤ clocked.lastFrame ∧ clocked.lastFrame ≤ clocked.now
  last : clocked.frames.getLast?.getD clocked.started = clocked.lastFrame
  sorted : ∀ frame ∈ clocked.frames, frame ≤ clocked.lastFrame
  begun : clocked.session.phase ≠ .awaitingInit ∨ clocked.session.task.Answering →
    clocked.frames ≠ []
  shut : clocked.closed.isSome → clocked.session.task.Leaving
  due : ∀ time phase, clocked.closed = some (time, phase) → time ≤ clocked.now ∧
    match phase with
    | .awaitingInit => ∃ length ∈ timeouts.init, clocked.started + length ≤ time
    | .active _ _ =>
      ∃ length ∈ timeouts.idle, clocked.frames ≠ [] ∧ ∀ frame ∈ clocked.frames,
        frame + length ≤ time

/-- A frame is not taken by a session that closes. -/
theorem Moves.not_leaving (moves : Moves before next event) (frame : event.Frame) :
    ¬ before.task.Leaving := by
  cases moves with
  | frame selecting => simp [selecting, Task.Leaving]
  | still _ _ own | stopped _ _ own | wrote _ _ _ own | answered _ own => exact absurd frame own
  | expired selecting => simp [selecting, Task.Leaving]

theorem Moves.leaving (moves : Moves before next event) (leaving : before.task.Leaving) :
    next.task.Leaving := by
  cases moves with
  | still task => rwa [task]
  | frame selecting | expired selecting =>
    rw [selecting] at leaving
    exact leaving.elim
  | stopped task =>
    rw [task]
    trivial
  | wrote writing => exact absurd leaving writing
  | answered answering =>
    cases task : before.task <;> simp_all [Task.Leaving, Task.Answering]

theorem Moves.begun (moves : Moves before next event) (still : ¬ event.Frame)
    (begun : next.phase ≠ .awaitingInit ∨ next.task.Answering) :
    before.phase ≠ .awaitingInit ∨ before.task.Answering := by
  cases moves with
  | still task phase => rwa [task, phase] at begun
  | frame _ frame => exact absurd frame still
  | expired _ task phase | stopped task phase | wrote _ task phase =>
    rw [task, phase] at begun
    exact begun.imp_right fun answering => answering.elim
  | answered answering => exact .inr answering

theorem Punctual.start (initial : (clockedSystem crates session timeouts).initial clocked) :
    Punctual timeouts clocked := by
  obtain ⟨start, started, last, frames, closed⟩ := initial
  refine ⟨by omega, by simp [frames, started, last], by simp [frames],
    fun begun => ?_, by simp [closed], by simp [closed]⟩
  rw [start] at begun
  exact begun.elim (fun active => absurd rfl active) False.elim

/-- A step that takes no frame and starts no closing. -/
theorem Punctual.other (punctual : Punctual timeouts clocked)
    (moves : Moves clocked.session next event) (still : ¬ event.Frame) :
    Punctual timeouts { clocked with session := next } :=
  ⟨punctual.clock, punctual.last, punctual.sorted,
    fun begun => punctual.begun (moves.begun still begun),
    fun closed => moves.leaving (punctual.shut closed), punctual.due⟩

theorem Punctual.step (punctual : Punctual timeouts clocked) {event : ClockedEvent}
    (step : ClockedStep crates session timeouts clocked event after) : Punctual timeouts after := by
  cases step with
  | tick later =>
    refine ⟨⟨punctual.clock.1, punctual.clock.2.trans later⟩, punctual.last, punctual.sorted,
      punctual.begun, punctual.shut, fun time phase closed => ?_⟩
    obtain ⟨past, due⟩ := punctual.due time phase closed
    exact ⟨past.trans later, due⟩
  | @timeout next moment moved due passed =>
    have moves := moves_of_step moved
    obtain ⟨selecting, reason, -, rfl⟩ : clocked.session.task = .selecting ∧ ∃ reason,
        SessionState.deadline session.config clocked.session.phase = some reason ∧
          { clocked.session with task := .writing (.close reason) } = next := by
      simpa only [SessionState.step, SessionState.select_eq_some,
        Option.map_eq_some_iff] using moved
    refine ⟨punctual.clock, punctual.last, punctual.sorted,
      fun begun => punctual.begun (moves.begun id begun), fun _ => trivial, ?_⟩
    rintro time phase closed
    cases closed
    refine ⟨Nat.le_refl _, ?_⟩
    simp only [Timeouts.due] at due
    cases phase : clocked.session.phase with
    | awaitingInit =>
      simp only [phase, Option.map_eq_some_iff] at due
      obtain ⟨length, set, rfl⟩ := due
      exact ⟨length, set, passed⟩
    | active verbose serviceId =>
      simp only [phase, Option.map_eq_some_iff] at due
      obtain ⟨length, set, rfl⟩ := due
      refine ⟨length, set, punctual.begun (.inl (by simp [phase])), fun frame member => ?_⟩
      exact (Nat.add_le_add_right (punctual.sorted frame member) length).trans passed
  | frame moved frame =>
    have moves := moves_of_step moved
    refine ⟨⟨punctual.clock.1.trans punctual.clock.2, Nat.le_refl _⟩, by simp, ?_, by simp,
      fun closed => ?_, ?_⟩
    · intro earlier member
      rcases List.mem_append.mp member with early | late
      · exact (punctual.sorted earlier early).trans punctual.clock.2
      · exact (List.mem_singleton.mp late).le
    · exact absurd (punctual.shut closed) (moves.not_leaving frame)
    · intro time phase closed
      exact absurd (punctual.shut (Option.isSome_of_eq_some closed)) (moves.not_leaving frame)
  | other moved still => exact punctual.other (moves_of_step moved) still

/-- What is due has a reason to close with. -/
theorem Timeouts.Of.deadline (given : timeouts.Of session.config) {moment : Nat}
    (due : timeouts.due clocked = some moment) :
    ∃ reason, SessionState.deadline session.config clocked.session.phase = some reason := by
  simp only [Timeouts.due] at due
  cases phase : clocked.session.phase with
  | awaitingInit =>
    simp only [phase, Option.map_eq_some_iff] at due
    obtain ⟨length, set, -⟩ := due
    exact ⟨_, if_pos (by rw [given.init, set]; rfl)⟩
  | active =>
    simp only [phase, Option.map_eq_some_iff] at due
    obtain ⟨length, set, -⟩ := due
    exact ⟨_, if_pos (by rw [given.idle, set]; rfl)⟩

/-- A deadline closes a session in time and never early: without an `INIT` at a
moment that no frame moves, after it once nothing has been sent either way for as
long as the config says. It closes no session that has no such timeout. -/
theorem deadline_on_time (crates : OwpCrates) (session : Session) (timeouts : Timeouts)
    (clocked : Clocked) (given : timeouts.Of session.config)
    (reached : (clockedSystem crates session timeouts).Reachable clocked) :
    (∀ time phase, clocked.closed = some (time, phase) → clocked.session.task.Leaving ∧
      match phase with
      | .awaitingInit => ∃ length ∈ timeouts.init, clocked.started + length ≤ time
      | .active _ _ =>
        ∃ length ∈ timeouts.idle, clocked.frames ≠ [] ∧ ∀ frame ∈ clocked.frames,
          frame + length ≤ time) ∧
    (clocked.session.phase ≠ .awaitingInit → ∃ last ∈ clocked.frames.getLast?,
      timeouts.due clocked = timeouts.idle.map (last + ·)) ∧
    ∀ moment, timeouts.due clocked = some moment → moment ≤ clocked.now →
      clocked.session.task = .selecting →
        ∃ after, (clockedSystem crates session timeouts).step clocked (.moved .timeout) after ∧
          after.closed.isSome := by
  have punctual : Punctual timeouts clocked :=
    reached.invariant (motive := Punctual timeouts) (fun _ => .start)
      (fun _ _ _ step punctual => punctual.step step)
  refine ⟨fun time phase closed => ?_, fun active => ?_, fun moment due passed selecting => ?_⟩
  · exact ⟨punctual.shut (Option.isSome_of_eq_some closed), (punctual.due time phase closed).2⟩
  · obtain ⟨last, ends⟩ : ∃ last, clocked.frames.getLast? = some last :=
      ⟨_, List.getLast?_eq_some_getLast (punctual.begun (.inl active))⟩
    refine ⟨last, ends, ?_⟩
    have same := punctual.last
    rw [ends, Option.getD_some] at same
    rw [Timeouts.due, same]
    cases phase : clocked.session.phase with
    | awaitingInit => exact absurd phase active
    | active => rfl
  · obtain ⟨reason, set⟩ := given.deadline due
    have moved : clocked.session.step crates session .timeout =
        some { clocked.session with task := .writing (.close reason) } := by
      simp only [SessionState.step, SessionState.select_eq_some, set]
      exact ⟨selecting, rfl⟩
    exact ⟨_, .timeout moved due passed, rfl⟩

end Punctual

/-- A client that says nothing for as long as it may. -/
theorem silent_client_closed : ∃ clocked,
    (clockedSystem initCrates plainSession ⟨some 10, some 30⟩).Reachable clocked ∧
      clocked.closed = some (12, .awaitingInit) ∧ clocked.session.task.Leaving := by
  let start : Clocked := ⟨.start, 2, 2, 2, [], none⟩
  have run : (clockedSystem initCrates plainSession ⟨some 10, some 30⟩).Run start
    [.tick 12, .moved .timeout] _ :=
    .cons (.tick (by decide)) (.single (.timeout rfl rfl (by decide)))
  have reached : (clockedSystem initCrates plainSession ⟨some 10, some 30⟩).Reachable _ :=
    ⟨start, _, ⟨rfl, rfl, rfl, rfl, rfl⟩, run⟩
  exact ⟨_, reached, rfl,
    ((deadline_on_time initCrates plainSession _ _ ⟨rfl, rfl⟩ reached).1 _ _ rfl).1⟩

end OaGateway.Owp
