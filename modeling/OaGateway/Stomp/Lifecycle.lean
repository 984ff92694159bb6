import OaGateway.Core.Bridging
import OaGateway.Stomp.Codec
import OaGateway.Supervise

/-! The life of the STOMP adapter: sessions from connect to disconnect, the
retry loop around them, and what they leave behind on the engine. -/
namespace OaGateway.Stomp

open Lib OaGateway.Core

/-- An adapter with what its life depends on besides its topics. -/
structure Lifetime where
  adapter : StompAdapter
  broker : String
  reconnect : Bool
  onPanic : OnPanic
  /-- The sending half of the session's delivery channel. -/
  tx : Sender

inductive SessionStage where
  | connecting
  /-- Connected, before the first `drop_adapter`. -/
  | clearing
  | writing (index : Nat)
  | subscribing (index : Nat)
  /-- In `drive_session`. -/
  | driving
  | disconnecting (result : Except AdapterError Unit)
  /-- Before the last `drop_adapter`. -/
  | leaving (result : Except AdapterError Unit)
  | ended (result : Except AdapterError Unit)

structure SessionRun where
  engine : State
  stage : SessionStage
  cancelled : Bool

inductive SessionEvent where
  | connected
  | connectFailed (error : String)
  | cleared (order : IterOrder SubId)
  | written (index : Nat)
  | writeFailed (index : Nat) (error : String)
  | subscribed (index : Nat)
  | shutdown
  /-- A frame was read and handled. -/
  | frame (frame : Frame)
  | hangup
  | readFailed (error : String)
  | forwarded (delivery : Delivery)
  | sendFailed (delivery : Delivery) (error : String)
  /-- No sender of the channel is left. -/
  | drained
  | disconnected (success : Bool)
  | left (order : IterOrder SubId)
  | cancel
  /-- A call of another adapter. -/
  | other (call : Call)

section
variable (life : Lifetime)

def Lifetime.policy : RetryPolicy := ⟨life.adapter.id, life.reconnect, life.onPanic⟩

def Lifetime.failed (message : String) : AdapterError := .failedBy life.adapter.id message

def Lifetime.next (index : Nat) : SessionStage :=
  if index < life.adapter.config.topics.length then .writing index else .driving

inductive SessionStep (run : SessionRun) : SessionEvent → SessionRun → Prop where
  | connected (here : run.stage = .connecting) :
      SessionStep run .connected { run with stage := .clearing }
  | connectFailed (here : run.stage = .connecting) :
      SessionStep run (.connectFailed error)
        { run with stage := .ended (.error
          (life.failed ("connect " ++ life.broker ++ ": " ++ error))) }
  | cleared (here : run.stage = .clearing) :
      SessionStep run (.cleared order)
        { run with
          engine := (run.engine.dropAdapter order life.adapter.id).2, stage := life.next 0 }
  | written (here : run.stage = .writing index) :
      SessionStep run (.written index) { run with stage := .subscribing index }
  | writeFailed (here : run.stage = .writing index)
      (named : life.adapter.config.topics[index]? = some topic) :
      SessionStep run (.writeFailed index error)
        { run with
          stage := .ended (.error
            (life.failed ("SUBSCRIBE " ++ life.adapter.map.toStomp topic ++ ": " ++ error))) }
  | subscribed (here : run.stage = .subscribing index)
      (named : life.adapter.config.topics[index]? = some topic)
      (answer : run.engine.subscribe life.adapter.id (outSubId "stomp-out-" index)
        (.wildcard topic) life.tx = (.ok key, engine)) :
      SessionStep run (.subscribed index) { run with engine, stage := life.next (index + 1) }
  | refused (here : run.stage = .subscribing index)
      (named : life.adapter.config.topics[index]? = some topic)
      (answer : run.engine.subscribe life.adapter.id (outSubId "stomp-out-" index)
        (.wildcard topic) life.tx = (.error error, engine)) :
      SessionStep run (.subscribed index)
        { run with engine, stage := .ended (.error (life.failed error.display)) }
  | shutdown (here : run.stage = .driving) (stop : run.cancelled = true) :
      SessionStep run .shutdown { run with stage := .disconnecting (.ok ()) }
  -- a frame that cannot be handled is only warned about
  | frame (here : run.stage = .driving) : SessionStep run (.frame frame) run
  | hangup (here : run.stage = .driving) :
      SessionStep run .hangup
        { run with stage := .disconnecting (.error (life.failed "broker closed the connection")) }
  | readFailed (here : run.stage = .driving) :
      SessionStep run (.readFailed error)
        { run with stage := .disconnecting (.error (life.failed error)) }
  | forwarded (here : run.stage = .driving) : SessionStep run (.forwarded delivery) run
  | sendFailed (here : run.stage = .driving) :
      SessionStep run (.sendFailed delivery error)
        { run with stage := .disconnecting (.error (life.failed error)) }
  | drained (here : run.stage = .driving)
      (unbound : ∀ key sub, run.engine.byKey.lookup key = some sub → sub.tx ≠ life.tx) :
      SessionStep run .drained { run with stage := .disconnecting (.ok ()) }
  | disconnected (here : run.stage = .disconnecting result) :
      SessionStep run (.disconnected success) { run with stage := .leaving result }
  | left (here : run.stage = .leaving result) :
      SessionStep run (.left order)
        { run with
          engine := (run.engine.dropAdapter order life.adapter.id).2, stage := .ended result }
  | cancel : SessionStep run .cancel { run with cancelled := true }
  | other (foreign : call.caller ≠ life.adapter.id) :
      SessionStep run (.other call) { run with engine := call.apply run.engine }

def sessionSystem : System SessionRun SessionEvent where
  initial run := run.stage = .connecting ∧ calls.Reachable run.engine
  step := SessionStep life

def SessionStage.result : SessionStage → Option (Except AdapterError Unit)
  | ended result => some result
  | _ => none

/-- The session's own steps, not those of its token or of others. -/
def SessionEvent.Own : SessionEvent → Prop
  | .cancel | .other _ => False
  | _ => True

/-- `serve_inner`, while others use the engine. -/
def serveSupervision :
    Supervision State SessionStage SessionEvent Call (Except AdapterError Unit)
      (Except AdapterError Unit) :=
  life.policy.supervision (fun _ stage => stage = .connecting)
    (fun cancelled engine stage event after later =>
      event.Own ∧ SessionStep life ⟨engine, stage, cancelled⟩ event ⟨after, later, cancelled⟩)
    SessionStage.result
    (fun engine call after => call.caller ≠ life.adapter.id ∧ after = call.apply engine)

/-- The adapter from its start on, on an engine where it holds nothing. -/
def serveSystem :=
  (serveSupervision life).system fun engine => calls.Reachable engine ∧
    Released life.adapter.id engine

end

section Leftovers
variable {life : Lifetime} {id : AdapterId} {engine next : State} {index : Nat}

/-- The adapter holds on the engine exactly what `held` says. -/
def Holds (id : AdapterId) (held : SubId → Prop) (engine : State) : Prop :=
  ∀ subId, (engine.byKey.lookup ⟨id, subId⟩).isSome = true ↔ held subId

/-- The topics subscribed before some index. -/
def Below (index : Nat) (subId : SubId) : Prop :=
  ∃ earlier < index, subId = outSubId "stomp-out-" earlier

theorem Holds.cleared (indexed : Indexed engine) (order : IterOrder SubId) :
    Holds id (Below 0) (engine.dropAdapter order id).2 := by
  intro subId
  rw [indexed.lookup_dropAdapter, if_pos rfl]
  simp [Below]

theorem Holds.other (holds : Holds id held engine) (indexed : Indexed engine) {call : Call}
    (foreign : call.caller ≠ id) : Holds id held (call.apply engine) := by
  intro subId
  rw [indexed.lookup_of_caller_ne foreign.symm]
  exact holds subId

theorem Holds.subscribed (holds : Holds id (Below index) engine)
    (answer : engine.subscribe id (outSubId "stomp-out-" index) route tx = (.ok key, next)) :
    Holds id (Below (index + 1)) next := by
  intro subId
  rw [(State.subscribe_ok answer).2, Table.lookup_insert_ite]
  by_cases same : subId = outSubId "stomp-out-" index
  · subst same
    simpa using ⟨index, Nat.lt_succ_self index, rfl⟩
  · rw [if_neg (by simpa using same), holds subId]
    constructor
    · rintro ⟨earlier, before, rfl⟩
      exact ⟨earlier, Nat.lt_succ_of_lt before, rfl⟩
    · rintro ⟨earlier, before, rfl⟩
      rcases Nat.lt_succ_iff_lt_or_eq.mp before with below | rfl
      · exact ⟨earlier, below, rfl⟩
      · exact absurd rfl same

/-- No key of the loop is taken when its turn comes. -/
theorem Holds.not_refused (holds : Holds id (Below index) engine)
    (answer : engine.subscribe id (outSubId "stomp-out-" index) route tx = (.error error, next)) :
    False := by
  obtain ⟨earlier, before, same⟩ := (holds _).mp (State.subscribe_error answer).1
  exact absurd (outSubId_injective same) (Nat.ne_of_gt before)

end Leftovers

section Sessions
variable {life : Lifetime} {start : State} {run after : SessionRun} {events : List SessionEvent}

/-- A `SUBSCRIBE` that could not be written although an earlier one was. -/
def SessionEvent.Interrupts : SessionEvent → Prop
  | .writeFailed index _ => 0 < index
  | _ => False

def SessionEvent.Unreached : SessionEvent → Prop
  | .connectFailed _ => True
  | _ => False

/-- Neither has happened. -/
def Quiet (events : List SessionEvent) : Prop :=
  ∀ event ∈ events, ¬ event.Interrupts ∧ ¬ event.Unreached

/-- What a session leaves on the engine: nothing of the adapter's, or what was
there before it failed to connect. -/
def LeavesClean (id : AdapterId) (start : State) (events : List SessionEvent)
    (after : State) : Prop :=
  ∀ subId, (after.byKey.lookup ⟨id, subId⟩).isSome = true →
    (∃ event ∈ events, event.Unreached) ∧ (start.byKey.lookup ⟨id, subId⟩).isSome = true

/-- How far a session is: what it holds, and what has not gone wrong. -/
def Progress (life : Lifetime) (start : State) (events : List SessionEvent) (engine : State) :
    SessionStage → Prop
  | .connecting => Quiet events ∧ Holds life.adapter.id
      (fun subId => (start.byKey.lookup ⟨life.adapter.id, subId⟩).isSome = true) engine
  | .writing index | .subscribing index => Quiet events ∧ Holds life.adapter.id (Below index) engine
  | .clearing | .driving | .disconnecting _ | .leaving _ => Quiet events
  | .ended _ =>
    LeavesClean life.adapter.id start events engine ↔ ∀ event ∈ events, ¬ event.Interrupts

theorem Quiet.snoc (quiet : Quiet events) {event : SessionEvent} (fine : ¬ event.Interrupts)
    (reached : ¬ event.Unreached) :
    Quiet (events ++ [event]) := by
  intro other member
  rcases List.mem_append.mp member with early | last
  · exact quiet other early
  · rw [List.mem_singleton.mp last]
    exact ⟨fine, reached⟩

theorem progress_next (quiet : Quiet events) (holds : Holds life.adapter.id (Below index) engine) :
    Progress life start events engine (life.next index) := by
  rw [Lifetime.next]
  split
  · exact ⟨quiet, holds⟩
  · exact quiet

/-- Steps of others, and of the token, change nothing in the account. -/
theorem Progress.elsewhere (progress : Progress life start events engine stage)
    (same : ∀ subId, other.byKey.lookup ⟨life.adapter.id, subId⟩ =
      engine.byKey.lookup ⟨life.adapter.id, subId⟩)
    {event : SessionEvent} (fine : ¬ event.Interrupts) (reached : ¬ event.Unreached) :
    Progress life start (events ++ [event]) other stage := by
  have holds {held} (before : Holds life.adapter.id held engine) :
      Holds life.adapter.id held other := by
    intro subId
    rw [same]
    exact before subId
  cases stage with
  | connecting | writing | subscribing => exact ⟨progress.1.snoc fine reached, holds progress.2⟩
  | clearing | driving | disconnecting | leaving => exact Quiet.snoc progress fine reached
  | ended =>
    have unreached : (∃ other ∈ events ++ [event], other.Unreached) ↔
        ∃ other ∈ events, other.Unreached := by
      simp [or_and_right, exists_or, reached]
    have interrupts : (∀ other ∈ events ++ [event], ¬ other.Interrupts) ↔
        ∀ other ∈ events, ¬ other.Interrupts := by
      simp [or_imp, forall_and, fine]
    simp only [Progress, LeavesClean, same, unreached, interrupts] at progress ⊢
    exact progress

theorem leavesClean_of_none {id : AdapterId} (none : Holds id (Below 0) engine) :
    LeavesClean id start events engine := by
  intro subId held
  obtain ⟨_, impossible, _⟩ := (none subId).mp held
  exact absurd impossible (Nat.not_lt_zero _)

/-- One step keeps the account of what is held. -/
theorem progress_step (indexed : Indexed run.engine)
    (progress : Progress life start events run.engine run.stage)
    (step : SessionStep life run event after) :
    Progress life start (events ++ [event]) after.engine after.stage := by
  cases step with
  | connected here =>
    rw [here] at progress
    exact progress.1.snoc id id
  | @connectFailed error here =>
    rw [here] at progress
    obtain ⟨quiet, kept⟩ := progress
    refine iff_of_true ?_ ?_
    · exact fun subId held => ⟨⟨.connectFailed error, by simp, trivial⟩, (kept subId).mp held⟩
    · simpa [or_imp, forall_and, SessionEvent.Interrupts] using
        fun event member => (quiet event member).1
  | cleared here =>
    rw [here] at progress
    exact progress_next (Quiet.snoc progress id id) (.cleared indexed _)
  | written here =>
    rw [here] at progress
    exact ⟨progress.1.snoc id id, progress.2⟩
  | @writeFailed index topic error here named =>
    rw [here] at progress
    obtain ⟨quiet, holds⟩ := progress
    cases index with
    | zero =>
      have fine := @Quiet.snoc events quiet (.writeFailed 0 error) (Nat.lt_irrefl 0) id
      exact iff_of_true (leavesClean_of_none holds) fun event member => (fine event member).1
    | succ index =>
      -- the first topic is subscribed, and nothing drops it
      refine iff_of_false (fun clean => ?_) (fun fine => ?_)
      · obtain ⟨⟨event, member, unreached⟩, -⟩ :=
          clean (outSubId "stomp-out-" 0) ((holds _).mpr ⟨0, Nat.succ_pos index, rfl⟩)
        rcases List.mem_append.mp member with early | last
        · exact (quiet event early).2 unreached
        · rw [List.mem_singleton.mp last] at unreached
          exact unreached
      · exact fine (.writeFailed (index + 1) error) (by simp) (Nat.succ_pos index)
  | subscribed here named answer =>
    rw [here] at progress
    exact progress_next (progress.1.snoc id id) (progress.2.subscribed answer)
  | refused here named answer =>
    rw [here] at progress
    exact (progress.2.not_refused answer).elim
  | shutdown here | hangup here | readFailed here | sendFailed here | drained here
  | disconnected here =>
    rw [here] at progress
    exact Quiet.snoc progress id id
  | frame here | forwarded here =>
    rw [here] at progress ⊢
    exact Quiet.snoc progress id id
  | @left result order here =>
    rw [here] at progress
    have fine := @Quiet.snoc events progress (.left order) id id
    exact iff_of_true (leavesClean_of_none (.cleared indexed order))
      fun event member => (fine event member).1
  | cancel => exact progress.elsewhere (fun _ => rfl) id id
  | other foreign =>
    exact progress.elsewhere (fun _ => indexed.lookup_of_caller_ne foreign.symm) id id

theorem indexed_step (indexed : Indexed run.engine) (step : SessionStep life run event after) :
    Indexed after.engine := by
  cases step with
  | cleared | left => exact indexed.dropAdapter _ _
  | subscribed here named answer | refused here named answer =>
    exact indexed.of_subscribe answer
  | other => exact indexed.apply _
  | _ => exact indexed

theorem session_progress (connecting : run.stage = .connecting) (indexed : Indexed run.engine)
    (session : (sessionSystem life).Run run events after) :
    Indexed after.engine ∧ Progress life run.engine events after.engine after.stage := by
  refine session.snocInduction
    (motive := fun events after => Indexed after.engine ∧
      Progress life run.engine events after.engine after.stage) ?_ ?_
  · rw [connecting]
    exact ⟨indexed, nofun, fun _ => Iff.rfl⟩
  · rintro events middle event target - ⟨indexed, progress⟩ step
    exact ⟨indexed_step indexed step, progress_step indexed progress step⟩

end Sessions

section Serving
variable {life : Lifetime}
  {before after :
    Supervised State SessionStage (Except AdapterError Unit) (Except AdapterError Unit)}
  {events : List (Watched SessionEvent Call)} {event : Watched SessionEvent Call}
  {engine other : State}

/-- A `SUBSCRIBE` of a session could not be written after another one. -/
def Interrupted : Watched SessionEvent Call → Prop
  | .work event => event.Interrupts
  | _ => False

/-- Nothing is left where nothing was held before and the session left cleanly. -/
theorem LeavesClean.released {id : AdapterId} {start : State} {events : List SessionEvent}
    (none : Released id start) :
    LeavesClean id start events engine ↔ Released id engine := by
  constructor
  · intro clean subId
    by_contra held
    obtain ⟨-, before⟩ := clean subId (Option.isSome_iff_ne_none.mpr held)
    rw [none subId] at before
    cases before
  · intro released subId held
    rw [released subId] at held
    cases held

/-- How far a life without reconnecting is, if its session has not panicked. -/
def Settled (life : Lifetime) (events : List (Watched SessionEvent Call)) (engine : State) :
    Watch SessionStage (Except AdapterError Unit) (Except AdapterError Unit) → Prop
  | .checking => Released life.adapter.id engine ∧ ∀ event ∈ events, ¬ Interrupted event
  | .trying stage =>
    ∃ start inner, Released life.adapter.id start ∧ Progress life start inner engine stage ∧
      ((∀ event ∈ events, ¬ Interrupted event) ↔ ∀ event ∈ inner, ¬ event.Interrupts)
  | .pausing | .joined .crashed => False
  | .joined (.finished _) | .answered _ =>
    Released life.adapter.id engine ↔ ∀ event ∈ events, ¬ Interrupted event

theorem forall_snoc (fine : ¬ Interrupted event) :
    (∀ other ∈ events ++ [event], ¬ Interrupted other) ↔ ∀ other ∈ events, ¬ Interrupted other := by
  simp [or_imp, forall_and, fine]

/-- Steps of others, and of the token, change nothing here either. -/
theorem Settled.elsewhere {watch} (settled : Settled life events engine watch)
    (same : ∀ subId, other.byKey.lookup ⟨life.adapter.id, subId⟩ =
      engine.byKey.lookup ⟨life.adapter.id, subId⟩)
    (fine : ¬ Interrupted event) : Settled life (events ++ [event]) other watch := by
  cases watch with
  | checking | answered => simpa only [Settled, Released, same, forall_snoc fine] using settled
  | trying stage =>
    obtain ⟨start, inner, released, progress, level⟩ := settled
    refine ⟨start, inner ++ [.cancel], released, progress.elsewhere same id id,
      (forall_snoc fine).trans (level.trans ?_)⟩
    simp [or_imp, forall_and, SessionEvent.Interrupts]
  | joined ended =>
    cases ended with
    | finished => simpa only [Settled, Released, same, forall_snoc fine] using settled
    | crashed => exact settled
  | pausing => exact settled

theorem settled_step (off : life.reconnect = false) (indexed : Indexed before.world)
    (settled : Settled life events before.world before.watch) (calm : event ≠ .crash)
    (step : (serveSystem life).step before event after) :
    Indexed after.world ∧ Settled life (events ++ [event]) after.world after.watch := by
  cases step with
  | stop here =>
    rw [here] at settled
    exact ⟨indexed, iff_of_true settled.1 ((forall_snoc id).mpr settled.2)⟩
  | start here alive begins =>
    rw [here] at settled
    cases begins
    refine ⟨indexed, before.world, [], settled.1, ⟨by simp [Quiet], fun subId => Iff.rfl⟩, ?_⟩
    exact iff_of_true ((forall_snoc id).mpr settled.2) (by simp)
  | @work stage label world later here moved =>
    rw [here] at settled
    obtain ⟨start, inner, released, progress, level⟩ := settled
    refine ⟨indexed_step indexed moved.2, start, inner ++ [label], released,
      progress_step indexed progress moved.2, ?_⟩
    rw [List.forall_mem_append, List.forall_mem_append, level, List.forall_mem_singleton,
      List.forall_mem_singleton]
    exact Iff.rfl
  | @finish stage value here done =>
    rw [here] at settled
    obtain ⟨start, inner, released, progress, level⟩ := settled
    cases stage with
    | ended result =>
      rw [Progress, LeavesClean.released released] at progress
      exact ⟨indexed, progress.trans (level.symm.trans (forall_snoc id).symm)⟩
    | _ => cases done
  | crash => exact absurd rfl calm
  | @answer ended answer here verdict =>
    rw [here] at settled
    cases ended with
    | finished result => exact ⟨indexed, Iff.trans settled (forall_snoc id).symm⟩
    | crashed => exact settled.elim
  | @again ended here verdict =>
    rw [here] at settled
    cases ended with
    | finished result =>
      cases result <;>
        simp [serveSupervision, RetryPolicy.supervision, RetryPolicy.verdict, RetryPolicy.joined,
          RetryPolicy.afterJoin, Lifetime.policy, off] at verdict
    | crashed => exact settled.elim
  | interrupted here | wake here =>
    rw [here] at settled
    exact settled.elim
  | cancel => exact ⟨indexed, settled.elsewhere (fun _ => rfl) id⟩
  | @aside call world moved =>
    obtain ⟨foreign, rfl⟩ := moved
    exact ⟨indexed.apply call, settled.elsewhere
      (fun _ => indexed.lookup_of_caller_ne foreign.symm) id⟩

/-- A session leaves the engine clean, and a life without reconnecting leaves it
without a subscription, exactly when no `SUBSCRIBE` failed after another one. -/
theorem leaves_clean_iff (life : Lifetime) :
    (∀ run events after result, run.stage = .connecting → calls.Reachable run.engine →
      (sessionSystem life).Run run events after → after.stage = .ended result →
      (LeavesClean life.adapter.id run.engine events after.engine ↔
        ∀ event ∈ events, ¬ event.Interrupts)) ∧
    (life.reconnect = false → ∀ run events after answer, (serveSystem life).initial run →
      (serveSystem life).Run run events after → .crash ∉ events → after.watch = .answered answer →
      (Released life.adapter.id after.world ↔ ∀ event ∈ events, ¬ Interrupted event)) := by
  constructor
  · intro run events after result connecting reached session ended
    have progress := (session_progress connecting (.of_reachable reached) session).2
    rwa [ended] at progress
  · intro off run events after answer initial served calm answered
    obtain ⟨⟨reached, released⟩, checking, -⟩ := initial
    have settled := served.snocInduction
      (motive := fun events after => .crash ∉ events → Indexed after.world ∧
        Settled life events after.world after.watch)
      (fun _ => by rw [checking]; exact ⟨.of_reachable reached, released, by simp⟩)
      (fun labels middle label target _ before step calm => by
        obtain ⟨early, last⟩ :=
            List.forall_mem_append.mp (fun other (member : other ∈ labels ++ [label]) =>
          (ne_of_mem_of_not_mem member calm : other ≠ .crash))
        have standing := before fun member => early _ member rfl
        exact settled_step off standing.1 standing.2 (last label (List.mem_singleton_self _)) step)
    have last := (settled calm).2
    rwa [answered] at last

def twoTopics : Lifetime where
  adapter := ⟨⟨"stomp"⟩, ⟨"/topic/", ["a", "b"], true, true⟩⟩
  broker := "127.0.0.1:61613"
  reconnect := false
  onPanic := .abort
  tx := ⟨0⟩

theorem reachable_default : calls.Reachable State.default := ⟨_, [], rfl, .nil _⟩

/-- Both topics are subscribed, and the session drives. -/
noncomputable def comingUp : List SessionEvent :=
  [.connected, .cleared .unspecified, .written 0, .subscribed 0, .written 1, .subscribed 1]

/-- The token stops it. -/
noncomputable def goingDown : List SessionEvent :=
  [.shutdown, .disconnected true, .left .unspecified]

theorem run_comingUp :
    ∃ up, (sessionSystem twoTopics).Run ⟨.default, .connecting, false⟩ comingUp
    ⟨up, .driving, false⟩ ∧
    (serveSystem twoTopics).Run ⟨.default, .checking, false, false⟩ (.start :: comingUp.map .work)
      ⟨up, .trying .driving, false, false⟩ ∧
    (up.byKey.lookup ⟨twoTopics.adapter.id, outSubId "stomp-out-" 0⟩).isSome ∧
    (up.byKey.lookup ⟨twoTopics.adapter.id, outSubId "stomp-out-" 1⟩).isSome := by
  have cleared : (State.default.dropAdapter .unspecified twoTopics.adapter.id).2 = .default := rfl
  obtain ⟨key, first, answer⟩ :
    ∃ key engine, (State.default.dropAdapter .unspecified twoTopics.adapter.id).2.subscribe
      twoTopics.adapter.id (outSubId "stomp-out-" 0) (.wildcard "a") ⟨0⟩ = (.ok key, engine) :=
        ⟨_, _, rfl⟩
  have one := (State.subscribe_ok answer).2
  have free : (first.byKey.lookup ⟨twoTopics.adapter.id, outSubId "stomp-out-" 1⟩).isSome =
      false := by
    rw [one, Table.lookup_insert_ite, if_neg (by decide), cleared]
    rfl
  obtain ⟨other, up, reply⟩ : ∃ key engine,
      first.subscribe twoTopics.adapter.id (outSubId "stomp-out-" 1) (.wildcard "b") ⟨0⟩ =
          (.ok key, engine) := by
    rw [State.subscribe, if_neg (by simp [free])]
    exact ⟨_, _, rfl⟩
  have two := (State.subscribe_ok reply).2
  refine ⟨up, ?_, ?_, ?_, ?_⟩
  · exact .cons (.connected rfl)
      (.cons (.cleared rfl) (.cons (.written rfl) (.cons (.subscribed rfl rfl answer)
      (.cons (.written rfl) (.single (.subscribed rfl rfl reply))))))
  · exact .cons (.start rfl rfl rfl) (.cons (.work rfl ⟨trivial, .connected rfl⟩)
      (.cons (.work rfl ⟨trivial, .cleared rfl⟩) (.cons (.work rfl ⟨trivial, .written rfl⟩)
        (.cons (.work rfl ⟨trivial, .subscribed rfl rfl answer⟩) (.cons
          (.work rfl ⟨trivial, .written rfl⟩)
          (.single (.work rfl ⟨trivial, .subscribed rfl rfl reply⟩)))))))
  · rw [two, Table.lookup_insert_ite, if_neg (by decide), one, Table.lookup_insert_ite, if_pos rfl]
    rfl
  · rw [two, Table.lookup_insert_ite, if_pos rfl]
    rfl

/-- A session subscribes both topics, drives and is shut down: it has both
subscriptions while it drives, and none when it is over. -/
theorem leaves_clean_shutdown : ∃ up down,
    (sessionSystem twoTopics).Run ⟨.default, .connecting, false⟩ comingUp ⟨up, .driving, false⟩ ∧
      (up.byKey.lookup ⟨twoTopics.adapter.id, outSubId "stomp-out-" 0⟩).isSome ∧
      (up.byKey.lookup ⟨twoTopics.adapter.id, outSubId "stomp-out-" 1⟩).isSome ∧
      LeavesClean twoTopics.adapter.id State.default (comingUp ++ .cancel :: goingDown) down ∧
      Released twoTopics.adapter.id down := by
  obtain ⟨up, session, served, first, second⟩ := run_comingUp
  let down := (up.dropAdapter .unspecified twoTopics.adapter.id).2
  have stops : (sessionSystem twoTopics).Run ⟨up, .driving, false⟩ (.cancel :: goingDown)
      ⟨down, .ended (.ok ()), true⟩ :=
    .cons .cancel (.cons (.shutdown rfl rfl) (.cons (.disconnected rfl) (.single (.left rfl))))
  have returns : (serveSystem twoTopics).Run ⟨up, .trying .driving, false, false⟩
      (.cancel :: (goingDown.map .work ++ [.finish, .judge]))
        ⟨down, .answered (.ok ()), true, false⟩ :=
    .cons .cancel (.cons (.work rfl ⟨trivial, .shutdown rfl rfl⟩)
      (.cons (.work rfl ⟨trivial, .disconnected rfl⟩)
      (.cons (.work rfl ⟨trivial, .left rfl⟩)
        (.cons (.finish rfl rfl) (.single (.answer rfl rfl))))))
  refine ⟨up, down, session, first, second, ?_, ?_⟩
  · refine ((leaves_clean_iff twoTopics).1 _ _ _ _ rfl reachable_default
      (session.append stops) rfl).mpr ?_
    simp [comingUp, goingDown, SessionEvent.Interrupts]
  · have initial : (serveSystem twoTopics).initial ⟨.default, .checking, false, false⟩ :=
      ⟨⟨reachable_default, fun _ => rfl⟩, rfl, rfl⟩
    refine ((leaves_clean_iff twoTopics).2 rfl _ _ _ _ initial (served.append returns) ?_ rfl).mpr
      ?_
    · simp [comingUp, goingDown]
    · simp [comingUp, goingDown, Interrupted, SessionEvent.Interrupts]

/-- The second `SUBSCRIBE` cannot be written. -/
noncomputable def brokenOff : List SessionEvent :=
  [.connected, .cleared .unspecified, .written 0, .subscribed 0, .writeFailed 1 "broken pipe"]

/-- Session and adapter are over, and the first topic is still subscribed. -/
theorem leaves_first_topic : ∃ after error,
    (sessionSystem twoTopics).Run ⟨.default, .connecting, false⟩ brokenOff after ∧
      after.stage = .ended (.error error) ∧
      ¬ LeavesClean twoTopics.adapter.id State.default brokenOff after.engine ∧
      (serveSystem twoTopics).Run ⟨.default, .checking, false, false⟩
        (.start :: (brokenOff.map .work ++ [.finish, .judge]))
        ⟨after.engine, .answered (.error error), false, false⟩ ∧
      ¬ Released twoTopics.adapter.id after.engine := by
  obtain ⟨key, engine, answer⟩ :
    ∃ key engine, (State.default.dropAdapter .unspecified twoTopics.adapter.id).2.subscribe
      twoTopics.adapter.id (outSubId "stomp-out-" 0) (.wildcard "a") ⟨0⟩ = (.ok key, engine) :=
        ⟨_, _, rfl⟩
  let error := twoTopics.failed ("SUBSCRIBE " ++ twoTopics.adapter.map.toStomp "b" ++
    ": " ++ "broken pipe")
  have session : (sessionSystem twoTopics).Run ⟨.default, .connecting, false⟩ brokenOff
      ⟨engine, .ended (.error error), false⟩ :=
    .cons (.connected rfl) (.cons (.cleared rfl) (.cons (.written rfl)
      (.cons (.subscribed rfl rfl answer) (.single (.writeFailed rfl rfl)))))
  have served : (serveSystem twoTopics).Run ⟨.default, .checking, false, false⟩
      (.start :: (brokenOff.map .work ++ [.finish, .judge]))
        ⟨engine, .answered (.error error), false, false⟩ :=
    .cons (.start rfl rfl rfl) (.cons (.work rfl ⟨trivial, .connected rfl⟩)
      (.cons (.work rfl ⟨trivial, .cleared rfl⟩) (.cons (.work rfl ⟨trivial, .written rfl⟩)
        (.cons (.work rfl ⟨trivial, .subscribed rfl rfl answer⟩)
          (.cons (.work rfl ⟨trivial, .writeFailed rfl rfl⟩)
          (.cons (.finish rfl rfl) (.single (.answer rfl rfl))))))))
  have left : ¬ LeavesClean twoTopics.adapter.id State.default brokenOff engine := by
    have progress := (session_progress rfl .default session).2
    intro clean
    exact progress.mp clean (.writeFailed 1 "broken pipe") (by simp [brokenOff]) Nat.one_pos
  refine ⟨_, error, session, rfl, left, served, ?_⟩
  exact fun released => left ((LeavesClean.released fun _ => rfl).mpr released)

end Serving

end OaGateway.Stomp
