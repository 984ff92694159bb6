import OaGateway.Core.Bridging
import OaGateway.Core.EngineAlgebra
import OaGateway.Dds.Participant
import OaGateway.Supervise

/-! The life of the DDS adapter: sessions from joining the domain on, the retry
loop around them, and what they have on the engine meanwhile. -/
namespace OaGateway.Dds

open Lib OaGateway.Core

/-- Where `serve` stands. -/
inductive ServeStage where
  | joining
  | creating (index : Nat)
  /-- Before the first `drop_adapter`. -/
  | clearing
  | subscribing (tx : Sender) (index : Nat)
  /-- In `drive`. -/
  | driving (tx : Sender)
  /-- Before the last `drop_adapter`. -/
  | leaving (result : Except AdapterError Unit)
  | ended (result : Except AdapterError Unit)

inductive ServeLabel where
  | joined
  | joinFailed (error : String)
  | created
  | createFailed (error : String)
  | cleared (order : IterOrder SubId) (tx : Sender)
  | subscribed
  | shutdown
  /-- No sender of the delivery channel is left. -/
  | drained
  /-- A delivery was forwarded, or could not be, which is only logged. -/
  | forwarded
  | polled
  | pollFailed (error : String)
  | left (order : IterOrder SubId)

section
variable (bridge : DdsBridge)

/-- The loop that creates the topics goes on, or is done. -/
def nextTopic (index : Nat) : ServeStage :=
  if index < bridge.topics.length then .creating index else .clearing

/-- The loop that subscribes goes on, or is done. -/
def nextSub (tx : Sender) (index : Nat) : ServeStage :=
  if index < bridge.topics.length then .subscribing tx index else .driving tx

/-- One step of `serve`. -/
inductive ServeStep (cancelled : Bool) (engine : State) :
    ServeStage → ServeLabel → State → ServeStage → Prop where
  | joined : ServeStep cancelled engine .joining .joined engine (nextTopic bridge 0)
  | joinFailed : ServeStep cancelled engine .joining (.joinFailed error) engine
    (.ended (.error (.failedBy bridge.id error)))
  | created : ServeStep cancelled engine (.creating index) .created engine
    (nextTopic bridge (index + 1))
  | createFailed :
      ServeStep cancelled engine (.creating index) (.createFailed error) engine
        (.ended (.error (.failedBy bridge.id error)))
  | cleared : ServeStep cancelled engine .clearing (.cleared order tx)
    (engine.dropAdapter order bridge.id).2 (nextSub bridge tx 0)
  | subscribed (named : bridge.topics[index]? = some topic)
      (answer : engine.subscribe bridge.id (outSubId "dds-" index) (.wildcard topic) tx =
        (.ok key, after)) :
      ServeStep cancelled engine (.subscribing tx index) .subscribed after
        (nextSub bridge tx (index + 1))
  | refused (named : bridge.topics[index]? = some topic)
      (answer : engine.subscribe bridge.id (outSubId "dds-" index) (.wildcard topic) tx =
        (.error error, after)) :
      ServeStep cancelled engine (.subscribing tx index) .subscribed after
        (.ended (.error (.failedBy bridge.id error.display)))
  | shutdown (stop : cancelled = true) : ServeStep cancelled engine (.driving tx) .shutdown engine
    (.leaving (.ok ()))
  | drained (unbound : ∀ key sub, engine.byKey.lookup key = some sub → sub.tx ≠ tx) :
      ServeStep cancelled engine (.driving tx) .drained engine (.leaving (.ok ()))
  | forwarded : ServeStep cancelled engine (.driving tx) .forwarded engine (.driving tx)
  | polled : ServeStep cancelled engine (.driving tx) .polled engine (.driving tx)
  | pollFailed :
      ServeStep cancelled engine (.driving tx) (.pollFailed error) engine
        (.leaving (.error (.failedBy bridge.id error)))
  | left : ServeStep cancelled engine (.leaving result) (.left order)
    (engine.dropAdapter order bridge.id).2 (.ended result)

def ServeStage.result : ServeStage → Option (Except AdapterError Unit)
  | ended result => some result
  | _ => none

/-- `run`, while others use the engine. -/
def serveSupervision (policy : RetryPolicy) :
    Supervision State ServeStage ServeLabel Call (Except AdapterError Unit)
      (Except AdapterError Unit) :=
  policy.supervision (fun _ stage => stage = .joining) (ServeStep bridge) ServeStage.result
    (fun engine call after => call.caller ≠ bridge.id ∧ after = call.apply engine)

def serveSystem (policy : RetryPolicy) :=
  (serveSupervision bridge policy).system fun engine => calls.Reachable engine ∧
    Released bridge.id engine

/-- All the adapter has on the engine is subscriptions to its topics. -/
def Sharing (engine : State) : Prop :=
  ∀ subId sub, engine.byKey.lookup ⟨bridge.id, subId⟩ = some sub →
    ∃ index topic, bridge.topics[index]? = some topic ∧ subId = outSubId "dds-" index ∧
      sub.route = .wildcard topic

/-- The adapter has the first of its topics on the engine, all to one channel. -/
def Subscribed (tx : Sender) (count : Nat) (engine : State) : Prop :=
  ∀ subId sub, engine.byKey.lookup ⟨bridge.id, subId⟩ = some sub ↔
    ∃ index topic, index < count ∧ bridge.topics[index]? = some topic ∧
    subId = outSubId "dds-" index ∧
      sub = ⟨.wildcard topic, tx⟩

end

section Engine
variable {bridge : DdsBridge} {engine after : State} {tx : Sender} {index : Nat}

theorem released_sharing (released : Released bridge.id engine) : Sharing bridge engine := by
  intro subId sub held
  rw [released subId] at held
  cases held

theorem Subscribed.sharing {count : Nat} (subscribed : Subscribed bridge tx count engine) :
    Sharing bridge engine := by
  intro subId sub held
  obtain ⟨index, topic, -, named, same, rfl⟩ := (subscribed subId sub).mp held
  exact ⟨index, topic, named, same, rfl⟩

theorem released_subscribed (released : Released bridge.id engine) (tx : Sender) :
    Subscribed bridge tx 0 engine := by
  intro subId sub
  rw [released subId]
  simp

theorem Subscribed.next {topic : String} {key : SubscriberKey}
    (subscribed : Subscribed bridge tx index engine) (named : bridge.topics[index]? = some topic)
    (answer : engine.subscribe bridge.id (outSubId "dds-" index) (.wildcard topic) tx =
      (.ok key, after)) :
    Subscribed bridge tx (index + 1) after := by
  intro subId sub
  rw [(State.subscribe_ok answer).2, Table.lookup_insert_ite]
  by_cases same : subId = outSubId "dds-" index
  · subst same
    rw [if_pos rfl]
    constructor
    · intro held
      cases held
      exact ⟨index, topic, Nat.lt_succ_self index, named, rfl, rfl⟩
    · rintro ⟨other, text, -, there, own, rfl⟩
      obtain rfl := outSubId_injective own
      rw [named] at there
      cases there
      rfl
  · rw [if_neg (by simpa using same), subscribed]
    constructor
    · rintro ⟨other, text, below, rest⟩
      exact ⟨other, text, Nat.lt_succ_of_lt below, rest⟩
    · rintro ⟨other, text, below, there, rfl, rfl⟩
      rcases Nat.lt_succ_iff_lt_or_eq.mp below with earlier | rfl
      · exact ⟨other, text, earlier, there, rfl, rfl⟩
      · exact absurd rfl same

/-- No key of the loop is taken when its turn comes. -/
theorem Subscribed.not_refused {error : EngineError} {route : RouteKey}
    (subscribed : Subscribed bridge tx index engine)
    (answer : engine.subscribe bridge.id (outSubId "dds-" index) route tx = (.error error, after)) :
    False := by
  obtain ⟨sub, held⟩ := Option.isSome_iff_exists.mp (State.subscribe_error answer).1
  obtain ⟨other, topic, below, -, same, -⟩ := (subscribed _ _).mp held
  exact absurd (outSubId_injective same) (Nat.ne_of_gt below)

end Engine

section Sessions
variable {bridge : DdsBridge} {policy : RetryPolicy} {engine : State} {tx : Sender} {index : Nat}
  {crashed cancelled : Bool}

/-- A session that ended well was told to, or had nothing to bridge. -/
def Excused (bridge : DdsBridge) (cancelled : Bool) (result : Except AdapterError Unit) : Prop :=
  result = .ok () → cancelled = true ∨ bridge.topics = []

/-- What is left between sessions: nothing, unless one of them crashed. -/
def Settled (bridge : DdsBridge) (crashed : Bool) (engine : State) : Prop :=
  Sharing bridge engine ∧ (crashed = false → Released bridge.id engine)

/-- What a session has on the engine. -/
def Standing (bridge : DdsBridge) (crashed cancelled : Bool) (engine : State) : ServeStage → Prop
  | .joining | .creating _ | .clearing => Settled bridge crashed engine
  | .subscribing tx index => Subscribed bridge tx index engine
  | .driving tx => Subscribed bridge tx bridge.topics.length engine
  | .leaving result => Sharing bridge engine ∧ Excused bridge cancelled result
  | .ended result => Settled bridge crashed engine ∧ Excused bridge cancelled result

theorem released_settled (released : Released bridge.id engine) : Settled bridge crashed engine :=
  ⟨released_sharing released, fun _ => released⟩

theorem standing_nextTopic (settled : Settled bridge crashed engine) :
    Standing bridge crashed cancelled engine (nextTopic bridge index) := by
  rw [nextTopic]
  split <;> exact settled

theorem standing_nextSub (subscribed : Subscribed bridge tx index engine) :
    Standing bridge crashed cancelled engine (nextSub bridge tx index) := by
  rw [nextSub]
  split
  · exact subscribed
  · rename_i all
    intro subId sub
    rw [subscribed subId sub]
    constructor
    · rintro ⟨other, topic, -, named, rest⟩
      exact ⟨other, topic, (List.getElem?_eq_some_iff.mp named).1, named, rest⟩
    · rintro ⟨other, topic, below, named, rest⟩
      exact ⟨other, topic, Nat.lt_of_lt_of_le below (Nat.le_of_not_lt all), named, rest⟩

theorem excused_error {error : AdapterError} : Excused bridge cancelled (.error error) := by
  intro same
  cases same

theorem Standing.sharing {stage : ServeStage}
    (standing : Standing bridge crashed cancelled engine stage) :
    Sharing bridge engine := by
  cases stage with
  | joining | creating | clearing => exact standing.1
  | subscribing | driving => exact Subscribed.sharing standing
  | leaving => exact standing.1
  | ended => exact standing.1.1

/-- Others change nothing in the account. -/
theorem Standing.congr {other : State} {stage : ServeStage}
    (standing : Standing bridge crashed cancelled engine stage)
    (same : ∀ subId, other.byKey.lookup ⟨bridge.id, subId⟩ =
      engine.byKey.lookup ⟨bridge.id, subId⟩) :
    Standing bridge crashed cancelled other stage := by
  cases stage <;> simpa only [Standing, Settled, Sharing, Released, Subscribed, same] using standing

theorem excused_cancelled {result : Except AdapterError Unit} : Excused bridge true result :=
  fun _ => .inl rfl

/-- One step of a session keeps the account. -/
theorem standing_step {stage later : ServeStage} {label : ServeLabel} {after : State}
    (indexed : Indexed engine) (standing : Standing bridge crashed cancelled engine stage)
    (step : ServeStep bridge cancelled engine stage label after later) :
    Indexed after ∧ Standing bridge crashed cancelled after later := by
  cases step with
  | joined | created => exact ⟨indexed, standing_nextTopic standing⟩
  | joinFailed | createFailed => exact ⟨indexed, standing, excused_error⟩
  | cleared => exact ⟨indexed.dropAdapter _ _,
    standing_nextSub (released_subscribed (.dropAdapter indexed _) _)⟩
  | subscribed named answer =>
    exact ⟨indexed.of_subscribe answer,
      standing_nextSub (Subscribed.next standing named answer)⟩
  | refused named answer => exact (Subscribed.not_refused standing answer).elim
  | shutdown stop => exact ⟨indexed, Subscribed.sharing standing, fun _ => .inl stop⟩
  | drained unbound =>
    refine ⟨indexed, Subscribed.sharing standing, fun _ => .inr ?_⟩
    cases topics : bridge.topics with
    | nil => rfl
    | cons topic rest =>
      have held := (standing (outSubId "dds-" 0) ⟨.wildcard topic, _⟩).mpr
        ⟨0, topic, by simp [topics], by simp [topics], rfl, rfl⟩
      exact absurd rfl (unbound _ _ held)
  | forwarded | polled => exact ⟨indexed, standing⟩
  | pollFailed => exact ⟨indexed, Subscribed.sharing standing, excused_error⟩
  | left => exact ⟨indexed.dropAdapter _ _, released_settled (.dropAdapter indexed _), standing.2⟩

/-- How an attempt may have ended. -/
def ServedPast (bridge : DdsBridge) (cancelled : Bool) : Ended (Except AdapterError Unit) → Prop
  | .finished result => Excused bridge cancelled result
  | .crashed => True

theorem serve_sound : (serveSupervision bridge policy).Sound
    (fun engine => calls.Reachable engine ∧ Released bridge.id engine)
    (fun crashed engine => Indexed engine ∧ Settled bridge crashed engine)
    (fun crashed cancelled engine stage => Indexed engine ∧
      Standing bridge crashed cancelled engine stage)
    (ServedPast bridge) where
  initially := by
    rintro engine ⟨reached, released⟩
    exact ⟨.of_reachable reached, released_settled released⟩
  starts := by
    rintro crashed engine _ ⟨indexed, settled⟩ rfl
    exact ⟨indexed, settled⟩
  works := by
    rintro crashed cancelled engine stage label after later ⟨indexed, standing⟩ step
    exact standing_step indexed standing step
  finishes := by
    rintro crashed cancelled engine stage result ⟨indexed, standing⟩ done
    cases stage with
    | ended ended =>
      cases done
      exact ⟨⟨indexed, standing.1⟩, standing.2⟩
    | _ => cases done
  crashes := by
    rintro crashed cancelled engine stage ⟨indexed, standing⟩ -
    exact ⟨⟨indexed, standing.sharing, fun calm => by cases calm⟩, trivial⟩
  asideIdle := by
    rintro crashed engine call _ ⟨indexed, settled⟩ ⟨foreign, rfl⟩
    refine ⟨indexed.apply call, ?_⟩
    have same (subId : SubId) : (call.apply engine).byKey.lookup ⟨bridge.id, subId⟩ =
        engine.byKey.lookup ⟨bridge.id, subId⟩ := indexed.lookup_of_caller_ne foreign.symm
    simpa only [Settled, Sharing, Released, same] using settled
  asideBusy := by
    rintro crashed cancelled engine stage call _ ⟨indexed, standing⟩ ⟨foreign, rfl⟩
    exact ⟨indexed.apply call, standing.congr fun subId => indexed.lookup_of_caller_ne foreign.symm⟩
  lateBusy := by
    rintro crashed cancelled engine stage ⟨indexed, standing⟩
    refine ⟨indexed, ?_⟩
    cases stage with
    | leaving result => exact ⟨standing.1, excused_cancelled⟩
    | ended result => exact ⟨standing.1, excused_cancelled⟩
    | _ => exact standing
  latePast := by
    intro cancelled ended past
    cases ended with
    | finished result => exact excused_cancelled
    | crashed => trivial

end Sessions

/-- Whatever fails, panics or is retried, and whatever others do: all the adapter
ever has on the engine is its own keys on its own topics, it has all of them while
it drives a session, its subscriptions are never refused, and between sessions it
has none as long as none has panicked. -/
theorem dds_engine_share (bridge : DdsBridge) (policy : RetryPolicy)
    (run : Supervised State ServeStage (Except AdapterError Unit) (Except AdapterError Unit))
    (reached : (serveSystem bridge policy).Reachable run) :
    Sharing bridge run.world ∧
      (∀ tx, run.watch = .trying (.driving tx) →
        Subscribed bridge tx bridge.topics.length run.world) ∧
      (∀ tx index topic, run.watch = .trying (.subscribing tx index) → ∀ error after,
        run.world.subscribe bridge.id (outSubId "dds-" index) (.wildcard topic) tx ≠
          (.error error, after)) ∧
      (run.crashed = false → (∀ stage, run.watch ≠ .trying stage) →
          Released bridge.id run.world) := by
  have stands := serve_sound.stands reached
  refine ⟨?_, fun tx here => (stands.trying _ here).2,
    fun tx index topic here error after answer => ?_, fun calm away => (stands.idle away).2.2 calm⟩
  · cases watch : run.watch with
    | trying stage => exact (stands.trying stage watch).2.sharing
    | _ => exact (stands.idle (by simp [watch])).2.1
  · exact Subscribed.not_refused (stands.trying _ here).2 answer

/-- An adapter with a topic to bridge ends well only after a shutdown, and with
`reconnect` on and panics to be retried it does not end in any other way. -/
theorem dds_run_answers (bridge : DdsBridge) (policy : RetryPolicy) (bridges : bridge.topics ≠ [])
    (run : Supervised State ServeStage (Except AdapterError Unit) (Except AdapterError Unit))
    (reached : (serveSystem bridge policy).Reachable run) :
    (run.watch = .answered (.ok ()) → run.cancelled = true) ∧
      ∀ error, run.watch = .answered (.error error) →
        policy.reconnect = false ∨ policy.onPanic = .abort ∧ error = policy.panicked := by
  have stands := serve_sound.stands reached
  constructor
  · intro here
    rcases stands.answered _ here with ⟨-, cancelled⟩ | ⟨ended, verdict, past⟩
    · exact cancelled
    · obtain ⟨-, rfl⟩ := RetryPolicy.verdict_ok verdict
      exact (past rfl).resolve_right bridges
  · intro error here
    rcases stands.answered _ here with ⟨same, -⟩ | ⟨ended, verdict, -⟩
    · cases same
    · rcases RetryPolicy.verdict_error verdict with ⟨off, -⟩ | ⟨gives, -, same⟩
      · exact .inl off
      · rcases gives with abort | off
        · exact .inr ⟨abort, same⟩
        · exact .inl off

section Samples

def demoBridge : DdsBridge :=
  { id := ⟨"dds"⟩, config := ⟨true, 16 * 1024 * 1024, none, .off⟩, topics := ["demo"],
    suppressEcho := true }

def retrying : RetryPolicy := ⟨⟨"dds"⟩, true, .reconnect⟩

/-- A session that drives after one that panicked. -/
theorem run_driving (order : IterOrder SubId) :
    ∃ engine, (serveSystem demoBridge retrying).Run ⟨.default, .checking, false, false⟩
    [.start, .work .joined, .crash, .judge, .wake, .start, .work .joined, .work .created,
      .work (.cleared order ⟨0⟩), .work .subscribed]
    ⟨engine, .trying (.driving ⟨0⟩), false, true⟩ :=
  ⟨_, .cons (.start rfl rfl rfl)
    (.cons (.work rfl .joined) (.cons (.crash rfl rfl) (.cons (.again rfl rfl)
    (.cons (.wake rfl) (.cons (.start rfl rfl rfl)
      (.cons (.work rfl .joined) (.cons (.work rfl .created)
      (.cons (.work rfl .cleared) (.single (.work rfl (.subscribed rfl rfl)))))))))))⟩

theorem initial_default :
    (serveSystem demoBridge retrying).initial ⟨.default, .checking, false, false⟩ :=
  ⟨⟨⟨.default, [], rfl, .nil _⟩, fun _ => rfl⟩, rfl, rfl⟩

theorem dds_drives_after_panic : ∃ run, (serveSystem demoBridge retrying).Reachable run ∧
    run.watch = .trying (.driving ⟨0⟩) ∧ run.crashed = true ∧
      Subscribed demoBridge ⟨0⟩ 1 run.world := by
  obtain ⟨engine, run⟩ := run_driving .unspecified
  have reached : (serveSystem demoBridge retrying).Reachable _ := ⟨_, _, initial_default, run⟩
  exact ⟨_, reached, rfl, rfl, (dds_engine_share demoBridge retrying _ reached).2.1 ⟨0⟩ rfl⟩

theorem dds_shuts_down : ∃ run, (serveSystem demoBridge retrying).Reachable run ∧
    run.watch = .answered (.ok ()) ∧ run.cancelled = true := by
  obtain ⟨engine, run⟩ := run_driving .unspecified
  have ends : (serveSystem demoBridge retrying).Run ⟨engine, .trying (.driving ⟨0⟩), false, true⟩
      [.cancel, .work .shutdown, .work (.left .unspecified), .finish, .judge]
      ⟨(engine.dropAdapter .unspecified ⟨"dds"⟩).2, .answered (.ok ()), true, true⟩ :=
    .cons .cancel (.cons (.work rfl (.shutdown rfl))
      (.cons (.work rfl .left) (.cons (.finish rfl rfl)
      (.single (.again rfl rfl)))))
  have reached : (serveSystem demoBridge retrying).Reachable _ :=
    ⟨_, _, initial_default, run.append ends⟩
  exact ⟨_, reached, rfl, (dds_run_answers demoBridge retrying (by simp [demoBridge]) _ reached).1
    rfl⟩

end Samples

end OaGateway.Dds
