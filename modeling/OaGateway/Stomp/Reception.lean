import OaGateway.Core.Bridging
import OaGateway.Stomp.Echo

/-! What a bridge starts from, and how often a subscription can get a message
from there. -/
namespace OaGateway.Stomp

open Lib OaGateway.Core

section Start
variable {link : Link}

/-- Each topic adds one subscription on its destination. -/
private theorem length_ownSubs (broker : BrokerState) (topics : List (String × Nat))
    (dest : String) :
    (ownSubs link ((topics.map fun topic => subscribeFrame ("sub-" ++ toString topic.2)
        (link.adapter.map.toStomp topic.1)).foldl (·.heed link.connId) broker) dest).length =
      (ownSubs link broker dest).length +
        topics.countP fun topic => link.adapter.map.toStomp topic.1 == dest := by
  induction topics generalizing broker with
  | nil => simp
  | cons topic rest ih =>
    rw [List.map_cons, List.foldl_cons, ih, BrokerState.heed_subscribeFrame]
    by_cases same : link.adapter.map.toStomp topic.1 = dest
    · simp [ownSubs_eq, same]
      omega
    · simp [ownSubs_eq, same]

end Start

/-- A session is up, nothing is under way, and another adapter begins to publish
the envelope. The session's channel is a new one, and no two adapters share a
channel. -/
structure Started (link : Link) (envelope : Envelope) (bridge : Bridge) : Prop where
  connected : ∃ before order, calls.Reachable before ∧
    (∀ key sub, before.byKey.lookup key = some sub → sub.tx ≠ link.tx) ∧
    bridgeTopics link.adapter.id "stomp-out-" link.adapter.config.topics link.tx order before =
      .ok bridge.world.engine.state
  subscribed : ∃ broker : BrokerState, (∀ dest, ownSubs link broker dest = []) ∧
    (subscribeFrames link.adapter).foldl (·.heed link.connId) broker = bridge.broker
  apart : ∀ key other sub held, bridge.world.engine.state.byKey.lookup key = some sub →
    bridge.world.engine.state.byKey.lookup other = some held → held.tx = sub.tx →
    other.subId = key.subId → other = key
  receivers : ∀ key sub, bridge.world.engine.state.byKey.lookup key = some sub →
    (bridge.world.channels sub.tx.channel).closed = false ∧
      0 < (bridge.world.channels sub.tx.channel).capacity
  channel : bridge.world.channels link.tx.channel = ⟨defaultChannelCapacity, [], false⟩
  published : bridge.world.publishes = [⟨envelope, .counted⟩]
  enqueued : bridge.world.enqueued = []
  toBroker : bridge.toBroker = []
  toAdapter : bridge.toAdapter = []
  idle : bridge.Idle
  foreign : envelope.isEchoOf link.adapter.id = false
  bridged : envelope.route.topic ∈ link.adapter.config.topics

/-- How often the adapter subscribes to the destination of a topic. -/
def sharing (adapter : StompAdapter) (topic : String) : Nat :=
  adapter.config.topics.countP fun other => adapter.map.toStomp other == adapter.map.toStomp topic

section Bound
variable {link : Link} {envelope : Envelope} {bridge after : Bridge}

theorem Started.session (started : Started link envelope bridge) :
    Bridged link.adapter.id "stomp-out-" link.adapter.config.topics link.tx
      bridge.world.engine.state :=
  ⟨started.connected⟩

theorem Started.indexed (started : Started link envelope bridge) :
    Indexed bridge.world.engine.state :=
  started.session.indexed

theorem Started.own_subs (started : Started link envelope bridge) (topic : String) :
    (ownSubs link bridge.broker (link.adapter.map.toStomp topic)).length =
      sharing link.adapter topic := by
  obtain ⟨broker, empty, heard⟩ := started.subscribed
  rw [← heard, subscribeFrames, length_ownSubs, empty, List.length_nil, Nat.zero_add, sharing,
    ← countP_zipIdx]

theorem Started.count (started : Started link envelope bridge) {key : SubscriberKey}
    {sub : Subscription} (found : bridge.world.engine.state.byKey.lookup key = some sub)
    (route : RouteKey) : ((bridge.world.engine.state.plainScan route).countP fun other =>
      (other == (sub.tx, key.subId)) = true) =
      if sub.route.Accepts route then 1 else 0 := by
  rw [← State.count_plainScan found fun other held => started.apart key other sub held found,
    Multiset.count]
  refine Multiset.countP_congr rfl fun other _ => ?_
  rw [beq_iff_eq, eq_comm (a := other)]

theorem Started.course (started : Started link envelope bridge) :
    Course link envelope bridge.world.engine.state (ownSubs link bridge.broker) bridge where
  indexes := rfl
  subscribed _ := rfl
  published := by
    intro copy member _
    rw [World.envelopes, started.published] at member
    exact .inl (List.mem_singleton.mp member)
  queued := by simp [started.channel]
  sends := by simp [started.toBroker]
  returning := by simp [started.toAdapter]
  pending := by simp [started.idle.1]

/-- All runs from a start. -/
def bridgeSystem (link : Link) (envelope : Envelope) : System Bridge BridgeEvent where
  initial := Started link envelope
  step := BridgeStep link envelope.payload

/-- How often the envelope's payload has reached a subscription's channel. -/
def received (envelope : Envelope) (key : SubscriberKey) (sub : Subscription)
    (bridge : Bridge) : Nat :=
  bridge.world.taken (carries envelope) (· == (sub.tx, key.subId))

/-- Whether a subscription takes a publish, as a number. -/
def takes (sub : Subscription) (route : RouteKey) : Nat := if sub.route.Accepts route then 1 else 0

/-- In any run a subscription gets the payload from the publish it takes, and
once more for each way back the adapter has. -/
theorem received_le (started : Started link envelope bridge)
    (quiet : link.adapter.config.suppressEcho = true)
    (plain : link.adapter.config.unwrapMaPayloads = false)
    (run : (bridgeSystem link envelope).Run bridge events after) {key : SubscriberKey}
    {sub : Subscription} (found : bridge.world.engine.state.byKey.lookup key = some sub) :
    received envelope key sub after ≤ takes sub envelope.route +
      takes sub (returnRoute link.crates link.adapter envelope) *
        (sharing link.adapter envelope.route.topic *
            link.adapter.config.topics.count envelope.route.topic) := by
  have routed := started.indexed.routed
  let owed (state : Bridge) : Nat := due envelope (sub.tx, key.subId) state +
    takes sub (returnRoute link.crates link.adapter envelope) *
      credit link envelope (sharing link.adapter envelope.route.topic) state
  have kept : Course link envelope bridge.world.engine.state (ownSubs link bridge.broker) after ∧
      owed after ≤ owed bridge := by
    refine run.preserves (motive := fun state =>
      Course link envelope bridge.world.engine.state (ownSubs link bridge.broker) state ∧
        owed state ≤ owed bridge) ⟨started.course, le_rfl⟩ ?_
    rintro before event next step ⟨course, bounded⟩
    have less := @owed_step link envelope _ _ before next event (sub.tx, key.subId) course routed
      quiet plain step
    simp only [started.own_subs, started.count found] at less
    exact ⟨course.step routed quiet plain step, less.trans bounded⟩
  have first : owed bridge = takes sub envelope.route +
      takes sub (returnRoute link.crates link.adapter envelope) *
        (sharing link.adapter envelope.route.topic *
            link.adapter.config.topics.count envelope.route.topic) := by
    have own := started.session.own_targets envelope.route
    have target := started.count found envelope.route
    have new : fresh link envelope envelope = true := by simp [fresh, carries, started.foreign]
    simp only [owed, due, credit, World.taken, World.ahead, World.queued, started.enqueued,
      started.published, started.channel, started.toBroker, started.toAdapter, started.idle.1,
        List.countP_nil, List.map_cons,
      List.map_nil, List.sum_cons, List.sum_nil, Publish.ahead, new, own, target, carries,
        beq_self_eq_true,
      ↓reduceIte, Nat.zero_add, Nat.add_zero, takes]
  have got : received envelope key sub after ≤ owed after := by
    simp only [owed, due, received]
    omega
  exact got.trans (first ▸ kept.2)

end Bound

end OaGateway.Stomp
