import OaGateway.Core.Concurrent
import OaGateway.Lib.FanOut

/-! One publish from start to end with nothing in between: how many deliveries
each channel gets, and what the publisher is told. -/
namespace OaGateway.Core

open Lib

/-- The delivery offered to one target, with the channel it goes to. -/
def offerTo (envelope : Envelope) (target : Sender × SubId) : Nat × Delivery :=
  (target.1.channel, ⟨target.2, envelope⟩)

/-- `Engine::publish`: what it returns, and the engine and channels it leaves. -/
def Engine.publish (order : IterOrder SubscriberKey) (engine : Engine)
    (channels : Nat → Channel Delivery) (envelope : Envelope) : PublishOutcome × Engine ×
      (Nat → Channel Delivery) :=
  let targets := engine.state.collectTargets order envelope.route
  let offers := fanOut channels (targets.map (offerTo envelope))
  (⟨targets.length, offers.delivered, offers.dropped⟩,
    { engine with
      stats := ⟨engine.stats.published + 1, engine.stats.delivered + .ofNat offers.delivered,
        engine.stats.dropped + .ofNat offers.dropped⟩ },
    offers.channels)

/-- How many subscriptions that take the route are bound to a channel. -/
def State.bound (state : State) (route : RouteKey) (channel : Nat) : Nat :=
  (state.byKey.entries.filter fun entry => entry.2.route.Accepts route ∧
    entry.2.tx.channel = channel).card

/-- How many subscriptions take the route. -/
def State.matching (state : State) (route : RouteKey) : Nat :=
  (state.byKey.entries.filter fun entry => entry.2.route.Accepts route).card

/-- The channels some subscription is bound to. -/
def State.boundChannels (state : State) : Finset Nat :=
  (state.byKey.entries.map fun entry => entry.2.tx.channel).toFinset

theorem State.mem_boundChannels {state : State} {route : RouteKey} {channel : Nat}
    (some : state.bound route channel ≠ 0) : channel ∈ state.boundChannels := by
  obtain ⟨entry, member⟩ := Multiset.card_pos_iff_exists_mem.mp (Nat.pos_of_ne_zero some)
  obtain ⟨registered, -, here⟩ := Multiset.mem_filter.mp member
  exact Multiset.mem_toFinset.mpr (Multiset.mem_map.mpr ⟨entry, registered, here⟩)

/-- How many deliveries a channel gained. -/
def placed (before after : Nat → Channel Delivery) (channel : Nat) : Nat :=
  (after channel).queue.length - (before channel).queue.length

theorem PublishOutcome.eq_of {outcome other : PublishOutcome}
    (matched : outcome.matched = other.matched) (delivered : outcome.delivered = other.delivered)
    (dropped : outcome.dropped = other.dropped) :
    outcome = other := by
  cases outcome
  cases other
  simp_all

/-- Each channel got its share of one envelope, and the outcome says how much
that was. -/
structure FairFanOut (state : State) (envelope : Envelope) (before after : Nat → Channel Delivery)
    (outcome : PublishOutcome) : Prop where
  share : ∀ channel, (before channel).closed = false → ∃ sent : List Delivery,
    after channel = { before channel with queue := (before channel).queue ++ sent } ∧
    (∀ delivery ∈ sent, delivery.envelope = envelope) ∧
    sent.length = min ((before channel).capacity - (before channel).queue.length)
      (state.bound envelope.route channel)
  closed : ∀ channel, (before channel).closed = true → after channel = before channel
  unbound : ∀ channel, state.bound envelope.route channel = 0 → after channel = before channel
  matched : outcome.matched = state.matching envelope.route
  balanced : outcome.delivered + outcome.dropped = outcome.matched
  total : ∀ channels : Finset Nat, (∀ channel, state.bound envelope.route channel ≠ 0 →
    channel ∈ channels) → outcome.delivered = ∑ channel ∈ channels, placed before after channel

section
variable {engine : Engine} {channels : Nat → Channel Delivery} {envelope : Envelope}

theorem Routed.length_messagesFor {state : State} (routed : Routed state)
    (order : IterOrder SubscriberKey) (envelope : Envelope) (channel : Nat) :
    (messagesFor ((state.collectTargets order envelope.route).map (offerTo envelope))
      channel).length =
      state.bound envelope.route channel := by
  have scanned := routed.collectTargets_eq order envelope.route
  calc (messagesFor ((state.collectTargets order envelope.route).map (offerTo envelope))
    channel).length
      = (state.collectTargets order envelope.route).countP fun target =>
          target.1.channel = channel := by
        simp only [messagesFor, List.filter_map, List.length_map, List.countP_eq_length_filter]
        rfl
    _ = (state.plainScan envelope.route).countP fun target => target.1.channel = channel := by
        rw [← scanned, Multiset.coe_countP]
    _ = state.bound envelope.route channel := by
        rw [State.plainScan, Multiset.countP_map, Multiset.filter_filter, State.bound]
        simp only [and_comm]

theorem Routed.length_collectTargets {state : State} (routed : Routed state)
    (order : IterOrder SubscriberKey) (route : RouteKey) :
    (state.collectTargets order route).length = state.matching route := by
  rw [← Multiset.coe_card, routed.collectTargets_eq, State.plainScan, Multiset.card_map,
    State.matching]

theorem channels_publish (order : IterOrder SubscriberKey) (engine : Engine)
    (channels : Nat → Channel Delivery) (envelope : Envelope) (channel : Nat) :
    (engine.publish order channels envelope).2.2 channel =
      (channels channel).offered (messagesFor
        ((engine.state.collectTargets order envelope.route).map (offerTo envelope)) channel) :=
  channels_fanOut _ _ _

theorem Routed.placed_publish (routed : Routed engine.state) (order : IterOrder SubscriberKey)
    (channels : Nat → Channel Delivery) (envelope : Envelope) (channel : Nat) :
    placed channels (engine.publish order channels envelope).2.2 channel =
      min (channels channel).free (engine.state.bound envelope.route channel) := by
  rw [placed, channels_publish, Channel.length_offered, routed.length_messagesFor]
  omega

/-- What a publish delivers is what the channels of its targets gain. -/
theorem Routed.delivered_publish (routed : Routed engine.state) (order : IterOrder SubscriberKey)
    {keys : Finset Nat}
    (inside : ∀ channel, engine.state.bound envelope.route channel ≠ 0 → channel ∈ keys) :
    (engine.publish order channels envelope).1.delivered =
      ∑ channel ∈ keys, placed channels (engine.publish order channels envelope).2.2 channel := by
  have targets : ∀ item ∈ (engine.state.collectTargets order envelope.route).map (offerTo envelope),
      item.1 ∈ keys := by
    intro item member
    refine inside item.1 ?_
    rw [← routed.length_messagesFor order]
    have offered : item.2 ∈ messagesFor
        ((engine.state.collectTargets order envelope.route).map (offerTo envelope)) item.1 :=
      List.mem_map.mpr ⟨item, List.mem_filter.mpr ⟨member, by simp⟩, rfl⟩
    exact Nat.ne_of_gt (List.length_pos_of_mem offered)
  have grown := @backlog_fanOut _ _ _ channels _ _ targets
  rw [backlog, backlog] at grown
  have each (channel : Nat) : placed channels (engine.publish order channels envelope).2.2 channel +
      (channels channel).queue.length =
          ((engine.publish order channels envelope).2.2 channel).queue.length := by
    rw [placed, channels_publish, Channel.length_offered]
    omega
  have sums : ∑ channel ∈ keys,
    placed channels (engine.publish order channels envelope).2.2 channel +
      ∑ channel ∈ keys, (channels channel).queue.length =
        ∑ channel ∈ keys, ((engine.publish order channels envelope).2.2 channel).queue.length := by
    rw [← Finset.sum_add_distrib]
    exact Finset.sum_congr rfl fun channel _ => each channel
  simp only [Engine.publish] at sums ⊢
  omega

theorem Routed.fairFanOut (routed : Routed engine.state) (order : IterOrder SubscriberKey)
    (channels : Nat → Channel Delivery) (envelope : Envelope) :
    FairFanOut engine.state envelope channels (engine.publish order channels envelope).2.2
      (engine.publish order channels envelope).1 where
  share channel present := by
    refine ⟨_, channels_publish order engine channels envelope channel, ?_, ?_⟩
    · intro delivery member
      have offered := List.mem_of_mem_take member
      simp only [messagesFor, List.mem_map, List.mem_filter] at offered
      obtain ⟨item, ⟨⟨target, -, rfl⟩, -⟩, rfl⟩ := offered
      rfl
    · rw [List.length_take, routed.length_messagesFor, Channel.free, present]
      rfl
  closed channel gone := by
    rw [channels_publish]
    exact Channel.offered_of_not_room (fun room => absurd room.1 (by simp [gone])) _
  unbound channel none := by
    rw [channels_publish, List.length_eq_zero_iff.mp
      ((routed.length_messagesFor order envelope channel).trans none), Channel.offered_nil]
  matched := routed.length_collectTargets order envelope.route
  balanced := by
    have balance := delivered_add_dropped channels
      ((engine.state.collectTargets order envelope.route).map (offerTo envelope))
    rwa [List.length_map] at balance
  total keys inside := routed.delivered_publish order inside

/-- Whatever the engine went through and however the set of keys iterates: every
open channel gets as many deliveries as it has room for and matching
subscriptions, no other channel gets any, the counts add up, and neither they nor
a channel's share depend on the order or on the other channels. -/
theorem publish_fair (reached : calls.Reachable engine.state) (order : IterOrder SubscriberKey)
    (channels : Nat → Channel Delivery) (envelope : Envelope) :
    FairFanOut engine.state envelope channels (engine.publish order channels envelope).2.2
        (engine.publish order channels envelope).1 ∧
      (∀ other : IterOrder SubscriberKey,
        (engine.publish other channels envelope).1 = (engine.publish order channels envelope).1) ∧
      ∀ (other : IterOrder SubscriberKey) (elsewhere : Nat → Channel Delivery) (channel : Nat),
        elsewhere channel = channels channel →
          placed elsewhere (engine.publish other elsewhere envelope).2.2 channel =
            placed channels (engine.publish order channels envelope).2.2 channel := by
  have routed := (Indexed.of_reachable reached).routed
  have fair (other : IterOrder SubscriberKey) := routed.fairFanOut other channels envelope
  refine ⟨fair order, ?_, ?_⟩
  · intro other
    have delivered : (engine.publish other channels envelope).1.delivered =
        (engine.publish order channels envelope).1.delivered := by
      rw [(fair other).total _ fun _ => State.mem_boundChannels, (fair order).total _ fun _ =>
        State.mem_boundChannels]
      exact Finset.sum_congr rfl fun channel _ =>
        (routed.placed_publish other channels envelope channel).trans
          (routed.placed_publish order channels envelope channel).symm
    have matched := (fair other).matched.trans (fair order).matched.symm
    have first := (fair other).balanced
    have second := (fair order).balanced
    exact PublishOutcome.eq_of matched delivered (by omega)
  · intro other elsewhere channel same
    rw [routed.placed_publish, routed.placed_publish, same]

end

section Sample

/-- Two subscriptions share a channel that has room for one more delivery. -/
def sharedCalls : List Call :=
  [.subscribe ⟨"stomp"⟩ ⟨"1"⟩ (.wildcard "uci") ⟨0⟩,
    .subscribe ⟨"stomp"⟩ ⟨"2"⟩ (.typed "uci" "Ping") ⟨0⟩]

def sharedEngine : Engine := { Engine.new with state := sharedCalls.foldl Call.apply .default }

def pingEnvelope : Envelope := .new ⟨"m"⟩ (.typed "uci" "Ping") []

theorem publish_fair_shared :
    ∃ sent : List Delivery,
      (sharedEngine.publish .unspecified (fun _ => ⟨1, [], false⟩) pingEnvelope).2.2 0 =
        ⟨1, sent, false⟩ ∧
        sent.length = 1 ∧
        (sharedEngine.publish .unspecified (fun _ => ⟨1, [], false⟩) pingEnvelope).1.matched =
            2 := by
  have fair := (@publish_fair sharedEngine ⟨_, sharedCalls, rfl, run_foldl _ _⟩ .unspecified
    (fun _ => ⟨1, [], false⟩) pingEnvelope).1
  obtain ⟨sent, after, -, count⟩ := fair.share 0 rfl
  have bound : sharedEngine.state.bound pingEnvelope.route 0 = 2 := by decide
  have matching : sharedEngine.state.matching pingEnvelope.route = 2 := by decide
  rw [bound] at count
  exact ⟨sent, after, count, fair.matched.trans matching⟩

end Sample

end OaGateway.Core
