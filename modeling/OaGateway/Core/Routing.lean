import OaGateway.Core.EngineInvariant

/-! Routing through the indexes gives what a scan of all subscriptions gives. -/
namespace OaGateway.Core

open Lib

/-- A subscription's route takes a publish on its topic when it has no hint or
the publish carries the same one. -/
def RouteKey.Accepts (subscribed published : RouteKey) : Prop :=
  subscribed.topic = published.topic ∧
    (subscribed.typeHint = none ∨ ∃ hint, subscribed.typeHint = some hint ∧
      published.typeHint = some hint)

instance (subscribed published : RouteKey) : Decidable (subscribed.Accepts published) :=
  decidable_of_iff
    (subscribed.topic = published.topic ∧
      (subscribed.typeHint = none ∨ subscribed.typeHint = published.typeHint)) <| by
    unfold RouteKey.Accepts
    cases subscribed.typeHint <;> simp [eq_comm]

namespace State

/-- What a publish reads for one key. -/
def target (state : State) (key : SubscriberKey) : Option (Sender × SubId) :=
  (state.byKey.lookup key).map fun sub => (sub.tx, key.subId)

/-- The specification of routing: every registered subscription in turn, kept
when its route accepts the publish. -/
def plainScan (state : State) (route : RouteKey) : Multiset (Sender × SubId) :=
  (state.byKey.entries.filter fun entry => entry.2.route.Accepts route).map
    fun entry => (entry.2.tx, entry.1.subId)

end State

variable {state : State}

theorem Routed.mem_candidateKeys (routed : Routed state) (route : RouteKey) (key : SubscriberKey) :
    key ∈ state.candidateKeys route ↔
      ∃ sub, state.byKey.lookup key = some sub ∧ sub.route.Accepts route := by
  obtain ⟨topic, hint⟩ := route
  have filed : key ∈ state.candidateKeys ⟨topic, hint⟩ ↔
      state.routeOf key = some ⟨topic, none⟩ ∨
        ∃ name, hint = some name ∧ state.routeOf key = some ⟨topic, some name⟩ := by
    cases hint with
    | none => simp [State.candidateKeys, routed.wildcard]
    | some name => simp [State.candidateKeys, routed.wildcard, routed.exact]
  rw [filed]
  cases found : state.byKey.lookup key with
  | none => simp [State.routeOf, found]
  | some sub =>
    obtain ⟨⟨subTopic, subHint⟩, tx⟩ := sub
    rw [State.routeOf_of_lookup found]
    cases subHint <;> simp [RouteKey.Accepts, and_comm]

/-- The keys the indexes gather are the keys a scan keeps. -/
theorem Routed.candidateKeys_val (routed : Routed state) (route : RouteKey) :
    (state.candidateKeys route).val =
      (state.byKey.entries.filter fun entry => entry.2.route.Accepts route).map Sigma.fst := by
  have distinct : ((state.byKey.entries.filter fun entry => entry.2.route.Accepts route).map
      Sigma.fst).Nodup :=
    Multiset.nodup_of_le (Multiset.map_le_map (Multiset.filter_le _ _))
      state.byKey.nodupKeys.nodup_keys
  refine (Multiset.Nodup.ext (state.candidateKeys route).nodup distinct).mpr ?_
  intro key
  rw [Finset.mem_val, routed.mem_candidateKeys]
  simp only [Finmap.lookup_eq_some_iff, Multiset.mem_map, Multiset.mem_filter]
  constructor
  · rintro ⟨sub, entry, accepts⟩
    exact ⟨⟨key, sub⟩, ⟨entry, accepts⟩, rfl⟩
  · rintro ⟨⟨_, sub⟩, ⟨entry, accepts⟩, rfl⟩
    exact ⟨sub, entry, accepts⟩

/-- Each candidate contributes its own entry: `by_key` skips none of them. -/
theorem Routed.collectTargets_map (routed : Routed state) (order : IterOrder SubscriberKey)
    (route : RouteKey) :
    (state.collectTargets order route).map some =
      (order.toList (state.candidateKeys route)).map state.target := by
  have present : ∀ key ∈ order.toList (state.candidateKeys route), (state.target key).isSome := by
    intro key member
    obtain ⟨sub, found, -⟩ :=
      (routed.mem_candidateKeys route key).mp ((order.mem_iff _ key).mp member)
    simp [State.target, found]
  change (List.filterMap state.target _).map some = _
  generalize order.toList (state.candidateKeys route) = keys at present
  induction keys with
  | nil => rfl
  | cons key rest ih =>
    obtain ⟨target, found⟩ := Option.isSome_iff_exists.mp (present key List.mem_cons_self)
    have later := ih fun other member => present other (List.mem_cons_of_mem key member)
    rw [List.filterMap_cons_some found]
    simp [found, later]

theorem Routed.collectTargets_eq (routed : Routed state) (order : IterOrder SubscriberKey)
    (route : RouteKey) :
    (state.collectTargets order route : Multiset (Sender × SubId)) = state.plainScan route := by
  refine Multiset.map_injective (Option.some_injective _) ?_
  calc (state.collectTargets order route : Multiset (Sender × SubId)).map some
      = (order.toList (state.candidateKeys route) : Multiset SubscriberKey).map state.target := by
        rw [Multiset.map_coe, Multiset.map_coe, routed.collectTargets_map]
    _ = (state.byKey.entries.filter fun entry => entry.2.route.Accepts route).map
          fun entry => state.target entry.1 := by
        rw [order.coe_toList, routed.candidateKeys_val, Multiset.map_map]
        rfl
    _ = (state.plainScan route).map some := by
        rw [State.plainScan, Multiset.map_map]
        refine Multiset.map_congr rfl fun entry member => ?_
        have found : state.byKey.lookup entry.1 = some entry.2 :=
          Finmap.lookup_eq_some_iff.mpr (Multiset.mem_of_mem_filter member)
        simp [State.target, found]

theorem State.subscribe_ok {key : SubscriberKey} {after : State}
    (subscribed : state.subscribe adapterId subId route tx = (.ok key, after)) :
    state.byKey.lookup ⟨adapterId, subId⟩ = none ∧
      after.byKey = state.byKey.insert ⟨adapterId, subId⟩ ⟨route, tx⟩ := by
  simp only [State.subscribe] at subscribed
  split at subscribed
  · cases subscribed
  · rename_i absent
    cases subscribed
    refine ⟨by simpa using absent, ?_⟩
    cases hint : route.typeHint <;> simp [State.insertIndex, hint]

theorem State.subscribe_error {error : EngineError} {after : State}
    (refused : state.subscribe adapterId subId route tx = (.error error, after)) :
    (state.byKey.lookup ⟨adapterId, subId⟩).isSome = true ∧ after = state := by
  simp only [State.subscribe] at refused
  split at refused
  · rename_i taken
    cases refused
    exact ⟨taken, rfl⟩
  · cases refused

/-- A new subscription adds its own target to the scan, where it takes the route. -/
theorem State.plainScan_insert {key : SubscriberKey} {sub : Subscription} {after : State}
    (absent : state.byKey.lookup key = none) (keys : after.byKey = state.byKey.insert key sub)
    (route : RouteKey) :
    after.plainScan route =
      (if sub.route.Accepts route then {(sub.tx, key.subId)} else 0) + state.plainScan route := by
  have entries : after.byKey.entries = ⟨key, sub⟩ ::ₘ state.byKey.entries := by
    rw [keys, Finmap.entries_insert_of_notMem (Finmap.lookup_eq_none.mp absent)]
  rw [State.plainScan, entries]
  by_cases accepts : sub.route.Accepts route
  · simp [accepts, State.plainScan]
  · simp [accepts, State.plainScan]

/-- A subscription whose target is no other's is scanned once, or not at all. -/
theorem State.count_plainScan {key : SubscriberKey} {sub : Subscription}
    (found : state.byKey.lookup key = some sub)
    (apart : ∀ other held, state.byKey.lookup other = some held → held.tx = sub.tx →
      other.subId = key.subId → other = key) (route : RouteKey) :
    (state.plainScan route).count (sub.tx, key.subId) =
      if sub.route.Accepts route then 1 else 0 := by
  have entry : (⟨key, sub⟩ : Sigma fun _ : SubscriberKey => Subscription) ∈ state.byKey.entries :=
    Finmap.lookup_eq_some_iff.mp found
  have distinct : state.byKey.entries.Nodup := state.byKey.nodupKeys.nodup
  have only : ∀ other ∈ state.byKey.entries,
      ((sub.tx, key.subId) = (other.2.tx, other.1.subId) ∧ other.2.route.Accepts route) ↔
        other = ⟨key, sub⟩ ∧ sub.route.Accepts route := by
    rintro ⟨name, held⟩ member
    have lookup : state.byKey.lookup name = some held := Finmap.lookup_eq_some_iff.mpr member
    constructor
    · rintro ⟨same, accepts⟩
      obtain ⟨channel, subId⟩ := Prod.mk.inj same
      obtain rfl := apart name held lookup channel.symm subId.symm
      obtain rfl : sub = held := Option.some.inj (found.symm.trans lookup)
      exact ⟨rfl, accepts⟩
    · rintro ⟨same, accepts⟩
      cases same
      exact ⟨rfl, accepts⟩
  rw [State.plainScan, Multiset.count_map, Multiset.filter_filter, Multiset.filter_congr only]
  by_cases accepts : sub.route.Accepts route
  · simp only [accepts, and_true, if_true]
    rw [Multiset.filter_eq', Multiset.card_replicate, Multiset.count_eq_one_of_mem distinct entry]
  · simp [accepts]

/-- For every reachable state and every publish, in whatever order the key set
iterates: one entry per registered subscription that accepts the publish, with
that subscription's own sender, and no other. -/
theorem collectTargets_eq_plainScan (reached : calls.Reachable state)
    (order : IterOrder SubscriberKey) (route : RouteKey) :
    (state.collectTargets order route : Multiset (Sender × SubId)) = state.plainScan route :=
  (Indexed.of_reachable reached).routed.collectTargets_eq order route

theorem sampleCalls_targets :
    ((sampleCalls.foldl Call.apply .default).collectTargets .unspecified (.typed "uci" "Ping") :
        Multiset (Sender × SubId)) =
      (sampleCalls.foldl Call.apply .default).plainScan (.typed "uci" "Ping") :=
  collectTargets_eq_plainScan ⟨_, sampleCalls, rfl, run_foldl _ _⟩ .unspecified
    (.typed "uci" "Ping")

end OaGateway.Core
