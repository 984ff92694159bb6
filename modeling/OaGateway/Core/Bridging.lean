import OaGateway.Core.Publish
import OaGateway.Lib.Numeral

/-! How a bridging adapter starts a session on the engine, and what the engine
then offers it. -/
namespace OaGateway.Core

open Lib

/-- What a bridging adapter calls its subscription to the topic at some place. -/
def outSubId (label : String) (index : Nat) : SubId := ⟨label ++ toString index⟩

theorem outSubId_injective {label : String} {first second : Nat}
    (same : outSubId label first = outSubId label second) :
    first = second := by
  have digits : toString first = toString second := by simpa [outSubId] using same
  exact Lib.toString_injective digits

/-- The adapter holds nothing on the engine. -/
def Released (id : AdapterId) (engine : State) : Prop :=
  ∀ subId, engine.byKey.lookup ⟨id, subId⟩ = none

theorem Released.dropAdapter {id : AdapterId} {engine : State} (indexed : Indexed engine)
    (order : IterOrder SubId) :
    Released id (engine.dropAdapter order id).2 := by
  intro subId
  rw [indexed.lookup_dropAdapter, if_pos rfl]

/-- One round of the loop over an adapter's topics. -/
def subscribeTopic (id : AdapterId) (label : String) (tx : Sender)
    (result : Except EngineError State) (topic : String × Nat) : Except EngineError State :=
  match result with
  | .error error => .error error
  | .ok state =>
    match state.subscribe id (outSubId label topic.2) (.wildcard topic.1) tx with
    | (.error error, _) => .error error
    | (.ok _, state) => .ok state

/-- Whatever an earlier session left is dropped, then each topic is subscribed
without a hint, all into one channel. -/
def bridgeTopics (id : AdapterId) (label : String) (topics : List String) (tx : Sender)
    (order : IterOrder SubId) (state : State) : Except EngineError State :=
  topics.zipIdx.foldl (subscribeTopic id label tx) (.ok (state.dropAdapter order id).2)

section
variable {id : AdapterId} {label : String} {tx : Sender} {state after : State}

private theorem subscribeTopics_error (error : EngineError) (topics : List (String × Nat)) :
    topics.foldl (subscribeTopic id label tx) (.error error) = .error error := by
  induction topics with
  | nil => rfl
  | cons topic rest ih => exact ih

private structure Subscribes (id : AdapterId) (tx : Sender) (topics : List (String × Nat))
    (state after : State) :
    Prop where
  indexed : Indexed after
  others : ∀ key, key.adapterId ≠ id → after.byKey.lookup key = state.byKey.lookup key
  scan : ∀ route, ∃ added : List (Sender × SubId),
    after.plainScan route = added + state.plainScan route ∧ (∀ target ∈ added, target.1 = tx) ∧
      added.length = topics.countP fun topic => topic.1 == route.topic

private theorem subscribes_of_foldl {topics : List (String × Nat)} (indexed : Indexed state)
    (ready : topics.foldl (subscribeTopic id label tx) (.ok state) = .ok after) :
    Subscribes id tx topics state after := by
  induction topics generalizing state with
  | nil =>
    cases ready
    exact ⟨indexed, fun _ _ => rfl, fun route => ⟨[], by simp, by simp, rfl⟩⟩
  | cons topic rest ih =>
    rw [List.foldl_cons] at ready
    cases answer : state.subscribe id (outSubId label topic.2) (.wildcard topic.1) tx with
    | mk result middle =>
      cases result with
      | error error =>
        rw [subscribeTopic, answer] at ready
        rw [subscribeTopics_error] at ready
        cases ready
      | ok key =>
        rw [subscribeTopic, answer] at ready
        have next := indexed.of_subscribe answer
        obtain ⟨absent, keys⟩ := State.subscribe_ok answer
        obtain ⟨kept, others, scans⟩ := ih next ready
        refine ⟨kept, ?_, fun route => ?_⟩
        · intro name other
          have different : name ≠ ⟨id, outSubId label topic.2⟩ := by
            rintro rfl
            exact other rfl
          rw [others name other, keys, Table.lookup_insert_ite, if_neg different]
        obtain ⟨added, scan, own, counted⟩ := scans route
        rw [State.plainScan_insert absent keys] at scan
        have takes : (RouteKey.wildcard topic.1).Accepts route ↔ topic.1 = route.topic := by
          simp [RouteKey.Accepts, RouteKey.wildcard]
        by_cases same : topic.1 = route.topic
        · refine ⟨(tx, outSubId label topic.2) :: added, ?_, ?_, ?_⟩
          · rw [scan, if_pos (takes.mpr same), ← Multiset.cons_coe,
              ← Multiset.singleton_add, add_assoc, add_left_comm]
          · simpa using own
          · simp [counted, same]
        · refine ⟨added, ?_, own, ?_⟩
          · rw [scan, if_neg (mt takes.mp same), zero_add]
          · simp [counted, same]

theorem countP_zipIdx (topics : List String) (test : String → Bool) :
    (topics.zipIdx.countP fun topic => test topic.1) = topics.countP test := by
  conv => rhs; rw [← List.zipIdx_map_fst 0 topics, List.countP_map]
  rfl

end

/-- A session that came up on an engine, with a channel nothing was bound to. -/
structure Bridged (id : AdapterId) (label : String) (topics : List String) (tx : Sender)
    (state : State) :
    Prop where
  start : ∃ before order, calls.Reachable before ∧
    (∀ key sub, before.byKey.lookup key = some sub → sub.tx ≠ tx) ∧
    bridgeTopics id label topics tx order before = .ok state

namespace Bridged
variable {id : AdapterId} {label : String} {topics : List String} {tx : Sender} {state : State}

theorem indexed (bridged : Bridged id label topics tx state) : Indexed state := by
  obtain ⟨before, order, reached, -, ready⟩ := bridged.start
  exact (subscribes_of_foldl ((Indexed.of_reachable reached).dropAdapter order id) ready).indexed

/-- Other adapters do not listen on the session's channel. -/
theorem other_channel (bridged : Bridged id label topics tx state) {key : SubscriberKey}
    {sub : Subscription} (found : state.byKey.lookup key = some sub) (other : key.adapterId ≠ id) :
    sub.tx ≠ tx := by
  obtain ⟨before, order, reached, new, ready⟩ := bridged.start
  have indexed := Indexed.of_reachable reached
  have kept := (subscribes_of_foldl (indexed.dropAdapter order id) ready).others key other
  rw [found, indexed.lookup_dropAdapter, if_neg other] at kept
  exact new key sub kept.symm

/-- The engine offers the adapter one delivery for each time it lists the topic. -/
theorem own_targets (bridged : Bridged id label topics tx state) (route : RouteKey) :
    ((state.plainScan route).countP fun target => (target.1 == tx) = true) =
      topics.count route.topic := by
  obtain ⟨before, order, reached, new, ready⟩ := bridged.start
  have indexed := Indexed.of_reachable reached
  obtain ⟨added, scan, own, counted⟩ :=
    (subscribes_of_foldl (indexed.dropAdapter order id) ready).scan route
  have none : ((before.dropAdapter order id).2.plainScan route).countP
      (fun target => (target.1 == tx) = true) = 0 := by
    refine Multiset.countP_eq_zero.mpr ?_
    intro target member
    obtain ⟨entry, inside, rfl⟩ := Multiset.mem_map.mp member
    have found : (before.dropAdapter order id).2.byKey.lookup entry.1 = some entry.2 :=
      Finmap.lookup_eq_some_iff.mpr (Multiset.mem_of_mem_filter inside)
    rw [indexed.lookup_dropAdapter] at found
    split at found
    · cases found
    · simpa using new entry.1 entry.2 found
  rw [scan, Multiset.countP_add, none, Multiset.coe_countP, Nat.add_zero, List.count]
  rw [List.countP_eq_length.mpr (by simpa using own), counted]
  exact countP_zipIdx _ (· == route.topic)

end Bridged

/-- A call of another adapter, on a channel of its own. -/
def Call.Elsewhere (id : AdapterId) (tx : Sender) : Call → Prop
  | .subscribe adapterId _ _ other => adapterId ≠ id ∧ other ≠ tx
  | .unsubscribe adapterId _ | .dropAdapter _ adapterId => adapterId ≠ id

/-- A session that is up: its channel is its own, and the engine offers it a
publish once for each time it lists the topic. -/
structure Serves (id : AdapterId) (topics : List String) (tx : Sender) (state : State) : Prop where
  indexed : Indexed state
  sole : ∀ key sub, state.byKey.lookup key = some sub → sub.tx = tx → key.adapterId = id
  share : ∀ route, state.bound route tx.channel = topics.count route.topic

namespace Serves
variable {id : AdapterId} {topics : List String} {tx : Sender} {state : State}

theorem of_bridged (bridged : Bridged id label topics tx state) : Serves id topics tx state where
  indexed := bridged.indexed
  sole key sub found own := by
    by_contra other
    exact bridged.other_channel found other own
  share route := by
    rw [← bridged.own_targets route, State.plainScan, Multiset.countP_map,
      Multiset.filter_filter, State.bound]
    congr 1
    refine Multiset.filter_congr fun entry _ => ?_
    have same : entry.2.tx.channel = tx.channel ↔ (entry.2.tx == tx) = true := by
      rw [beq_iff_eq]
      constructor
      · intro channel
        cases tx
        cases found : entry.2.tx
        simp_all
      · exact congrArg Sender.channel
    rw [same, and_comm]

theorem bound_congr {other : State} {channel : Nat}
    (same : ∀ key sub, sub.tx.channel = channel →
      (other.byKey.lookup key = some sub ↔ state.byKey.lookup key = some sub)) (route : RouteKey) :
    other.bound route channel = state.bound route channel := by
  have entries : other.byKey.entries.filter (fun entry => entry.2.route.Accepts route ∧
    entry.2.tx.channel = channel) =
      state.byKey.entries.filter fun entry => entry.2.route.Accepts route ∧
          entry.2.tx.channel = channel := by
    refine (Multiset.Nodup.ext (other.byKey.nodupKeys.nodup.filter _)
      (state.byKey.nodupKeys.nodup.filter _)).mpr ?_
    intro entry
    rw [Multiset.mem_filter, Multiset.mem_filter, ← Finmap.lookup_eq_some_iff,
      ← Finmap.lookup_eq_some_iff]
    exact and_congr_left fun here => same entry.1 entry.2 here.2
  rw [State.bound, State.bound, entries]

/-- Nobody else's call touches the session's registrations. -/
theorem lookup_elsewhere (serves : Serves id topics tx state) {call : Call}
    (elsewhere : call.Elsewhere id tx) {sub : Subscription} (own : sub.tx = tx)
    (key : SubscriberKey) : (call.apply state).byKey.lookup key = some sub ↔
      state.byKey.lookup key = some sub := by
  cases call with
  | subscribe adapterId subId route other =>
    by_cases same : key = ⟨adapterId, subId⟩
    · subst same
      by_cases taken : (state.byKey.lookup ⟨adapterId, subId⟩).isSome = true
      · rw [Call.apply, State.subscribe, if_pos taken]
      · have free : state.byKey.lookup ⟨adapterId, subId⟩ = none := by simpa using taken
        have registered : (state.subscribe adapterId subId route other).2.byKey.lookup
          ⟨adapterId, subId⟩ =
            some ⟨route, other⟩ := by
          have answer : state.subscribe adapterId subId route other =
              (.ok ⟨adapterId, subId⟩, (state.subscribe adapterId subId route other).2) := by
            rw [State.subscribe, if_neg taken]
          rw [(State.subscribe_ok answer).2, Table.lookup_insert_ite, if_pos rfl]
        rw [Call.apply, registered, free]
        constructor
        · intro same
          cases same
          exact absurd own elsewhere.2
        · intro absent
          cases absent
    · rw [Call.apply, lookup_subscribe_of_ne state same]
  | unsubscribe adapterId subId =>
    rw [Call.apply, lookup_unsubscribe]
    split
    · rename_i same
      constructor
      · intro absent
        cases absent
      · intro found
        refine absurd (serves.sole key sub found own) ?_
        rw [same]
        exact elsewhere
    · rfl
  | dropAdapter order adapterId =>
    rw [Call.apply, serves.indexed.lookup_dropAdapter]
    split
    · rename_i same
      constructor
      · intro absent
        cases absent
      · intro found
        refine absurd (serves.sole key sub found own) ?_
        rw [same]
        exact elsewhere
    · rfl

theorem apply (serves : Serves id topics tx state) {call : Call}
    (elsewhere : call.Elsewhere id tx) :
    Serves id topics tx (call.apply state) where
  indexed := serves.indexed.apply call
  sole key sub found own :=
    serves.sole key sub ((serves.lookup_elsewhere elsewhere own key).mp found) own
  share route := by
    rw [← serves.share route]
    refine bound_congr (fun key sub here => serves.lookup_elsewhere elsewhere ?_ key) route
    cases sub with
    | mk taken held =>
      cases held
      cases tx
      simp_all

/-- A session stays up while others come and go. -/
theorem foldl (serves : Serves id topics tx state) {calls : List Call}
    (others : ∀ call ∈ calls, call.Elsewhere id tx) :
    Serves id topics tx (calls.foldl Call.apply state) := by
  induction calls generalizing state with
  | nil => exact serves
  | cons call rest ih =>
    obtain ⟨here, later⟩ := List.forall_mem_cons.mp others
    exact ih (serves.apply here) later

end Serves

end OaGateway.Core
