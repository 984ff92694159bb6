import OaGateway.Core.Engine
import OaGateway.Lib.Transition

/-! The four indexes of the engine describe one set of subscriptions, after
any sequence of calls. -/
namespace OaGateway.Core

open Lib

namespace State

/-- The route a key is registered with. -/
def routeOf (state : State) (key : SubscriberKey) : Option RouteKey :=
  (state.byKey.lookup key).map (·.route)

theorem routeOf_isSome (state : State) (key : SubscriberKey) :
    (state.routeOf key).isSome = (state.byKey.lookup key).isSome := by
  simp [routeOf]

theorem routeOf_of_lookup {state : State} {key : SubscriberKey} {sub : Subscription}
    (found : state.byKey.lookup key = some sub) : state.routeOf key = some sub.route := by
  simp [routeOf, found]

/-- What `removeSubscription` does when it succeeds. -/
theorem removeSubscription_cases {state after : State} {key : SubscriberKey}
    (removed : state.removeSubscription key = some after) :
    ∃ sub, state.byKey.lookup key = some sub ∧
      after.byKey = state.byKey.erase key ∧
      after.byAdapter = state.byAdapter.remove key.adapterId key.subId ∧
      after.exact = (state.removeIndex key sub.route).exact ∧
      after.wildcards = (state.removeIndex key sub.route).wildcards := by
  simp only [removeSubscription] at removed
  split at removed
  · cases removed
  · rename_i sub found
    cases removed
    refine ⟨sub, found, ?_⟩
    cases hint : sub.route.typeHint <;> simp [removeIndex, hint]

theorem removeSubscription_isSome (state : State) (key : SubscriberKey) :
    (state.removeSubscription key).isSome = (state.byKey.lookup key).isSome := by
  simp only [removeSubscription]
  split <;> simp_all

end State

/-- Both route indexes hold a key exactly where its route files it. -/
structure Routed (state : State) : Prop where
  wildcard : ∀ key topic,
    key ∈ state.wildcards.members topic ↔ state.routeOf key = some ⟨topic, none⟩
  exact : ∀ key topic hint,
    key ∈ state.exact.members topic hint ↔ state.routeOf key = some ⟨topic, some hint⟩
  prunedWildcards : state.wildcards.Pruned
  prunedExact : state.exact.Pruned

/-- Each adapter's set lists its registered subscriptions. -/
structure Owned (state : State) : Prop where
  listed : ∀ key, key.subId ∈ state.byAdapter.members key.adapterId ↔ (state.routeOf key).isSome
  pruned : state.byAdapter.Pruned

structure Indexed (state : State) : Prop where
  routed : Routed state
  owned : Owned state

theorem Routed.default : Routed State.default where
  wildcard := by simp [State.default, State.routeOf, Index.members]
  exact := by simp [State.default, State.routeOf, Index2.members, Index.members]
  prunedWildcards := Index.Pruned.empty
  prunedExact := Index2.Pruned.empty

theorem Indexed.default : Indexed State.default where
  routed := .default
  owned := ⟨by simp [State.default, State.routeOf, Index.members], Index.Pruned.empty⟩

/-- `Routed` reads three fields only. -/
theorem Routed.congr {state other : State} (routed : Routed state)
    (keys : other.byKey = state.byKey) (exact : other.exact = state.exact)
    (wildcards : other.wildcards = state.wildcards) : Routed other where
  wildcard := by simpa [State.routeOf, keys, wildcards] using routed.wildcard
  exact := by simpa [State.routeOf, keys, exact] using routed.exact
  prunedWildcards := by simpa [wildcards] using routed.prunedWildcards
  prunedExact := by simpa [exact] using routed.prunedExact

private theorem fields_ne_of_ne {key other : SubscriberKey} (different : other ≠ key) :
    ¬ (other.adapterId = key.adapterId ∧ other.subId = key.subId) := by
  rintro ⟨adapter, sub⟩
  exact different (by cases other; cases key; simp_all)

section Subscribe
variable {state after : State} {key : SubscriberKey} {route : RouteKey} {tx : Sender}

private theorem routeOf_insert (keys : after.byKey = state.byKey.insert key ⟨route, tx⟩)
    (other : SubscriberKey) :
    after.routeOf other = if other = key then some route else state.routeOf other := by
  simp only [State.routeOf, keys, Table.lookup_insert_ite]
  split <;> rfl

/-- Filing a new key keeps both route indexes. -/
theorem Routed.insert (routed : Routed state) (absent : state.byKey.lookup key = none)
    (keys : after.byKey = state.byKey.insert key ⟨route, tx⟩)
    (exact : after.exact = (state.insertIndex key route).exact)
    (wildcards : after.wildcards = (state.insertIndex key route).wildcards) : Routed after := by
  obtain ⟨topic, hint⟩ := route
  have unfiled : state.routeOf key = none := by simp [State.routeOf, absent]
  have inNoWildcard (topic) : key ∉ state.wildcards.members topic := by
    simp [routed.wildcard, unfiled]
  have inNoExact (topic hint) : key ∉ state.exact.members topic hint := by
    simp [routed.exact, unfiled]
  cases hint with
  | none =>
    simp only [State.insertIndex] at exact wildcards
    refine ⟨?_, ?_, ?_, ?_⟩
    · intro other otherTopic
      rw [routeOf_insert keys, wildcards, Index.mem_add, routed.wildcard]
      by_cases same : other = key
      · simp [same, unfiled, eq_comm]
      · simp [same]
    · intro other otherTopic otherHint
      rw [routeOf_insert keys, exact, routed.exact]
      by_cases same : other = key
      · simp [same, unfiled]
      · simp [same]
    · exact wildcards ▸ routed.prunedWildcards.add topic key
    · exact exact ▸ routed.prunedExact
  | some hint =>
    simp only [State.insertIndex] at exact wildcards
    refine ⟨?_, ?_, ?_, ?_⟩
    · intro other otherTopic
      rw [routeOf_insert keys, wildcards, routed.wildcard]
      by_cases same : other = key
      · simp [same, unfiled]
      · simp [same]
    · intro other otherTopic otherHint
      rw [routeOf_insert keys, exact, Index2.mem_add, routed.exact]
      by_cases same : other = key
      · simp [same, unfiled, eq_comm]
      · simp [same]
    · exact wildcards ▸ routed.prunedWildcards
    · exact exact ▸ routed.prunedExact.add topic hint key

theorem Owned.insert (owned : Owned state)
    (keys : after.byKey = state.byKey.insert key ⟨route, tx⟩)
    (adapters : after.byAdapter = state.byAdapter.add key.adapterId key.subId) : Owned after := by
  refine ⟨?_, adapters ▸ owned.pruned.add _ _⟩
  intro other
  rw [routeOf_insert keys, adapters, Index.mem_add, owned.listed]
  by_cases same : other = key
  · simp [same]
  · simp [same, fields_ne_of_ne same]

end Subscribe

section Remove
variable {state after : State} {key : SubscriberKey}

private theorem routeOf_erase (keys : after.byKey = state.byKey.erase key) (other : SubscriberKey) :
    after.routeOf other = if other = key then none else state.routeOf other := by
  simp only [State.routeOf, keys, Table.lookup_erase_ite]
  split <;> rfl

/-- A removal takes the key out of the one set that held it. -/
theorem Routed.removeSubscription (routed : Routed state)
    (removed : state.removeSubscription key = some after) : Routed after := by
  obtain ⟨⟨⟨topic, hint⟩, tx⟩, found, keys, -, exact, wildcards⟩ :=
    State.removeSubscription_cases removed
  have filed : state.routeOf key = some ⟨topic, hint⟩ := State.routeOf_of_lookup found
  cases hint with
  | none =>
    simp only [State.removeIndex] at exact wildcards
    refine ⟨?_, ?_, ?_, ?_⟩
    · intro other otherTopic
      rw [routeOf_erase keys, wildcards, Index.mem_remove, routed.wildcard]
      by_cases same : other = key
      · simp [same, filed, eq_comm]
      · simp [same]
    · intro other otherTopic otherHint
      rw [routeOf_erase keys, exact, routed.exact]
      by_cases same : other = key
      · simp [same, filed]
      · simp [same]
    · exact wildcards ▸ routed.prunedWildcards.remove topic key
    · exact exact ▸ routed.prunedExact
  | some hint =>
    simp only [State.removeIndex] at exact wildcards
    refine ⟨?_, ?_, ?_, ?_⟩
    · intro other otherTopic
      rw [routeOf_erase keys, wildcards, routed.wildcard]
      by_cases same : other = key
      · simp [same, filed]
      · simp [same]
    · intro other otherTopic otherHint
      rw [routeOf_erase keys, exact, Index2.mem_remove, routed.exact]
      by_cases same : other = key
      · simp [same, filed, eq_comm]
      · simp [same]
    · exact wildcards ▸ routed.prunedWildcards
    · exact exact ▸ routed.prunedExact.remove topic hint key

theorem Owned.removeSubscription (owned : Owned state)
    (removed : state.removeSubscription key = some after) : Owned after := by
  obtain ⟨sub, -, keys, adapters, -, -⟩ := State.removeSubscription_cases removed
  refine ⟨?_, adapters ▸ owned.pruned.remove _ _⟩
  intro other
  rw [routeOf_erase keys, adapters, Index.mem_remove, owned.listed]
  by_cases same : other = key
  · simp [same]
  · simp [same, fields_ne_of_ne same]

end Remove

/-- The state inside `drop_adapter`'s loop: the adapter has no entry any more
and `remaining` are its subscriptions still to be removed. -/
structure Dropping (adapterId : AdapterId) (remaining : List SubId) (state : State) : Prop where
  routed : Routed state
  others : ∀ key, key.subId ∈ state.byAdapter.members key.adapterId ↔
    key.adapterId ≠ adapterId ∧ (state.routeOf key).isSome
  pruned : state.byAdapter.Pruned
  remaining : ∀ subId, (state.routeOf ⟨adapterId, subId⟩).isSome ↔ subId ∈ remaining

namespace Dropping
variable {state : State} {adapterId : AdapterId}

theorem start (indexed : Indexed state) {sids : Finset SubId}
    (found : state.byAdapter.lookup adapterId = some sids) (order : IterOrder SubId) :
    Dropping adapterId (order.toList sids)
      { state with byAdapter := state.byAdapter.erase adapterId } where
  routed := indexed.routed.congr rfl rfl rfl
  others key := by
    have listed := indexed.owned.listed key
    rw [Index.members_erase]
    by_cases same : key.adapterId = adapterId
    · simp [same]
    · simpa [same, State.routeOf] using listed
  pruned := indexed.owned.pruned.erase adapterId
  remaining subId := by
    have listed := indexed.owned.listed ⟨adapterId, subId⟩
    rw [order.mem_iff]
    simp only [Index.members, found, Option.getD_some] at listed
    exact listed.symm

/-- One round removes one registered subscription and counts it. -/
theorem dropOne {subId : SubId} {rest : List SubId}
    (dropping : Dropping adapterId (subId :: rest) state) (fresh : subId ∉ rest) (count : Nat) :
    ∃ after, State.dropOne adapterId (count, state) subId = (count + 1, after) ∧
      after.byKey = state.byKey.erase ⟨adapterId, subId⟩ ∧ Dropping adapterId rest after := by
  have present : (state.routeOf ⟨adapterId, subId⟩).isSome :=
    (dropping.remaining subId).mpr (by simp)
  rw [State.routeOf_isSome, ← State.removeSubscription_isSome] at present
  obtain ⟨after, removed⟩ := Option.isSome_iff_exists.mp present
  obtain ⟨sub, -, keys, adapters, -, -⟩ := State.removeSubscription_cases removed
  refine ⟨after, by simp [State.dropOne, removed], keys,
    dropping.routed.removeSubscription removed, ?_, adapters ▸ dropping.pruned.remove _ _, ?_⟩
  · intro key
    rw [routeOf_erase keys, adapters, Index.mem_remove, dropping.others]
    by_cases same : key = ⟨adapterId, subId⟩
    · simp [same]
    · simp only [same, ↓reduceIte]
      tauto
  · intro other
    rw [routeOf_erase keys]
    have before := dropping.remaining other
    by_cases same : other = subId
    · simpa [same] using fresh
    · simpa [same] using before

theorem finish (dropping : Dropping adapterId [] state) : Indexed state where
  routed := dropping.routed
  owned := by
    refine ⟨?_, dropping.pruned⟩
    intro key
    rw [dropping.others]
    have gone := dropping.remaining key.subId
    refine ⟨And.right, fun registered => ⟨?_, registered⟩⟩
    intro same
    subst same
    exact absurd (gone.mp registered) (by simp)

/-- The loop ends coherent and counts the subscriptions it removed. -/
theorem foldl (remaining : List SubId) (count : Nat) (state : State) (distinct : remaining.Nodup)
    (dropping : Dropping adapterId remaining state) :
    (remaining.foldl (State.dropOne adapterId) (count, state)).1 = count + remaining.length ∧
      Indexed (remaining.foldl (State.dropOne adapterId) (count, state)).2 ∧
      ∀ key, (remaining.foldl (State.dropOne adapterId) (count, state)).2.byKey.lookup key =
        if key.adapterId = adapterId then none else state.byKey.lookup key := by
  induction remaining generalizing count state with
  | nil =>
    refine ⟨rfl, dropping.finish, ?_⟩
    intro key
    simp only [List.foldl_nil]
    split
    · rename_i same
      subst same
      have gone := dropping.remaining key.subId
      rw [State.routeOf_isSome] at gone
      simpa using gone
    · rfl
  | cons subId rest ih =>
    obtain ⟨fresh, distinct⟩ := List.nodup_cons.mp distinct
    obtain ⟨after, round, keys, dropping⟩ := dropping.dropOne fresh count
    obtain ⟨counted, indexed, lookups⟩ := ih (count + 1) after distinct dropping
    simp only [List.foldl_cons, round]
    refine ⟨by rw [counted, List.length_cons]; omega, indexed, ?_⟩
    intro key
    rw [lookups key, keys, Table.lookup_erase_ite]
    by_cases same : key = ⟨adapterId, subId⟩
    · simp [same]
    · simp [same]

end Dropping

namespace Indexed
variable {state : State}

theorem subscribe (indexed : Indexed state) (adapterId : AdapterId) (subId : SubId)
    (route : RouteKey) (tx : Sender) : Indexed (state.subscribe adapterId subId route tx).2 := by
  simp only [State.subscribe]
  split
  · exact indexed
  · rename_i absent
    have absent : state.byKey.lookup ⟨adapterId, subId⟩ = none := by simpa using absent
    have keys : (state.insertIndex ⟨adapterId, subId⟩ route).byKey = state.byKey := by
      cases hint : route.typeHint <;> simp [State.insertIndex, hint]
    have adapters : (state.insertIndex ⟨adapterId, subId⟩ route).byAdapter = state.byAdapter := by
      cases hint : route.typeHint <;> simp [State.insertIndex, hint]
    have added :
      ((state.insertIndex ⟨adapterId, subId⟩ route).byKey.insert ⟨adapterId, subId⟩ ⟨route, tx⟩) =
        state.byKey.insert ⟨adapterId, subId⟩ ⟨route, tx⟩ := by rw [keys]
    constructor
    · exact indexed.routed.insert absent added rfl rfl
    · refine indexed.owned.insert added ?_
      simp [adapters]

/-- The state a subscribe call was seen to leave behind. -/
theorem of_subscribe {after : State} {adapterId : AdapterId} {subId : SubId} {route : RouteKey}
    {tx : Sender} {reply : Except EngineError SubscriberKey} (indexed : Indexed state)
    (answer : state.subscribe adapterId subId route tx = (reply, after)) : Indexed after := by
  have next := indexed.subscribe adapterId subId route tx
  rwa [answer] at next

theorem unsubscribe (indexed : Indexed state) (adapterId : AdapterId) (subId : SubId) :
    Indexed (state.unsubscribe adapterId subId).2 := by
  simp only [State.unsubscribe]
  split
  · rename_i after removed
    exact ⟨indexed.routed.removeSubscription removed, indexed.owned.removeSubscription removed⟩
  · exact indexed

theorem dropAdapter (indexed : Indexed state) (order : IterOrder SubId) (adapterId : AdapterId) :
    Indexed (state.dropAdapter order adapterId).2 := by
  simp only [State.dropAdapter]
  split
  · exact indexed
  · rename_i sids found
    exact (Dropping.foldl _ 0 _ (order.nodup sids) (.start indexed found order)).2.1

end Indexed

/-- One call on the engine, with the order its loop happens to iterate in. -/
inductive Call where
  | subscribe (adapterId : AdapterId) (subId : SubId) (route : RouteKey) (tx : Sender)
  | unsubscribe (adapterId : AdapterId) (subId : SubId)
  | dropAdapter (order : IterOrder SubId) (adapterId : AdapterId)

/-- The state a call leaves behind, whether it succeeds or fails. -/
def Call.apply (state : State) : Call → State
  | .subscribe adapterId subId route tx => (state.subscribe adapterId subId route tx).2
  | .unsubscribe adapterId subId => (state.unsubscribe adapterId subId).2
  | .dropAdapter order adapterId => (state.dropAdapter order adapterId).2

theorem Indexed.apply {state : State} (indexed : Indexed state) (call : Call) :
    Indexed (call.apply state) := by
  cases call with
  | subscribe adapterId subId route tx => exact indexed.subscribe adapterId subId route tx
  | unsubscribe adapterId subId => exact indexed.unsubscribe adapterId subId
  | dropAdapter order adapterId => exact indexed.dropAdapter order adapterId

/-- `call` registers `key` when it is free. -/
def Call.Registers (key : SubscriberKey) : Call → Prop
  | .subscribe adapterId subId _ _ => key = ⟨adapterId, subId⟩
  | _ => False

/-- `call` leaves `key` unregistered. -/
def Call.Removes (key : SubscriberKey) : Call → Prop
  | .subscribe .. => False
  | .unsubscribe adapterId subId => key = ⟨adapterId, subId⟩
  | .dropAdapter _ adapterId => key.adapterId = adapterId

section Lookup
variable {state : State} {key : SubscriberKey}

theorem lookup_unsubscribe (state : State) (adapterId : AdapterId) (subId : SubId)
    (key : SubscriberKey) : (state.unsubscribe adapterId subId).2.byKey.lookup key =
      if key = ⟨adapterId, subId⟩ then none else state.byKey.lookup key := by
  simp only [State.unsubscribe]
  split
  · rename_i after removed
    obtain ⟨sub, -, keys, -⟩ := State.removeSubscription_cases removed
    rw [keys, Table.lookup_erase_ite]
  · rename_i failed
    have absent := State.removeSubscription_isSome state ⟨adapterId, subId⟩
    rw [failed] at absent
    split
    · rename_i same
      rw [same]
      simpa using absent.symm
    · rfl

theorem Indexed.lookup_dropAdapter (indexed : Indexed state) (order : IterOrder SubId)
    (adapterId : AdapterId) (key : SubscriberKey) :
    (state.dropAdapter order adapterId).2.byKey.lookup key =
      if key.adapterId = adapterId then none else state.byKey.lookup key := by
  simp only [State.dropAdapter]
  split
  · rename_i absent
    split
    · rename_i same
      have listed := indexed.owned.listed key
      rw [State.routeOf_isSome, Index.members, same, absent] at listed
      simpa using listed
    · rfl
  · rename_i sids found
    exact (Dropping.foldl _ 0 _ (order.nodup sids) (.start indexed found order)).2.2 key

theorem lookup_subscribe_of_ne (state : State) {adapterId : AdapterId} {subId : SubId}
    {route : RouteKey} {tx : Sender} (different : key ≠ ⟨adapterId, subId⟩) :
    (state.subscribe adapterId subId route tx).2.byKey.lookup key = state.byKey.lookup key := by
  simp only [State.subscribe]
  split
  · rfl
  · have keys : (state.insertIndex ⟨adapterId, subId⟩ route).byKey = state.byKey := by
      cases hint : route.typeHint <;> simp [State.insertIndex, hint]
    simp [different, keys]

/-- A removal, whether or not it found the key, leaves the key free. -/
theorem Indexed.lookup_of_removes (indexed : Indexed state) {call : Call}
    (removes : call.Removes key) : (call.apply state).byKey.lookup key = none := by
  cases call with
  | subscribe => exact removes.elim
  | unsubscribe adapterId subId =>
    have same : key = ⟨adapterId, subId⟩ := removes
    simp [Call.apply, lookup_unsubscribe, same]
  | dropAdapter order adapterId =>
    have same : key.adapterId = adapterId := removes
    simp [Call.apply, indexed.lookup_dropAdapter, same]

/-- A free key stays free until a call registers it. -/
theorem Indexed.lookup_stays_none (indexed : Indexed state) {call : Call}
    (other : ¬ call.Registers key) (free : state.byKey.lookup key = none) :
    (call.apply state).byKey.lookup key = none := by
  cases call with
  | subscribe adapterId subId route tx =>
    have different : key ≠ ⟨adapterId, subId⟩ := other
    exact (lookup_subscribe_of_ne state different).trans free
  | unsubscribe adapterId subId =>
    simp [Call.apply, lookup_unsubscribe, free]
  | dropAdapter order adapterId =>
    simp [Call.apply, indexed.lookup_dropAdapter, free]

/-- Whose subscriptions a call is about. -/
def Call.caller : Call → AdapterId
  | .subscribe adapterId _ _ _ | .unsubscribe adapterId _ | .dropAdapter _ adapterId => adapterId

/-- A call leaves the subscriptions of every other adapter alone. -/
theorem Indexed.lookup_of_caller_ne (indexed : Indexed state) {call : Call}
    (other : key.adapterId ≠ call.caller) : (call.apply state).byKey.lookup key =
      state.byKey.lookup key := by
  cases call with
  | subscribe adapterId subId route tx =>
    refine lookup_subscribe_of_ne state ?_
    rintro rfl
    exact other rfl
  | unsubscribe adapterId subId =>
    rw [Call.apply, lookup_unsubscribe, if_neg]
    rintro rfl
    exact other rfl
  | dropAdapter order adapterId =>
    have elsewhere : key.adapterId ≠ adapterId := other
    rw [Call.apply, indexed.lookup_dropAdapter, if_neg elsewhere]

end Lookup

/-- Every call sequence on a new engine. -/
def calls : System State Call where
  initial state := state = State.default
  step before call after := after = call.apply before

theorem Indexed.of_reachable {state : State} (reached : calls.Reachable state) : Indexed state := by
  refine reached.invariant ?_ ?_
  · rintro state rfl
    exact .default
  · rintro before call after rfl indexed
    exact indexed.apply call

/-- The indexes describe the same set of subscriptions, each in the one place
its route gives it, and keep no empty set. -/
structure Coherent (state : State) : Prop where
  owned : ∀ adapterId subId, (state.byKey.lookup ⟨adapterId, subId⟩).isSome ↔
    subId ∈ state.byAdapter.members adapterId
  wildcard : ∀ key tx topic, state.byKey.lookup key = some ⟨⟨topic, none⟩, tx⟩ →
    (∀ other, key ∈ state.wildcards.members other ↔ other = topic) ∧
      ∀ other hint, key ∉ state.exact.members other hint
  exact : ∀ key tx topic hint, state.byKey.lookup key = some ⟨⟨topic, some hint⟩, tx⟩ →
    (∀ other otherHint, key ∈ state.exact.members other otherHint ↔
      other = topic ∧ otherHint = hint) ∧ ∀ other, key ∉ state.wildcards.members other
  wildcardRegistered : ∀ key topic, key ∈ state.wildcards.members topic →
    (state.byKey.lookup key).isSome
  exactRegistered : ∀ key topic hint, key ∈ state.exact.members topic hint →
    (state.byKey.lookup key).isSome
  prunedAdapters : ∀ adapterId, state.byAdapter.lookup adapterId ≠ some ∅
  prunedWildcards : ∀ topic, state.wildcards.lookup topic ≠ some ∅
  prunedTopics : ∀ topic, state.exact.lookup topic ≠ some ∅
  prunedHints : ∀ topic byHint, state.exact.lookup topic = some byHint →
    ∀ hint, byHint.lookup hint ≠ some ∅

theorem Indexed.coherent {state : State} (indexed : Indexed state) : Coherent state where
  owned adapterId subId := by
    rw [← State.routeOf_isSome]
    exact (indexed.owned.listed ⟨adapterId, subId⟩).symm
  wildcard key tx topic found := by
    have filed := State.routeOf_of_lookup found
    refine ⟨?_, ?_⟩
    · intro other
      simp [indexed.routed.wildcard, filed, eq_comm]
    · intro other hint
      simp [indexed.routed.exact, filed]
  exact key tx topic hint found := by
    have filed := State.routeOf_of_lookup found
    refine ⟨?_, ?_⟩
    · intro other otherHint
      simp [indexed.routed.exact, filed, eq_comm]
    · intro other
      simp [indexed.routed.wildcard, filed]
  wildcardRegistered key topic member := by
    rw [← State.routeOf_isSome, (indexed.routed.wildcard key topic).mp member, Option.isSome_some]
  exactRegistered key topic hint member := by
    rw [← State.routeOf_isSome, (indexed.routed.exact key topic hint).mp member, Option.isSome_some]
  prunedAdapters := indexed.owned.pruned
  prunedWildcards := indexed.routed.prunedWildcards
  prunedTopics := indexed.routed.prunedExact.outer
  prunedHints topic byHint found := indexed.routed.prunedExact.inner topic byHint found

/-- No sequence of calls, successful or not, separates the indexes. -/
theorem coherent_of_reachable {state : State} (reached : calls.Reachable state) : Coherent state :=
  (Indexed.of_reachable reached).coherent

theorem run_foldl (start : State) (sequence : List Call) :
    calls.Run start sequence (sequence.foldl Call.apply start) := by
  induction sequence generalizing start with
  | nil => exact .nil start
  | cons call rest ih => exact .cons rfl (ih (call.apply start))

/-- Two adapters share a topic, a duplicate is refused, and the first adapter
leaves twice. -/
noncomputable def sampleCalls : List Call :=
  [.subscribe ⟨"owp"⟩ ⟨"1"⟩ (.typed "uci" "Ping") ⟨0⟩,
    .subscribe ⟨"stomp"⟩ ⟨"1"⟩ (.wildcard "uci") ⟨1⟩,
    .subscribe ⟨"stomp"⟩ ⟨"1"⟩ (.wildcard "other") ⟨2⟩,
    .dropAdapter .unspecified ⟨"owp"⟩,
    .unsubscribe ⟨"owp"⟩ ⟨"1"⟩]

theorem coherent_after_sampleCalls : Coherent (sampleCalls.foldl Call.apply .default) :=
  coherent_of_reachable ⟨_, sampleCalls, rfl, run_foldl _ _⟩

end OaGateway.Core
