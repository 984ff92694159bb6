import OaGateway.Core.Publish

/-! The engine's calls compose: the registered subscriptions decide the state, so
calls that do the same to them lead to the same state. -/
namespace OaGateway.Core

open Lib

section Extensionality
variable {state other : State}

theorem routeOf_congr (same : ∀ key, state.byKey.lookup key = other.byKey.lookup key)
    (key : SubscriberKey) :
    state.routeOf key = other.routeOf key := by
  rw [State.routeOf, State.routeOf, same key]

/-- The subscriptions decide every index. -/
theorem Indexed.ext (one : Indexed state) (two : Indexed other)
    (same : ∀ key, state.byKey.lookup key = other.byKey.lookup key) : state = other := by
  have keys : state.byKey = other.byKey := Finmap.ext_lookup same
  have routes := routeOf_congr same
  have adapters : state.byAdapter = other.byAdapter := by
    refine one.owned.pruned.unique two.owned.pruned fun adapterId => Finset.ext fun subId => ?_
    have here := one.owned.listed ⟨adapterId, subId⟩
    have there := two.owned.listed ⟨adapterId, subId⟩
    rw [routes] at here
    exact here.trans there.symm
  have exact : state.exact = other.exact := by
    refine one.routed.prunedExact.unique two.routed.prunedExact fun topic hint =>
      Finset.ext fun key => ?_
    rw [one.routed.exact, two.routed.exact, routes]
  have wildcards : state.wildcards = other.wildcards := by
    refine one.routed.prunedWildcards.unique two.routed.prunedWildcards fun topic =>
      Finset.ext fun key => ?_
    rw [one.routed.wildcard, two.routed.wildcard, routes]
  cases state
  cases other
  cases keys
  cases adapters
  cases exact
  cases wildcards
  rfl

end Extensionality

inductive Reply where
  | subscribed (result : Except EngineError SubscriberKey)
  | unsubscribed (result : Except EngineError Unit)
  | dropped (count : Nat)

namespace Call

def reply (state : State) : Call → Reply
  | subscribe adapterId subId route tx => .subscribed (state.subscribe adapterId subId route tx).1
  | unsubscribe adapterId subId => .unsubscribed (state.unsubscribe adapterId subId).1
  | dropAdapter order adapterId => .dropped (state.dropAdapter order adapterId).1

def key : Call → Option SubscriberKey
  | subscribe adapterId subId _ _ | unsubscribe adapterId subId => some ⟨adapterId, subId⟩
  | dropAdapter .. => none

/-- What a call makes of that key's subscription. -/
def entry : Call → Option Subscription → Option Subscription
  | subscribe _ _ route tx, found => some (found.getD ⟨route, tx⟩)
  | unsubscribe .., _ => none
  | dropAdapter .., found => found

end Call

def Reply.Refused : Reply → Prop
  | subscribed result => ∃ error, result = .error error
  | unsubscribed result => ∃ error, result = .error error
  | dropped _ => False

section Keyed
variable {state : State} {call : Call} {key : SubscriberKey}

theorem lookup_subscribe (state : State) (adapterId : AdapterId) (subId : SubId) (route : RouteKey)
    (tx : Sender) : (state.subscribe adapterId subId route tx).2.byKey.lookup ⟨adapterId, subId⟩ =
      some ((state.byKey.lookup ⟨adapterId, subId⟩).getD ⟨route, tx⟩) := by
  rw [State.subscribe]
  cases found : state.byKey.lookup ⟨adapterId, subId⟩ with
  | some sub => simpa using found
  | none => simp

/-- A call on one key changes that key's subscription only. -/
theorem lookup_apply (about : call.key = some key) (other : SubscriberKey) :
    (call.apply state).byKey.lookup other =
      if other = key then call.entry (state.byKey.lookup key) else state.byKey.lookup other := by
  cases call with
  | subscribe adapterId subId route tx =>
    cases about
    by_cases same : other = ⟨adapterId, subId⟩
    · subst other
      rw [if_pos rfl]
      exact lookup_subscribe state adapterId subId route tx
    · rw [if_neg same]
      exact lookup_subscribe_of_ne state same
  | unsubscribe adapterId subId =>
    cases about
    exact lookup_unsubscribe state adapterId subId other
  | dropAdapter => cases about

/-- And its answer reads that key's subscription only. -/
theorem reply_congr {other : State} (about : call.key = some key)
    (same : state.byKey.lookup key = other.byKey.lookup key) :
    call.reply state = call.reply other := by
  cases call with
  | subscribe adapterId subId route tx =>
    cases about
    simp only [Call.reply, State.subscribe, same]
    split <;> rfl
  | unsubscribe adapterId subId =>
    cases about
    have one := State.removeSubscription_isSome state ⟨adapterId, subId⟩
    have two := State.removeSubscription_isSome other ⟨adapterId, subId⟩
    rw [same, ← two] at one
    simp only [Call.reply, State.unsubscribe]
    cases here : state.removeSubscription ⟨adapterId, subId⟩ <;>
      cases there : other.removeSubscription ⟨adapterId, subId⟩ <;> simp_all
  | dropAdapter => cases about

theorem apply_of_refused (refused : (call.reply state).Refused) : call.apply state = state := by
  cases call with
  | subscribe adapterId subId route tx =>
    obtain ⟨error, failed⟩ := refused
    simp only [Call.apply, State.subscribe] at failed ⊢
    split at failed
    · rename_i taken
      rw [if_pos taken]
    · cases failed
  | unsubscribe adapterId subId =>
    obtain ⟨error, failed⟩ := refused
    simp only [Call.apply, State.unsubscribe] at failed ⊢
    split at failed
    · cases failed
    · rfl
  | dropAdapter => exact refused.elim

/-- Calls on two keys commute, and answer alike in either order. -/
theorem Indexed.commute (indexed : Indexed state) {first second : Call} {one two : SubscriberKey}
    (here : first.key = some one) (there : second.key = some two) (apart : one ≠ two) :
    second.apply (first.apply state) = first.apply (second.apply state) ∧
      first.reply (second.apply state) = first.reply state ∧
      second.reply (first.apply state) = second.reply state := by
  refine ⟨?states, reply_congr here ?first, reply_congr there ?second⟩
  case states =>
    refine ((indexed.apply first).apply second).ext ((indexed.apply second).apply first) fun key =>
      ?_
    rw [lookup_apply there, lookup_apply here, lookup_apply here, lookup_apply here,
      lookup_apply there, lookup_apply there]
    by_cases isOne : key = one
    · subst isOne
      simp [apart]
    · simp [isOne, apart.symm]
  case first => simp [lookup_apply there, apart]
  case second => simp [lookup_apply here, apart.symm]

/-- Unsubscribing what was subscribed restores the state. -/
theorem Indexed.restore (indexed : Indexed state) {adapterId : AdapterId} {subId : SubId}
    (free : state.byKey.lookup ⟨adapterId, subId⟩ = none) (route : RouteKey) (tx : Sender) :
    (state.subscribe adapterId subId route tx).2.unsubscribe adapterId subId = (.ok (), state) := by
  have same : ((state.subscribe adapterId subId route tx).2.unsubscribe adapterId subId).2 =
      state := by
    refine ((indexed.subscribe adapterId subId route tx).unsubscribe adapterId subId).ext
      indexed fun key => ?_
    rw [lookup_unsubscribe]
    split
    · rename_i equal
      rw [equal, free]
    · rename_i different
      exact lookup_subscribe_of_ne state different
  have present := State.removeSubscription_isSome (state.subscribe adapterId subId route tx).2
    ⟨adapterId, subId⟩
  rw [lookup_subscribe, Option.isSome_some] at present
  obtain ⟨after, removed⟩ := Option.isSome_iff_exists.mp present
  rw [State.unsubscribe, removed] at same ⊢
  exact congrArg _ same

end Keyed

section Drop
variable {state : State}

/-- One adapter's subscriptions given up one by one. -/
def unsubscribeAll (state : State) (adapterId : AdapterId) (subIds : List SubId) : State :=
  subIds.foldl (fun state subId => (state.unsubscribe adapterId subId).2) state

theorem Indexed.lookup_unsubscribeAll (indexed : Indexed state) (adapterId : AdapterId)
    (subIds : List SubId) :
    Indexed (unsubscribeAll state adapterId subIds) ∧
      ∀ key, (unsubscribeAll state adapterId subIds).byKey.lookup key =
        if key.adapterId = adapterId ∧ key.subId ∈
            subIds then none else state.byKey.lookup key := by
  induction subIds generalizing state with
  | nil => exact ⟨indexed, fun key => by simp [unsubscribeAll]⟩
  | cons subId rest ih =>
    obtain ⟨later, lookups⟩ := ih (indexed.unsubscribe adapterId subId)
    refine ⟨later, fun key => (lookups key).trans ?_⟩
    rw [lookup_unsubscribe]
    obtain ⟨owner, name⟩ := key
    by_cases own : owner = adapterId <;> by_cases first : name = subId <;> simp [own, first]

theorem Indexed.count_dropAdapter (indexed : Indexed state) (order : IterOrder SubId)
    (adapterId : AdapterId) : (state.dropAdapter order adapterId).1 =
      (state.byAdapter.members adapterId).card := by
  rw [State.dropAdapter, Index.members]
  split
  · rename_i absent
    rw [absent]
    rfl
  · rename_i sids found
    have counted := (Dropping.foldl _ 0 _ (order.nodup sids) (.start indexed found order)).1
    have listed := congrArg Multiset.card (order.coe_toList sids)
    rw [counted, found, Nat.zero_add]
    exact listed

/-- Dropping an adapter is giving up its subscriptions one by one, in any order. -/
theorem Indexed.dropAdapter_eq (indexed : Indexed state) (order : IterOrder SubId)
    (adapterId : AdapterId) {subIds : List SubId} (distinct : subIds.Nodup)
    (owned : ∀ subId, subId ∈ subIds ↔ (state.byKey.lookup ⟨adapterId, subId⟩).isSome = true) :
    state.dropAdapter order adapterId = (subIds.length, unsubscribeAll state adapterId subIds) := by
  obtain ⟨later, lookups⟩ := indexed.lookup_unsubscribeAll adapterId subIds
  have members : state.byAdapter.members adapterId = subIds.toFinset := by
    ext subId
    rw [List.mem_toFinset, owned, ← State.routeOf_isSome]
    exact indexed.owned.listed ⟨adapterId, subId⟩
  refine Prod.ext ?count ?left
  case count => rw [indexed.count_dropAdapter, members, List.toFinset_card_of_nodup distinct]
  case left =>
    refine (indexed.dropAdapter order adapterId).ext later fun key => ?_
    rw [indexed.lookup_dropAdapter, lookups]
    by_cases own : key.adapterId = adapterId
    · subst own
      have known := owned key.subId
      by_cases listed : key.subId ∈ subIds
      · simp [listed]
      · have absent : state.byKey.lookup key = none := by simpa [listed] using known
        simp [listed, absent]
    · simp [own]

end Drop

section Frame

/-- What a publish reads for the subscriptions of some adapters. -/
def State.targetsOf (order : IterOrder SubscriberKey) (state : State) (pick : AdapterId → Bool)
    (route : RouteKey) :
    List (Sender × SubId) :=
  ((order.toList (state.candidateKeys route)).filter fun key => pick key.adapterId).filterMap
    state.target

theorem State.targetsOf_all (order : IterOrder SubscriberKey) (state : State) (route : RouteKey) :
    state.targetsOf order (fun _ => true) route = state.collectTargets order route := by
  simp only [State.targetsOf, List.filter_true]
  rfl

/-- The targets of one adapter and of the others are all there are. -/
theorem State.targetsOf_append (order : IterOrder SubscriberKey) (state : State)
    (pick : AdapterId → Bool) (route : RouteKey) :
    (state.targetsOf order pick route ++ state.targetsOf order
      (fun adapterId => !pick adapterId) route).Perm
      (state.collectTargets order route) := by
  rw [State.targetsOf, State.targetsOf, ← List.filterMap_append]
  exact (List.filter_append_perm _ _).filterMap _

variable {state : State}

/-- A call is nothing to the subscriptions of any other adapter. -/
theorem Indexed.targetsOf_apply (indexed : Indexed state) {call : Call} {pick : AdapterId → Bool}
    (others : pick call.caller = false) (route : RouteKey) (order later : IterOrder SubscriberKey) :
    ((call.apply state).targetsOf later pick route).Perm (state.targetsOf order pick route) := by
  have same {key : SubscriberKey} (picked : pick key.adapterId = true) :
      (call.apply state).byKey.lookup key = state.byKey.lookup key := by
    refine indexed.lookup_of_caller_ne ?_
    intro own
    rw [own, others] at picked
    cases picked
  have keys : ((later.toList ((call.apply state).candidateKeys route)).filter fun key =>
    pick key.adapterId).Perm
      ((order.toList (state.candidateKeys route)).filter fun key => pick key.adapterId) := by
    refine (List.perm_ext_iff_of_nodup ((later.nodup _).filter _) ((order.nodup _).filter _)).mpr
      fun key => ?_
    simp only [List.mem_filter, IterOrder.mem_iff]
    refine and_congr_left fun picked => ?_
    rw [(indexed.apply call).routed.mem_candidateKeys,
      indexed.routed.mem_candidateKeys, same picked]
  have targets : ∀ key ∈ (order.toList (state.candidateKeys route)).filter fun key =>
    pick key.adapterId,
      (call.apply state).target key = state.target key := by
    intro key member
    rw [State.target, State.target, same (List.mem_filter.mp member).2]
  exact (keys.filterMap _).trans (.of_eq (List.filterMap_congr targets))

end Frame

/-- The engine's calls compose: from any reachable state, dropping an adapter is
unsubscribing it, unsubscribing undoes subscribing, a refused call does nothing,
calls on two keys commute, and no call reaches another adapter's subscriptions. -/
theorem engine_calls_compose {state : State} (reached : calls.Reachable state) :
    (∀ (order : IterOrder SubId) (adapterId : AdapterId) (subIds : List SubId), subIds.Nodup →
      (∀ subId, subId ∈ subIds ↔ (state.byKey.lookup ⟨adapterId, subId⟩).isSome = true) →
      state.dropAdapter order adapterId = (subIds.length, unsubscribeAll state adapterId subIds)) ∧
    (∀ adapterId subId route tx, state.byKey.lookup ⟨adapterId, subId⟩ = none →
      (state.subscribe adapterId subId route tx).2.unsubscribe adapterId subId = (.ok (), state)) ∧
    (∀ call : Call, (call.reply state).Refused → call.apply state = state) ∧
    (∀ (first second : Call) (one two : SubscriberKey), first.key = some one →
      second.key = some two → one ≠ two → second.apply (first.apply state) =
        first.apply (second.apply state) ∧
        first.reply (second.apply state) = first.reply state ∧
        second.reply (first.apply state) = second.reply state) ∧
    ∀ call : Call,
      (∀ key : SubscriberKey, key.adapterId ≠ call.caller →
        (call.apply state).byKey.lookup key = state.byKey.lookup key) ∧
      ∀ (pick : AdapterId → Bool) (route : RouteKey) (order later : IterOrder SubscriberKey),
        pick call.caller = false →
          ((call.apply state).targetsOf later pick route).Perm
              (state.targetsOf order pick route) := by
  have indexed := Indexed.of_reachable reached
  refine ⟨?drop, ?restore, ?refused, ?commute, ?frame⟩
  case drop =>
    intro order adapterId subIds distinct owned
    exact indexed.dropAdapter_eq order adapterId distinct owned
  case restore =>
    intro adapterId subId route tx free
    exact indexed.restore free route tx
  case refused =>
    intro call refused
    exact apply_of_refused refused
  case commute =>
    intro first second one two here there apart
    exact indexed.commute here there apart
  case frame =>
    intro call
    refine ⟨fun key other => indexed.lookup_of_caller_ne other, ?_⟩
    intro pick route order later others
    exact indexed.targetsOf_apply others route order later

theorem sharedCalls_compose :
    (sharedCalls.foldl Call.apply .default).dropAdapter .unspecified ⟨"stomp"⟩ =
      (2, unsubscribeAll (sharedCalls.foldl Call.apply .default) ⟨"stomp"⟩ [⟨"2"⟩, ⟨"1"⟩]) := by
  refine (engine_calls_compose ⟨_, sharedCalls, rfl, run_foldl _ _⟩).1 .unspecified ⟨"stomp"⟩
    [⟨"2"⟩, ⟨"1"⟩]
    (by decide) fun subId => ?_
  by_cases first : subId = ⟨"1"⟩
  · subst first
    decide
  by_cases second : subId = ⟨"2"⟩
  · subst second
    decide
  have apart (name : SubId) (other : subId ≠ name) : (⟨⟨"stomp"⟩, subId⟩ : SubscriberKey) ≠
    ⟨⟨"stomp"⟩, name⟩ :=
    fun same => other (SubscriberKey.mk.inj same).2
  have absent : (sharedCalls.foldl Call.apply .default).byKey.lookup ⟨⟨"stomp"⟩, subId⟩ = none :=
    (lookup_subscribe_of_ne _ (apart ⟨"2"⟩ second)).trans
      ((lookup_subscribe_of_ne _ (apart ⟨"1"⟩ first)).trans rfl)
  simp [first, second, absent]

end OaGateway.Core
