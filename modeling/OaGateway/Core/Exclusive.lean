import OaGateway.Core.Ordered

/-! A channel that one subscription alone was given: whatever comes through it is
that subscription's. -/
namespace OaGateway.Core

open Lib

/-- A channel nobody has ever sent to, and nobody is about to. -/
structure World.Unused (world : World) (channel : Nat) : Prop where
  registered : ∀ key sub, world.engine.state.byKey.lookup key = some sub → sub.tx.channel ≠ channel
  offered : ∀ publish ∈ world.publishes, ∀ target ∈ publish.phase.remaining,
    target.1.channel ≠ channel
  enqueued : ∀ entry ∈ world.enqueued, entry.2.1.channel ≠ channel

/-- Only one subscription has the channel, and nothing goes there that its route
does not accept. -/
structure World.Exclusive (world : World) (channel : Nat) (key : SubscriberKey)
    (route : RouteKey) : Prop where
  registered : ∀ other sub, world.engine.state.byKey.lookup other = some sub →
    sub.tx.channel = channel → other = key ∧ sub.route = route
  offered : ∀ publish ∈ world.publishes, ∀ target ∈ publish.phase.remaining,
    target.1.channel = channel →
    target.2 = key.subId ∧ route.Accepts publish.envelope.route
  enqueued : ∀ entry ∈ world.enqueued, entry.2.1.channel = channel →
    entry.2.2.subId = key.subId ∧ route.Accepts entry.2.2.envelope.route

def Event.Hands (channel : Nat) : Event → Prop
  | .call (.subscribe _ _ _ tx) => tx.channel = channel
  | _ => False

section Routing
variable {state : State}

theorem Routed.registered_of_mem (routed : Routed state) {order : IterOrder SubscriberKey}
    {route : RouteKey} {target : Sender × SubId}
    (member : target ∈ state.collectTargets order route) :
    ∃ key sub, state.byKey.lookup key = some sub ∧ sub.route.Accepts route ∧
      target = (sub.tx, key.subId) := by
  obtain ⟨key, listed, read⟩ := List.mem_filterMap.mp member
  obtain ⟨sub, found, rfl⟩ := Option.map_eq_some_iff.mp read
  obtain ⟨same, held, accepts⟩ := (routed.mem_candidateKeys route key).mp
    ((order.mem_iff _ key).mp listed)
  rw [found] at held
  cases held
  exact ⟨key, sub, found, accepts, rfl⟩

theorem lookup_of_call {call : Call} (indexed : Indexed state) {key : SubscriberKey}
    {sub : Subscription} (found : (call.apply state).byKey.lookup key = some sub) :
    state.byKey.lookup key = some sub ∨
      ∃ adapterId subId route tx, call = .subscribe adapterId subId route tx ∧
          key = ⟨adapterId, subId⟩ ∧ sub = ⟨route, tx⟩ := by
  cases call with
  | subscribe adapterId subId route tx =>
    by_cases here : key = ⟨adapterId, subId⟩
    · subst here
      simp only [Call.apply] at found
      cases held : state.byKey.lookup ⟨adapterId, subId⟩ with
      | some old =>
        rw [State.subscribe, if_pos (by simp [held]), held] at found
        exact .inl found
      | none =>
        rw [State.subscribe, if_neg (by simp [held])] at found
        simp only [Table.lookup_insert_ite] at found
        cases found
        exact .inr ⟨adapterId, subId, route, tx, rfl, rfl, rfl⟩
    · rw [Call.apply, lookup_subscribe_of_ne state here] at found
      exact .inl found
  | unsubscribe adapterId subId =>
    rw [Call.apply, lookup_unsubscribe] at found
    split at found
    · cases found
    · exact .inl found
  | dropAdapter order adapterId =>
    rw [Call.apply, indexed.lookup_dropAdapter] at found
    split at found
    · cases found
    · exact .inl found

end Routing

section Steps
variable {world after : World} {event : Event} {channel : Nat} {key : SubscriberKey}
  {route : RouteKey}

theorem World.Unused.exclusive (unused : world.Unused channel) (key : SubscriberKey)
    (route : RouteKey) :
    world.Exclusive channel key route where
  registered other sub found here := absurd here (unused.registered other sub found)
  offered publish member target waiting here :=
    absurd here (unused.offered publish member target waiting)
  enqueued entry member here := absurd here (unused.enqueued entry member)

/-- The publish a step changes still offers to some of the same targets, or has
just read them. -/
theorem Step.offers (step : Step world event after) {publish : Publish}
    (member : publish ∈ after.publishes) {target : Sender × SubId}
    (waiting : target ∈ publish.phase.remaining) :
    (∃ held ∈ world.publishes, held.envelope = publish.envelope ∧ target ∈ held.phase.remaining) ∨
      ∃ order, target ∈ world.engine.state.collectTargets order publish.envelope.route := by
  have kept {id : Nat} {held changed : Publish} (current : world.publishes[id]? = some held)
      (member : publish ∈ world.publishes.set id changed)
      (less : target ∈ changed.phase.remaining → target ∈ held.phase.remaining)
        (same : changed.envelope = held.envelope) :
      ∃ held ∈ world.publishes, held.envelope = publish.envelope ∧
          target ∈ held.phase.remaining := by
    rcases List.mem_or_eq_of_mem_set member with old | rfl
    · exact ⟨publish, old, rfl, waiting⟩
    · exact ⟨held, List.mem_of_getElem? current, same.symm, less waiting⟩
  cases step with
  | call | receive | close => exact .inl ⟨publish, member, rfl, waiting⟩
  | begin envelope =>
    rcases List.mem_append.mp member with old | new
    · exact .inl ⟨publish, old, rfl, waiting⟩
    · obtain rfl := List.mem_singleton.mp new
      cases waiting
  | snapshot id order envelope current =>
    rcases List.mem_or_eq_of_mem_set member with old | rfl
    · exact .inl ⟨publish, old, rfl, waiting⟩
    · exact .inr ⟨order, waiting⟩
  | accepted id envelope tx subId rest sofar box current sent =>
    exact .inl (kept current member (List.mem_cons_of_mem _) rfl)
  | refused id envelope tx subId rest sofar reason current failed =>
    exact .inl (kept current member (List.mem_cons_of_mem _) rfl)
  | countDelivered id envelope outcome current =>
    exact .inl (kept current member (fun none => by cases none) rfl)
  | countDropped id envelope outcome current =>
    exact .inl (kept current member (fun none => by cases none) rfl)

/-- A channel stays exclusive as long as nobody else is given it. -/
theorem World.Exclusive.step (exclusive : world.Exclusive channel key route)
    (indexed : Indexed world.engine.state) (step : Step world event after)
    (spared : ¬ event.Hands channel) : after.Exclusive channel key route where
  registered other sub found here := by
    cases step with
    | call call =>
      rcases lookup_of_call indexed found with old | ⟨adapterId, subId, route, tx, rfl, -, rfl⟩
      · exact exclusive.registered other sub old here
      · exact absurd here spared
    | _ => exact exclusive.registered other sub found here
  offered publish member target waiting here := by
    rcases step.offers member waiting with ⟨held, old, same, waited⟩ | ⟨order, read⟩
    · rw [← same]
      exact exclusive.offered held old target waited here
    · obtain ⟨other, sub, found, accepts, rfl⟩ := indexed.routed.registered_of_mem read
      obtain ⟨rfl, rfl⟩ := exclusive.registered other sub found here
      exact ⟨rfl, accepts⟩
  enqueued entry member here := by
    cases step with
    | accepted id envelope tx subId rest sofar box current sent =>
      rcases List.mem_append.mp member with old | new
      · exact exclusive.enqueued entry old here
      · obtain rfl := List.mem_singleton.mp new
        exact exclusive.offered _ (List.mem_of_getElem? current) (tx, subId) List.mem_cons_self here
    | _ => exact exclusive.enqueued entry member here

/-- A channel that is handed to one subscription is that subscription's. -/
theorem World.Unused.handed (unused : world.Unused channel) (indexed : Indexed world.engine.state)
    (step : Step world (.call (.subscribe key.adapterId key.subId route ⟨channel⟩)) after) :
    after.Exclusive channel key route := by
  cases step with
  | call =>
    refine ⟨fun other sub found here => ?_, (unused.exclusive key route).offered,
      (unused.exclusive key route).enqueued⟩
    rcases lookup_of_call indexed found with old | ⟨adapterId, subId, asked, tx, same, rfl, rfl⟩
    · exact absurd here (unused.registered other sub old)
    · cases same
      exact ⟨rfl, rfl⟩

end Steps

end OaGateway.Core
