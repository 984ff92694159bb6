import OaGateway.Owp.Agreement

/-! How much of the engine the clients of one WebSocket server can take up, given
its limit of connections and each session's limit of subscriptions. -/
namespace OaGateway.Owp

open Lib OaGateway.Core

/-- The sessions that have not ended are in so many slots. -/
def Hub.Within (hub : Hub) (bound : Nat) : Prop :=
  ∃ slots : List Nat, slots.length ≤ bound ∧
    ∀ slot connection, hub.connections slot = some connection → connection.active → slot ∈ slots

/-- A connection is let in on a free permit, and a session keeps its permit until it has ended. -/
def Admits (maxConnections : Nat) (hub : Hub) : HubEvent → Prop
  | .accept _ => ∃ bound < maxConnections, hub.Within bound
  | _ => True

/-- The adapter with its connection semaphore. -/
def limitedSystem (crates : OwpCrates) (adapter : Session) (maxConnections : Nat) :
    System Hub HubEvent :=
  (hubSystem crates adapter).restrict (Admits maxConnections)

/-- Whatever the engine has of an adapter, one of its sessions answers for. With
a number given out twice, two of them may. -/
structure Covered (adapter : Session) (hub : Hub) : Prop where
  indexed : Indexed hub.engine
  consistent : ∀ slot connection, hub.connections slot = some connection →
    connection.Consistent adapter.config.maxSubscriptions
  claimed : ∀ subId route, Registered adapter.adapterId hub.engine subId route →
    ∃ slot connection, hub.connections slot = some connection ∧ connection.Claims subId route

section Cover
variable {crates : OwpCrates} {adapter : Session} {hub after : Hub} {event : HubEvent} {slot : Nat}
  {connection next : Connection} {engine : State}

/-- One session moves on, and loses no row that the engine keeps. -/
theorem Covered.put (covered : Covered adapter hub) (found : hub.connections slot = some connection)
    (indexed : Indexed engine) (consistent : next.Consistent adapter.config.maxSubscriptions)
    (moved : ∀ subId route, Registered adapter.adapterId engine subId route →
      next.Claims subId route ∨ Registered adapter.adapterId hub.engine subId route ∧
        (connection.Claims subId route → next.Claims subId route)) :
    Covered adapter { hub.put slot next with engine } where
  indexed := indexed
  consistent place other present := by
    rcases Hub.put_found present with ⟨-, rfl⟩ | ⟨-, before⟩
    · exact consistent
    · exact covered.consistent place other before
  claimed subId route registered := by
    have own : (hub.put slot next).connections slot = some next := Hub.put_self hub slot next
    rcases moved subId route registered with claims | ⟨held, kept⟩
    · exact ⟨slot, next, own, claims⟩
    · obtain ⟨place, other, present, claims⟩ := covered.claimed subId route held
      by_cases here : place = slot
      · subst here
        rw [found] at present
        cases present
        exact ⟨place, next, own, kept claims⟩
      · have elsewhere : (hub.put slot next).connections place = some other := by
          simpa [Hub.put, here] using present
        exact ⟨place, other, elsewhere, claims⟩

/-- The table alone moves on. -/
theorem Covered.put_same (covered : Covered adapter hub)
    (found : hub.connections slot = some connection)
    (consistent : next.Consistent adapter.config.maxSubscriptions)
    (rows : ∀ subId route, connection.Claims subId route → next.Claims subId route) :
    Covered adapter (hub.put slot next) :=
  covered.put found covered.indexed consistent fun subId route registered =>
    .inr ⟨registered, rows subId route⟩

/-- A row goes together with its subscription. -/
theorem Covered.put_removed (covered : Covered adapter hub)
    (found : hub.connections slot = some connection) {entry : Entry}
    (rows : connection.rows.Perm (entry :: next.rows)) (same : next.connId = connection.connId)
    (settled : next.doing = .nothing ∨ (∃ left, next.doing = .draining left) ∧ next.entries = []) :
    Covered adapter { hub.put slot next with
      engine := (hub.engine.unsubscribe adapter.adapterId entry.live.engineSub).2 } := by
  have consistent := (covered.consistent slot connection found).removed rows same settled
  refine covered.put found (covered.indexed.unsubscribe _ _) consistent
    fun subId route registered => ?_
  obtain ⟨different, held⟩ := (registered_unsubscribe _ _ _ _).mp registered
  refine .inr ⟨held, ?_⟩
  rintro ⟨row, member, rfl, rfl⟩
  rcases List.mem_cons.mp (rows.mem_iff.mp member) with rfl | left
  · exact absurd rfl different
  · exact ⟨row, left, rfl, rfl⟩

theorem covered_step (covered : Covered adapter hub)
    (step : HubStep crates adapter hub event after) :
    Covered adapter after := by
  cases step with
  | @accept slot free =>
    refine ⟨covered.indexed, fun place other present => ?_, fun subId route registered => ?_⟩
    · rcases Hub.put_found present with ⟨-, rfl⟩ | ⟨-, before⟩
      · exact .accepted _
      · exact covered.consistent place other before
    · obtain ⟨place, other, present, claims⟩ := covered.claimed subId route registered
      refine ⟨place, other, ?_, claims⟩
      have different : place ≠ slot := by
        rintro rfl
        rw [free] at present
        cases present
      simpa [Hub.put, different] using present
  | refuse => exact ⟨covered.indexed, covered.consistent, covered.claimed⟩
  | text found idle =>
    obtain ⟨consistent, -, rows⟩ := (covered.consistent _ _ found).handle idle
    refine covered.put_same found consistent fun subId route claims => ?_
    simpa only [Connection.Claims, rows] using claims
  | leave found idle =>
    refine covered.put_same found ((covered.consistent _ _ found).leave idle)
      fun subId route claims => ?_
    simpa [Connection.Claims, Connection.rows, Connection.leave, Doing.rows, idle] using claims
  | @subscribe slot connection sid engineSub route tx key engine found doing answer =>
    refine covered.put found (covered.indexed.of_subscribe answer)
      ((covered.consistent _ _ found).inserting doing) fun subId taken registered => ?_
    rcases (registered_subscribe answer subId taken).mp registered with ⟨rfl, rfl⟩ | ⟨-, held⟩
    · exact .inl ⟨_, List.mem_append_right _ (List.mem_singleton_self _), rfl, rfl⟩
    · refine .inr ⟨held, ?_⟩
      rintro ⟨row, member, same⟩
      simp only [Connection.rows, doing, Doing.rows, List.append_nil] at member
      exact ⟨row, List.mem_append_left _ member, same⟩
  | refused found doing answer =>
    have same := (State.subscribe_error answer).2
    refine covered.put found (same ▸ covered.indexed) ((covered.consistent _ _ found).idle doing)
      fun subId route registered => .inr ⟨same ▸ registered, fun claims => ?_⟩
    simpa [Connection.Claims, Connection.rows, doing, Doing.rows] using claims
  | insert found doing =>
    refine covered.put_same found ((covered.consistent _ _ found).inserted doing)
      fun subId route claims => ?_
    simpa [Connection.Claims, Connection.rows, Doing.rows, doing,
      or_and_right, exists_or] using claims
  | unsubscribe found doing =>
    refine covered.put_removed found ?_ rfl (.inl rfl)
    simp [Connection.rows, Doing.rows, doing]
  | drain found doing =>
    have empty := (covered.consistent _ _ found).drained _ doing
    refine covered.put_removed found ?_ rfl (.inr ⟨⟨_, rfl⟩, empty⟩)
    simp [Connection.rows, Doing.rows, doing, empty]
  | finish found doing =>
    have empty := (covered.consistent _ _ found).drained _ doing
    refine covered.put_same found ((covered.consistent _ _ found).ended doing)
      fun subId route claims => ?_
    simp [Connection.Claims, Connection.rows, Doing.rows, doing, empty] at claims
  | other foreign =>
    refine ⟨covered.indexed.apply _, covered.consistent, fun subId route registered =>
      covered.claimed subId route ?_⟩
    rwa [Registered, covered.indexed.lookup_of_caller_ne (Ne.symm foreign)] at registered

theorem covered_of_reachable (reached : (hubSystem crates adapter).Reachable hub) :
    Covered adapter hub := by
  refine reached.invariant (fun hub initial => ?_) fun _ _ _ step covered =>
    covered_step covered step
  have agrees := agrees_of_initial initial
  exact ⟨agrees.indexed, agrees.consistent, fun subId route => (agrees.claimed subId route).mp⟩

end Cover

section Bound
variable {crates : OwpCrates} {adapter : Session} {maxConnections : Nat} {hub after : Hub}
  {event : HubEvent}

/-- Only an accepted connection adds to the sessions that have not ended. -/
theorem active_before (step : HubStep crates adapter hub event after)
    (other : ∀ slot, event ≠ .accept slot) {slot : Nat} {next : Connection}
    (found : after.connections slot = some next) (active : next.active) :
    ∃ connection, hub.connections slot = some connection ∧ connection.active := by
  by_cases mover : event.mover = some slot
  · have busy {connection : Connection} (present : hub.connections slot = some connection)
        (doing : connection.doing ≠ .ended) :
        ∃ connection, hub.connections slot = some connection ∧ connection.active :=
      ⟨connection, present, doing⟩
    cases step with
    | accept => exact absurd rfl (other _)
    | refuse => cases mover
    | other => cases mover
    | finish present doing =>
      cases mover
      obtain ⟨-, rfl⟩ := (Hub.put_found found).resolve_right fun elsewhere => elsewhere.1 rfl
      exact absurd rfl active
    | text present doing | leave present doing | subscribe present doing | refused present doing
    | insert present doing
    | unsubscribe present doing | drain present doing =>
      cases mover
      exact busy present (by simp [doing])
  · rw [connections_elsewhere step mover] at found
    exact ⟨next, found, active⟩

theorem within_step (within : hub.Within maxConnections)
    (step : (limitedSystem crates adapter maxConnections).step hub event after) : after.Within
      maxConnections := by
  by_cases accepts : ∃ slot, event = .accept slot
  · obtain ⟨slot, rfl⟩ := accepts
    obtain ⟨⟨bound, below, slots, short, known⟩, moved⟩ := step
    refine ⟨slot :: slots, Nat.le_trans (Nat.succ_le_succ short) below,
      fun other connection found active => ?_⟩
    by_cases here : other = slot
    · simp [here]
    · have elsewhere : (HubEvent.accept slot).mover ≠ some other := by
        simpa [HubEvent.mover] using Ne.symm here
      rw [connections_elsewhere moved elsewhere] at found
      exact List.mem_cons_of_mem slot (known other connection found active)
  · obtain ⟨slots, short, known⟩ := within
    refine ⟨slots, short, fun slot connection found active => ?_⟩
    obtain ⟨earlier, present, awake⟩ :=
      active_before step.2 (fun slot same => accepts ⟨slot, same⟩) found active
    exact known slot earlier present awake

theorem within_of_reachable
    (reached : (limitedSystem crates adapter maxConnections).Reachable hub) :
    hub.Within maxConnections := by
  refine reached.invariant ?_ fun before event after step within => within_step within step
  rintro start ⟨-, -, -, none⟩
  exact ⟨[], Nat.zero_le _, fun slot connection found => by simp [none] at found⟩

/-- The engine's keys for one slot. -/
def Hub.keys (hub : Hub) (slot : Nat) : List SubId :=
  match hub.connections slot with
  | some connection => connection.rows.map fun row => row.live.engineSub
  | none => []

theorem Covered.keys_length (covered : Covered adapter hub) (slot : Nat) :
    (hub.keys slot).length ≤ adapter.config.maxSubscriptions := by
  rw [Hub.keys]
  split
  · rename_i connection found
    rw [List.length_map]
    exact (covered.consistent slot connection found).room
  · exact Nat.zero_le _

theorem Covered.mem_keys (covered : Covered adapter hub) {slots : List Nat}
    (known : ∀ slot connection, hub.connections slot = some connection → connection.active →
      slot ∈ slots)
    {subId : SubId} {route : RouteKey}
    (registered : Registered adapter.adapterId hub.engine subId route) :
    subId ∈ slots.flatMap hub.keys := by
  obtain ⟨slot, connection, found, claims⟩ := covered.claimed subId route registered
  have active := claims.active (covered.consistent slot connection found)
  obtain ⟨row, member, rfl, -⟩ := claims
  refine List.mem_flatMap.mpr ⟨slot, known slot connection found active, ?_⟩
  rw [Hub.keys, found]
  exact List.mem_map_of_mem member

theorem length_flatMap_le {slots : List Nat} {part : Nat → List SubId} {bound : Nat}
    (each : ∀ slot, (part slot).length ≤ bound) : (slots.flatMap part).length ≤
      slots.length * bound := by
  induction slots with
  | nil => simp
  | cons slot rest ih =>
    rw [List.flatMap_cons, List.length_append, List.length_cons, Nat.succ_mul, Nat.add_comm]
    exact Nat.add_le_add ih (each slot)

end Bound

/-- Whatever the clients send, an adapter never has more subscriptions on the
engine than its connections times those allowed to each. -/
theorem registered_within_limits (crates : OwpCrates) (adapter : Session)
    (maxConnections : Nat) (hub : Hub)
    (reached : (limitedSystem crates adapter maxConnections).Reachable hub) (subIds : List SubId)
    (distinct : subIds.Nodup)
    (registered : ∀ subId ∈ subIds, ∃ route, Registered adapter.adapterId hub.engine subId route) :
    subIds.length ≤ maxConnections * adapter.config.maxSubscriptions := by
  have covered : Covered adapter hub := by
    obtain ⟨start, labels, initial, run⟩ := reached
    exact covered_of_reachable ⟨start, labels, initial, run.of_restrict⟩
  obtain ⟨slots, short, known⟩ := within_of_reachable reached
  have inside : subIds ⊆ slots.flatMap hub.keys := by
    intro subId member
    obtain ⟨route, present⟩ := registered subId member
    exact covered.mem_keys known present
  calc subIds.length ≤ (slots.flatMap hub.keys).length := (distinct.subperm inside).length_le
    _ ≤ slots.length * adapter.config.maxSubscriptions := length_flatMap_le covered.keys_length
    _ ≤ maxConnections * adapter.config.maxSubscriptions := Nat.mul_le_mul_right _ short

section Samples

/-- One client with one subscription, on a server that takes one. -/
theorem firstClient_within_limits :
    ∃ hub, (limitedSystem verboseCrates plainSession 1).Reachable hub ∧
    hub.connections 0 = some served ∧ [connKey 1 "s1"].length ≤ 1 *
      plainSession.config.maxSubscriptions := by
  obtain ⟨hub, run, -, connections, engine⟩ := run_firstClient
  have held : Registered plainSession.adapterId hub.engine (connKey 1 "s1")
      (.typed "demo" "Ping") := by
    have taken : (firstSubscription .default).2.byKey = State.default.byKey.insert
        ⟨plainSession.adapterId, connKey 1 "s1"⟩ ⟨.typed "demo" "Ping", ⟨0⟩⟩ :=
          (State.subscribe_ok rfl).2
    exact ⟨⟨0⟩, by rw [engine, taken, Table.lookup_insert_ite, if_pos rfl]⟩
  cases run.of_restrict with
  | cons accept rest =>
    have free : Admits 1 Hub.start (.accept 0) :=
      ⟨0, Nat.one_pos, [], Nat.le_refl 0, fun slot connection found => by cases found⟩
    have passes : ∀ label ∈ greeting 0 ++ [.subscribe 0 ⟨0⟩, .insert 0],
        ∀ state, Admits 1 state label := by
      intro label member state
      simp only [greeting, List.cons_append, List.nil_append, List.mem_cons,
        List.not_mem_nil, or_false] at member
      rcases member with rfl | rfl | rfl | rfl <;> trivial
    have reached : (limitedSystem verboseCrates plainSession 1).Reachable hub :=
      ⟨.start, _, initial_start, .cons ⟨free, accept⟩ (rest.to_restrict passes)⟩
    refine ⟨hub, reached, by rw [connections]; rfl, ?_⟩
    refine registered_within_limits verboseCrates plainSession 1 hub reached [connKey 1 "s1"]
      (List.nodup_singleton _) ?_
    intro subId member
    rw [List.mem_singleton.mp member]
    exact ⟨_, held⟩

end Samples

end OaGateway.Owp
