import OaGateway.Stomp.Reception

/-! The run in which a message comes back: a publish is carried through to each
target that has a receiver, and what the broker returns is published again. -/
namespace OaGateway.Stomp

open Lib OaGateway.Core

/-- The engine by itself, as far as the bridge leaves it free. -/
def surroundings (link : Link) (payload : Bytes) : System World Event :=
  concurrent.restrict fun _ event => Surrounding link payload event

section Publish
variable {link : Link} {envelope copy : Envelope} {world after : World}
  {target : Sender × SubId} {id : Nat}

/-- What carrying a publish on leaves behind: the indexes and the channels are
as they were, a target has `hits` more deliveries, and the adapter's channel has
some, at least where `mine` says so. -/
structure Carried (link : Link) (target : Sender × SubId) (copy : Envelope)
    (hits : Nat) (mine : Prop) (world after : World) : Prop where
  indexes : after.engine.state = world.engine.state
  channels : ∀ channel, (after.channels channel).capacity = (world.channels channel).capacity ∧
    (after.channels channel).closed = (world.channels channel).closed
  taken : ∀ tracked : Envelope → Bool, tracked copy = true →
    world.taken tracked (· == target) + hits ≤ after.taken tracked (· == target)
  queue : ∃ added, (after.channels link.tx.channel).queue =
    (world.channels link.tx.channel).queue ++ added ∧
    (∀ delivery ∈ added, delivery.envelope = copy) ∧ (mine → added ≠ [])

def emptied (world : World) (channel : Nat) : World :=
  let channels := Function.update world.channels channel { world.channels channel with queue := [] }
  { world with channels }

theorem run_drain {channel : Nat} (other : channel ≠ link.tx.channel) :
    ∃ events, (surroundings link envelope.payload).Run world events (emptied world channel) := by
  generalize length : (world.channels channel).queue.length = count
  induction count generalizing world with
  | zero =>
    have empty := List.length_eq_zero_iff.mp length
    have same : emptied world channel = world := by
      simp only [emptied, ← empty]
      rw [Function.update_eq_self]
    exact ⟨[], by rw [same]; exact .nil world⟩
  | succ count ih =>
    have here : (drained world channel).channels channel = (world.channels channel).receive :=
      channels_drained world channel
    obtain ⟨events, run⟩ := @ih (drained world channel)
      (by rw [here, Channel.receive, List.length_tail, length]; rfl)
    have same : emptied (drained world channel) channel = emptied world channel := by
      simp only [emptied, here]
      simp only [drained, Function.update_idem]
      rfl
    rw [same] at run
    exact ⟨.receive channel :: events, .cons ⟨other, .receive channel⟩ run⟩

theorem Carried.refl : Carried link target copy 0 False world world :=
  ⟨rfl, fun _ => ⟨rfl, rfl⟩, fun _ _ => le_rfl, [], by simp, by simp, False.elim⟩

theorem Carried.trans {middle : World} (first : Carried link target copy hits mine world middle)
    (second : Carried link target copy more yours middle after) :
    Carried link target copy (hits + more) (mine ∨ yours) world after := by
  refine ⟨second.indexes.trans first.indexes, ?_, ?_, ?_⟩
  · intro channel
    obtain ⟨capacity, closed⟩ := first.channels channel
    obtain ⟨capacity', closed'⟩ := second.channels channel
    exact ⟨capacity'.trans capacity, closed'.trans closed⟩
  · intro tracked known
    have := first.taken tracked known
    have := second.taken tracked known
    omega
  · obtain ⟨added, queue, copies, filled⟩ := first.queue
    obtain ⟨added', queue', copies', filled'⟩ := second.queue
    refine ⟨added ++ added', by rw [queue', queue, List.append_assoc], ?_, ?_⟩
    · intro delivery member
      exact (List.mem_append.mp member).elim (copies delivery) (copies' delivery)
    · rintro (here | there) empty
      · exact filled here (List.append_eq_nil_iff.mp empty).1
      · exact filled' there (List.append_eq_nil_iff.mp empty).2

theorem Carried.weaken (carried : Carried link target copy hits mine world after)
    (fewer : more ≤ hits) (less : yours → mine) :
    Carried link target copy more yours world after := by
  obtain ⟨added, queue, copies, filled⟩ := carried.queue
  refine ⟨carried.indexes, carried.channels, ?_, added, queue, copies,
    fun need => filled (less need)⟩
  intro tracked known
  have := carried.taken tracked known
  omega

private theorem carried_emptied {channel : Nat} (other : channel ≠ link.tx.channel) :
    Carried link target copy 0 False world (emptied world channel) := by
  refine ⟨rfl, ?_, fun _ _ => le_rfl, [], ?_, by simp, False.elim⟩
  · intro index
    by_cases same : index = channel
    · simp [emptied, same]
    · simp [emptied, same]
  · simp [emptied, other.symm]

/-- One offer is taken where there is room. -/
theorem run_offer {tx : Sender} {subId : SubId} {rest : List (Sender × SubId)}
    {sofar : PublishOutcome}
    (current : world.publishes[id]? = some ⟨copy, .sending ((tx, subId) :: rest) sofar⟩) :
    ∃ next outcome, (surroundings link envelope.payload).step world (.offer id) next ∧
      next.publishes = world.publishes.set id ⟨copy, .sending rest outcome⟩ ∧
      ∃ hits, Carried link target copy hits (tx = link.tx ∧
        (world.channels link.tx.channel).Room) world next ∧
        ((tx, subId) = target → (world.channels tx.channel).Room → hits = 1) := by
  by_cases room : (world.channels tx.channel).Room
  · have sent := Channel.trySend_of_room room (⟨subId, copy⟩ : Delivery)
    refine ⟨_, _, ⟨trivial, .accepted id copy tx subId rest sofar _ current sent⟩, rfl,
      if (tx, subId) = target then 1 else 0, ?_, fun same _ => if_pos same⟩
    refine ⟨rfl, ?_, ?_, ?_⟩
    · intro index
      by_cases same : index = tx.channel
      · simp [same]
      · simp [same]
    · intro tracked known
      simp only [World.taken, List.countP_append, List.countP_singleton, known,
        Bool.true_and, beq_iff_eq]
      exact le_rfl
    · by_cases own : tx = link.tx
      · subst own
        exact ⟨[⟨subId, copy⟩], by simp, by simp, by simp⟩
      · have apart : link.tx.channel ≠ tx.channel := fun same => own (congrArg Sender.mk same.symm)
        exact ⟨[], by simp [apart], by simp, fun mine => absurd mine.1 own⟩
  · obtain ⟨reason, failed⟩ := Channel.trySend_of_not_room room (⟨subId, copy⟩ : Delivery)
    refine ⟨_, _, ⟨trivial, .refused id copy tx subId rest sofar reason current failed⟩, rfl, 0, ?_,
      fun _ free => absurd free room⟩
    refine ⟨rfl, fun _ => ⟨rfl, rfl⟩, fun _ _ => le_rfl,
      [], by simp [World.setPublish], by simp, ?_⟩
    rintro ⟨rfl, free⟩
    exact absurd free room

/-- Two stretches of a publish: what the first leaves out of the adapter's
channel, the second finds room for. -/
theorem Carried.follow {next : World} {first : Sender × SubId} {rest : List (Sender × SubId)}
    (front : Carried link target copy hits (first.1 = link.tx ∧
      (world.channels link.tx.channel).Room) world next)
    (back : Carried link target copy more
      ((∃ other ∈ rest, other.1 = link.tx) ∧ (next.channels link.tx.channel).Room) next after) :
    Carried link target copy (hits + more)
      ((∃ other ∈ first :: rest, other.1 = link.tx) ∧ (world.channels link.tx.channel).Room)
          world after := by
  obtain ⟨added, queue, copies, filled⟩ := front.queue
  obtain ⟨added', queue', copies', filled'⟩ := back.queue
  refine { front.trans back with
    queue := ⟨added ++ added', by rw [queue', queue, List.append_assoc], ?_, ?_⟩ }
  · intro delivery member
    exact (List.mem_append.mp member).elim (copies delivery) (copies' delivery)
  · rintro ⟨⟨other, member, own⟩, room⟩ empty
    obtain ⟨nothing, nothing'⟩ := List.append_eq_nil_iff.mp empty
    rcases List.mem_cons.mp member with rfl | later
    · exact filled ⟨own, room⟩ nothing
    · obtain ⟨capacity, closed⟩ := front.channels link.tx.channel
      refine filled' ⟨⟨other, later, own⟩, ?_⟩ nothing'
      rw [Channel.Room, capacity, closed, queue, nothing, List.append_nil]
      exact room

private theorem run_turn {first : Sender × SubId} {rest : List (Sender × SubId)}
    {sofar : PublishOutcome} (apart : target.1 ≠ link.tx)
    (alive : (world.channels target.1.channel).closed = false ∧
      0 < (world.channels target.1.channel).capacity)
    (current : world.publishes[id]? = some ⟨copy, .sending (first :: rest) sofar⟩) :
    ∃ events next outcome, (surroundings link envelope.payload).Run world events next ∧
      next.publishes = world.publishes.set id ⟨copy, .sending rest outcome⟩ ∧
      Carried link target copy (if first = target then 1 else 0)
        (first.1 = link.tx ∧ (world.channels link.tx.channel).Room) world next := by
  obtain ⟨tx, subId⟩ := first
  by_cases hit : (tx, subId) = target
  · -- Its reader makes room first.
    subst hit
    have other : tx.channel ≠ link.tx.channel := fun same => apart (congrArg Sender.mk same)
    obtain ⟨events, drain⟩ := @run_drain link envelope world tx.channel other
    obtain ⟨next, outcome, offer, publishes, hits, carried, all⟩ :=
      @run_offer link envelope copy (emptied world tx.channel) (tx, subId) id tx subId
        rest sofar current
    have room : ((emptied world tx.channel).channels tx.channel).Room := by
      simpa [emptied, Channel.Room] using alive
    obtain rfl := all rfl room
    refine ⟨_, next, outcome, drain.snoc offer, publishes, ?_⟩
    exact ((carried_emptied other).trans carried).weaken (by simp) fun mine => absurd mine.1 apart
  · obtain ⟨next, outcome, offer, publishes, hits, carried, -⟩ :=
      @run_offer link envelope copy world target id tx subId rest sofar current
    exact ⟨_, next, outcome, .single offer, publishes,
      carried.weaken (by simp [hit]) fun mine => mine⟩

/-- A publish goes through its targets, and the one in view takes every offer. -/
theorem run_offers {targets : List (Sender × SubId)} {sofar : PublishOutcome}
    (apart : target.1 ≠ link.tx) (alive : (world.channels target.1.channel).closed = false ∧
      0 < (world.channels target.1.channel).capacity)
    (current : world.publishes[id]? = some ⟨copy, .sending targets sofar⟩) :
    ∃ events after outcome, (surroundings link envelope.payload).Run world events after ∧
      after.publishes = world.publishes.set id ⟨copy, .sending [] outcome⟩ ∧
      Carried link target copy (targets.count target)
        ((∃ other ∈ targets, other.1 = link.tx) ∧ (world.channels link.tx.channel).Room)
            world after := by
  obtain ⟨inside, here⟩ := List.getElem?_eq_some_iff.mp current
  induction targets generalizing world sofar with
  | nil =>
    refine ⟨[], world, sofar, .nil world, ?_, Carried.refl.weaken (by simp) (by simp)⟩
    rw [← here, List.set_getElem_self]
  | cons first rest ih =>
    obtain ⟨events, next, outcome, turn, publishes, front⟩ :=
      @run_turn link envelope copy world target id first rest sofar apart alive current
    obtain ⟨capacity, closed⟩ := front.channels target.1.channel
    have moved : next.publishes[id]? = some ⟨copy, .sending rest outcome⟩ := by
      rw [publishes, List.getElem?_set_self inside]
    obtain ⟨inside', here'⟩ := List.getElem?_eq_some_iff.mp moved
    obtain ⟨more, after, outcome', run, publishes', back⟩ :=
      ih (by rw [capacity, closed]; exact alive) moved inside' here'
    refine ⟨events ++ more, after, outcome', turn.append run, ?_, ?_⟩
    · rw [publishes', publishes, List.set_set]
    · refine (front.follow back).weaken ?_ fun mine => mine
      rw [List.count_cons]
      simp only [beq_iff_eq]
      omega

private theorem Carried.of_count (indexes : after.engine.state = world.engine.state)
    (channels : after.channels = world.channels) (enqueued : after.enqueued = world.enqueued) :
    Carried link target copy 0 False world after := by
  refine ⟨indexes, by simp [channels], ?_, [], by simp [channels], by simp, False.elim⟩
  intro tracked _
  rw [World.taken, World.taken, enqueued]
  exact le_rfl

private theorem run_count {outcome : PublishOutcome}
    (current : world.publishes[id]? = some ⟨copy, .sending [] outcome⟩) :
    ∃ after, (surroundings link envelope.payload).Run world
      [.countDelivered id, .countDropped id] after ∧
      after.publishes = world.publishes.set id ⟨copy, .done outcome⟩ ∧
      Carried link target copy 0 False world after := by
  obtain ⟨inside, -⟩ := List.getElem?_eq_some_iff.mp current
  let counted := world.setPublish id ⟨copy, .counting outcome⟩
  have counting : counted.publishes[id]? = some ⟨copy, .counting outcome⟩ :=
    List.getElem?_set_self inside
  refine ⟨_, .cons ⟨trivial, .countDelivered id copy outcome current⟩
    (.single ⟨trivial, .countDropped id copy outcome counting⟩), ?_, .of_count rfl rfl rfl⟩
  exact List.set_set ..

theorem run_publish (routed : Routed world.engine.state) (apart : target.1 ≠ link.tx)
    (alive : (world.channels target.1.channel).closed = false ∧
      0 < (world.channels target.1.channel).capacity)
    (current : world.publishes[id]? = some ⟨copy, .counted⟩) :
    ∃ events after outcome, (surroundings link envelope.payload).Run world events after ∧
      after.publishes = world.publishes.set id ⟨copy, .done outcome⟩ ∧
      Carried link target copy
        ((world.engine.state.plainScan copy.route).countP fun other => (other == target) = true)
        (0 < ((world.engine.state.plainScan copy.route).countP fun other =>
          (other.1 == link.tx) = true) ∧ (world.channels link.tx.channel).Room) world after := by
  have scan := routed.collectTargets_eq .unspecified copy.route
  generalize same : world.engine.state.collectTargets .unspecified copy.route = targets at scan
  obtain ⟨inside, -⟩ := List.getElem?_eq_some_iff.mp current
  let reading := world.setPublish id ⟨copy, .fanOut targets⟩
  have read : (surroundings link envelope.payload).step world (.snapshot id .unspecified)
      reading := by
    refine ⟨trivial, ?_⟩
    simp only [reading, ← same]
    exact .snapshot id .unspecified copy current
  have started : reading.publishes[id]? = some ⟨copy, .fanOut targets⟩ :=
    List.getElem?_set_self inside
  obtain ⟨inside', -⟩ := List.getElem?_eq_some_iff.mp started
  obtain ⟨events, offered, outcome, offers, publishes, carried⟩ :=
    @run_offers link envelope copy reading target id targets _ apart alive started
  obtain ⟨after, counts, publishes', counted⟩ :=
    @run_count link envelope copy offered target id outcome
      (by rw [publishes, List.getElem?_set_self inside'])
  refine ⟨_, after, outcome, .cons read (offers.append counts), ?_, ?_⟩
  · rw [publishes', publishes, List.set_set]
    exact List.set_set ..
  · have front : Carried link target copy 0 False world reading := .of_count rfl rfl rfl
    refine (front.trans (carried.trans counted)).weaken ?_ ?_
    · rw [← scan, Multiset.coe_countP]
      simp only [List.count, Bool.decide_eq_true]
      omega
    · rintro ⟨own, room⟩
      rw [← scan, Multiset.countP_pos] at own
      obtain ⟨other, member, own⟩ := own
      exact .inr (.inl ⟨⟨other, member, by simpa using own⟩, room⟩)

end Publish

/-- What the engine does by itself it does inside the bridge. -/
theorem run_engine {link : Link} {envelope : Envelope} {world after : World} (bridge : Bridge)
    (run : (surroundings link envelope.payload).Run world events after) :
    (bridgeSystem link envelope).Run { bridge with world } (events.map .engine)
    { bridge with world := after } := by
  induction run with
  | nil world => exact .nil _
  | cons step _ ih => exact .cons (.engine _ _ step.1 step.2) ih

section Return
variable {link : Link} {envelope : Envelope} {bridge : Bridge} {key : SubscriberKey}
  {sub : Subscription}

/-- Where a bridge stands between two messages: the indexes are those of the
start, and the subscription in view has its receiver. -/
structure Standing (state : State) (sub : Subscription) (bridge : Bridge) : Prop where
  idle : bridge.Idle
  indexes : bridge.world.engine.state = state
  alive : (bridge.world.channels sub.tx.channel).closed = false ∧
    0 < (bridge.world.channels sub.tx.channel).capacity

/-- A message that comes back reaches every subscription that takes its route. -/
theorem run_return {state : State} (standing : Standing state sub bridge) (routed : Routed state)
    (plain : link.adapter.config.unwrapMaPayloads = false) (apart : sub.tx ≠ link.tx)
    {dest : String} {mid : Nat} {own : Sub} {rest : List Frame}
    (waiting : bridge.toAdapter = BrokerState.messageFor (sent link.adapter envelope) dest
      mid own :: rest) :
    ∃ events after, (bridgeSystem link envelope).Run bridge events after ∧
      Standing state sub after ∧ after.toAdapter = rest ∧
      received envelope key sub bridge +
          ((state.plainScan (returnRoute link.crates link.adapter envelope)).countP
            fun other => (other == (sub.tx, key.subId)) = true) ≤
        received envelope key sub after := by
  obtain ⟨returned, handled, payload, route, -⟩ :=
    @handleFrame_return link.crates link.adapter plain (⟨"1"⟩, ⟨"2"⟩) envelope dest mid own
  obtain ⟨began, begins, indexes, channels, enqueued, publishes⟩ :
      ∃ began, Step bridge.world (.begin returned) began ∧
        began.engine.state = bridge.world.engine.state ∧ began.channels = bridge.world.channels ∧
        began.enqueued = bridge.world.enqueued ∧
        began.publishes = bridge.world.publishes ++ [⟨returned, .counted⟩] :=
    ⟨_, .begin returned, rfl, rfl, rfl, rfl⟩
  have current : began.publishes[bridge.world.publishes.length]? = some ⟨returned, .counted⟩ := by
    rw [publishes, List.getElem?_concat_length]
  obtain ⟨inside, -⟩ := List.getElem?_eq_some_iff.mp current
  have same := indexes.trans standing.indexes
  obtain ⟨events, done, outcome, run, ended, carried⟩ :=
    @run_publish link envelope returned began (sub.tx, key.subId) _ (same ▸ routed) apart
      (by rw [channels]; exact standing.alive) current
  let publishing : Bridge :=
    { bridge with
      world := done
      toAdapter := rest
      pending := []
      publishing := some bridge.world.publishes.length }
  have finished : publishing.world.publishes[bridge.world.publishes.length]? =
      some ⟨returned, .done outcome⟩ := by
    rw [ended, List.getElem?_set_self inside]
  refine ⟨_, { publishing with publishing := none },
    .cons (.read (⟨"1"⟩, ⟨"2"⟩) _ rest [returned] standing.idle waiting handled)
      (.cons (.publish returned [] began rfl standing.idle.2 begins)
        ((run_engine publishing run).snoc (.resume _ returned outcome rfl finished))), ?_, rfl, ?_⟩
  · obtain ⟨capacity, closed⟩ := carried.channels sub.tx.channel
    refine ⟨⟨rfl, rfl⟩, carried.indexes.trans same, ?_⟩
    rw [capacity, closed, channels]
    exact standing.alive
  · have more := carried.taken (carries envelope) (by simp [carries, payload])
    rw [same, route, World.taken, enqueued] at more
    exact more

/-- The envelope reaches its subscribers, and the broker answers the adapter's
`SEND` with a `MESSAGE` for each of its subscriptions. -/
theorem run_out (started : Started link envelope bridge)
    (quiet : link.adapter.config.suppressEcho = true)
    (found : bridge.world.engine.state.byKey.lookup key = some sub)
    (other : key.adapterId ≠ link.adapter.id) :
    ∃ events after mid, (bridgeSystem link envelope).Run bridge events after ∧
      Standing bridge.world.engine.state sub after ∧
      after.toAdapter =
        (ownSubs link bridge.broker (link.adapter.map.toStomp envelope.route.topic)).map
        (BrokerState.messageFor (sent link.adapter envelope)
          (link.adapter.map.toStomp envelope.route.topic) mid) ∧
      takes sub envelope.route ≤ received envelope key sub after := by
  have alive := started.receivers key sub found
  have current : bridge.world.publishes[0]? =
    some ⟨envelope, .counted⟩ := by rw [started.published]; rfl
  obtain ⟨events, done, outcome, run, -, carried⟩ :=
    @run_publish link envelope envelope bridge.world (sub.tx, key.subId) 0 started.indexed.routed
      (started.session.other_channel found other) alive current
  obtain ⟨added, queue, copies, filled⟩ := carried.queue
  have listed : 0 < link.adapter.config.topics.count envelope.route.topic :=
    List.count_pos_iff.mpr started.bridged
  have room : (bridge.world.channels link.tx.channel).Room := by
    rw [started.channel]
    exact ⟨rfl, by decide⟩
  rw [started.session.own_targets] at filled
  obtain ⟨delivery, more, rfl⟩ := List.exists_cons_of_ne_nil (filled ⟨listed, room⟩)
  rw [started.channel, List.nil_append] at queue
  have same := copies delivery (by simp)
  have forwarded : forwardOutbound link.adapter delivery.envelope =
    some (sent link.adapter envelope) :=
    (forwardOutbound_eq_some quiet).mpr ⟨by rw [same, started.foreign], by rw [same]⟩
  let sending : Bridge :=
    { bridge with
      world := drained done link.tx.channel
      toBroker := [sent link.adapter envelope] }
  have forward : BridgeStep link envelope.payload
      { bridge with world := done } .forward sending := by
    have step : BridgeStep link envelope.payload { bridge with world := done } .forward _ :=
      .forward delivery more started.idle queue
    simpa [sending, forwarded, started.toBroker] using step
  have answered : bridge.broker.dispatch link.connId (sent link.adapter envelope) = some _ :=
    dispatch_send rfl _
  refine ⟨_, _, bridge.broker.nextMsg, ((run_engine bridge run).snoc forward).snoc
    (.dispatch (sent link.adapter envelope) [] _ _ rfl answered), ?_, ?_, ?_⟩
  · obtain ⟨capacity, closed⟩ := carried.channels sub.tx.channel
    refine ⟨started.idle, carried.indexes, ?_⟩
    have apart : sub.tx.channel ≠ link.tx.channel :=
      fun same => started.session.other_channel found other (congrArg Sender.mk same)
    have untouched : (drained done link.tx.channel).channels sub.tx.channel =
      done.channels sub.tx.channel :=
      Function.update_of_ne apart _ _
    simp only [sending]
    rw [untouched, capacity, closed]
    exact alive
  · simp only [sending, started.toAdapter, List.nil_append, writtenTo_send]
  · have more := carried.taken (carries envelope) (by simp [carries])
    rw [started.count found] at more
    simp only [received, sending, takes]
    have same : (drained done link.tx.channel).taken = done.taken := rfl
    rw [same]
    omega

end Return

end OaGateway.Stomp
