import OaGateway.Core.Tally
import OaGateway.Stomp.Bridge

/-! How often a message crosses the engine once it has been sent to the broker:
the broker returns it to the adapter, which publishes it again. -/
namespace OaGateway.Stomp

open Lib OaGateway.Core

section Broker
variable {link : Link} {broker after : BrokerState} {frame : Frame}

def ownSubs (link : Link) (broker : BrokerState) (dest : String) : List Sub :=
  (broker.targets dest).filter fun sub => sub.connId == link.connId

theorem dispatch_send (send : frame.command = "SEND") (connId : Nat) :
    broker.dispatch connId frame = (frame.header "destination").map fun dest =>
      ({ broker with nextMsg := broker.nextMsg + 1 },
        (broker.targets dest).map fun sub =>
          (sub.connId, BrokerState.messageFor frame dest broker.nextMsg sub)) := by
  simp [BrokerState.dispatch, send]

theorem writtenTo_send (dest : String) (mid : Nat) :
    writtenTo link.connId ((broker.targets dest).map fun sub =>
        (sub.connId, BrokerState.messageFor frame dest mid sub)) =
      (ownSubs link broker dest).map (BrokerState.messageFor frame dest mid) := by
  rw [writtenTo, ownSubs, List.filter_map, List.map_map]
  rfl

theorem dispatch_own {written : List (Nat × Frame)} (send : frame.command = "SEND")
    (handled : broker.dispatch link.connId frame = some (after, written)) :
    ∃ dest mid, frame.header "destination" = some dest ∧ after.subs = broker.subs ∧
      writtenTo link.connId written =
        (ownSubs link broker dest).map (BrokerState.messageFor frame dest mid) := by
  rw [dispatch_send send] at handled
  simp only [Option.map_eq_some_iff, Prod.mk.injEq] at handled
  obtain ⟨dest, found, rfl, rfl⟩ := handled
  exact ⟨dest, broker.nextMsg, found, rfl, writtenTo_send dest broker.nextMsg⟩

theorem ownSubs_eq (link : Link) (broker : BrokerState) (dest : String) :
    ownSubs link broker dest =
      (broker.subs.filter fun entry => entry.1 == dest && entry.2.connId == link.connId).map
          Prod.snd := by
  rw [ownSubs, BrokerState.targets, List.filter_map, List.filter_filter]
  simp only [Function.comp_def, Bool.and_comm]

/-- Another connection changes nothing about the adapter's subscriptions, and
only its `SEND`s reach the adapter. -/
theorem dispatch_peer {written : List (Nat × Frame)} (other : connId ≠ link.connId)
    (handled : broker.dispatch connId frame = some (after, written)) :
    (∀ dest, ownSubs link after dest = ownSubs link broker dest) ∧
      ∀ message ∈ writtenTo link.connId written, message.body = frame.body := by
  have elsewhere (reply message : Frame)
    (member : message ∈ writtenTo link.connId [(connId, reply)]) :
      message.body = frame.body := by
    simp [writtenTo, other] at member
  rw [BrokerState.dispatch] at handled
  split at handled
  · cases handled
    exact ⟨fun _ => rfl, elsewhere _⟩
  · split at handled
    · simp only [Option.map_eq_some_iff, Prod.mk.injEq] at handled
      obtain ⟨dest, -, rfl, rfl⟩ := handled
      refine ⟨fun dest => ?_, by simp [writtenTo]⟩
      simp [ownSubs_eq, other]
    · split at handled
      · simp only [Option.map_eq_some_iff, Prod.mk.injEq] at handled
        obtain ⟨id, -, rfl, rfl⟩ := handled
        refine ⟨fun dest => ?_, by simp [writtenTo]⟩
        rw [ownSubs_eq, ownSubs_eq, List.filter_filter]
        congr 1
        refine List.filter_congr fun entry _ => ?_
        by_cases own : entry.2.connId = link.connId
        · have kept : entry.2 ≠ ⟨connId, id⟩ := fun same => other (by rw [← own, same])
          simp [kept]
        · simp [own]
      · split at handled
        · simp only [Option.map_eq_some_iff, Prod.mk.injEq] at handled
          obtain ⟨dest, -, rfl, rfl⟩ := handled
          refine ⟨fun _ => rfl, ?_⟩
          rw [writtenTo_send]
          simp [BrokerState.messageFor]
        · split at handled
          · cases handled
            exact ⟨fun _ => rfl, elsewhere _⟩
          · cases handled
            exact ⟨fun _ => rfl, elsewhere _⟩

end Broker

/-- A copy of the envelope as the adapter publishes it when it comes back. -/
def Returned (link : Link) (envelope copy : Envelope) : Prop :=
  copy.isEchoOf link.adapter.id = true ∧ copy.route = returnRoute link.crates link.adapter envelope

/-- Where copies of the envelope can be, and what they look like there. The
indexes and the adapter's own subscriptions stay as they are. -/
structure Course (link : Link) (envelope : Envelope) (state : State) (subs : String → List Sub)
    (bridge : Bridge) : Prop where
  indexes : bridge.world.engine.state = state
  subscribed : ∀ dest, ownSubs link bridge.broker dest = subs dest
  published : ∀ copy ∈ bridge.world.envelopes, copy.payload = envelope.payload →
    copy = envelope ∨ Returned link envelope copy
  queued : ∀ delivery ∈ (bridge.world.channels link.tx.channel).queue,
    delivery.envelope.payload = envelope.payload →
      delivery.envelope = envelope ∨ Returned link envelope delivery.envelope
  sends : ∀ frame ∈ bridge.toBroker, frame.command = "SEND" ∧
    (frame.body = envelope.payload → frame = sent link.adapter envelope)
  returning : ∀ frame ∈ bridge.toAdapter, frame.body = envelope.payload →
    ∃ dest mid sub, frame = BrokerState.messageFor (sent link.adapter envelope) dest mid sub
  pending : ∀ copy ∈ bridge.pending, copy.payload = envelope.payload → Returned link envelope copy

section Course
variable {link : Link} {envelope : Envelope} {state : State} {subs : String → List Sub}
  {bridge after : Bridge} {event : BridgeEvent}

theorem forwardOutbound_eq_some {delivered : Envelope} {frame : Frame}
    (quiet : link.adapter.config.suppressEcho = true) :
    forwardOutbound link.adapter delivered = some frame ↔
      delivered.isEchoOf link.adapter.id = false ∧ frame = sent link.adapter delivered := by
  rw [forwardOutbound, quiet, Bool.true_and]
  cases delivered.isEchoOf link.adapter.id with
  | true => simp
  | false => simp [sent, eq_comm]

/-- With unwrapping off, what a frame publishes carries the frame's body. -/
theorem payload_of_handleFrame (plain : link.adapter.config.unwrapMaPayloads = false)
    {ids : MessageId × MessageId} {frame : Frame} {envelopes : List Envelope}
    (handled : handleFrame link.crates link.adapter ids frame = .ok envelopes) :
    ∀ copy ∈ envelopes, copy.payload = frame.body := by
  rw [handleFrame] at handled
  split at handled
  · simp only [inboundPublish, plain, Bool.false_and] at handled
    split at handled
    · cases handled
    · split at handled
      · cases handled
      · cases handled
        simp [(stampInbound_spec _ _ _).1, Envelope.new, Envelope.withContentType]
  · split at handled
    · cases handled
    · cases handled
      simp

private theorem mem_queue_of_effect {world after : World} {engineEvent : Event} {channel : Nat}
    (effect : StepEffect world after engineEvent) {delivery : Delivery}
    (member : delivery ∈ (after.channels channel).queue) :
    delivery ∈ (world.channels channel).queue ∨ delivery.envelope ∈ world.envelopes := by
  cases effect with
  | begun publishes channels enqueued =>
    rw [channels] at member
    exact .inl member
  | @accepted subId carried tx id changed sent channels enqueued envelopes inside ahead =>
    rw [channels] at member
    by_cases here : channel = tx.channel
    · rw [here, Function.update_self, Channel.queue_trySend sent] at member
      rcases List.mem_append.mp member with old | new
      · exact .inl (by rwa [here])
      · obtain rfl : delivery = ⟨subId, carried⟩ := List.mem_singleton.mp new
        exact .inr inside
    · rw [Function.update_of_ne here] at member
      exact .inl member
  | quiet channels untouched enqueued envelopes ahead =>
    exact .inl ((channels channel).subset member)

private theorem mem_envelopes_of_effect {world after : World} {engineEvent : Event}
    (effect : StepEffect world after engineEvent) {copy : Envelope}
    (member : copy ∈ after.envelopes) :
    copy ∈ world.envelopes ∨ engineEvent = .begin copy := by
  cases effect with
  | begun publishes channels enqueued =>
    rw [World.envelopes, publishes, List.map_append] at member
    rcases List.mem_append.mp member with old | new
    · exact .inl old
    · obtain rfl := List.mem_singleton.mp new
      exact .inr rfl
  | accepted channel sent channels enqueued envelopes inside ahead =>
    rw [envelopes] at member
    exact .inl member
  | quiet channels untouched enqueued envelopes ahead =>
    rw [envelopes] at member
    exact .inl member

/-- A step of the engine keeps the course if what it begins to publish does. -/
theorem Course.engine (course : Course link envelope state subs bridge) (routed : Routed state)
    {engineEvent : Event} {world : World} (step : Step bridge.world engineEvent world)
    (still : ∀ call, engineEvent ≠ .call call)
    (begun : ∀ copy, engineEvent = .begin copy → copy.payload = envelope.payload →
      Returned link envelope copy) :
    Course link envelope state subs { bridge with world } := by
  obtain ⟨indexes, subscribed, published, queued, sends, returning, pending⟩ := course
  subst indexes
  obtain ⟨same, effect⟩ := step.effect routed still
  refine ⟨same, subscribed, ?_, ?_, sends, returning, pending⟩
  · intro copy member carries
    rcases mem_envelopes_of_effect effect member with old | new
    · exact published copy old carries
    · exact .inr (begun copy new carries)
  · intro delivery member carries
    rcases mem_queue_of_effect effect member with old | new
    · exact queued delivery old carries
    · exact published delivery.envelope new carries

theorem Course.read_returned (course : Course link envelope state subs bridge)
    (plain : link.adapter.config.unwrapMaPayloads = false) {ids : MessageId × MessageId}
    {frame : Frame} {rest : List Frame} {envelopes : List Envelope}
    (waiting : bridge.toAdapter = frame :: rest)
    (handled : handleFrame link.crates link.adapter ids frame = .ok envelopes)
    (carries : frame.body = envelope.payload) :
    ∃ returned, envelopes = [returned] ∧ Returned link envelope returned := by
  obtain ⟨dest, mid, sub, rfl⟩ := course.returning frame (by simp [waiting]) carries
  obtain ⟨returned, published, -, route, echo⟩ :=
    @handleFrame_return link.crates link.adapter plain ids envelope dest mid sub
  exact ⟨returned, Except.ok.inj (handled.symm.trans published), echo, route⟩

/-- Every step keeps the course of the envelope. -/
theorem Course.step (course : Course link envelope state subs bridge) (routed : Routed state)
    (quiet : link.adapter.config.suppressEcho = true)
    (plain : link.adapter.config.unwrapMaPayloads = false)
    (step : BridgeStep link envelope.payload bridge event after) :
    Course link envelope state subs after := by
  cases step with
  | engine engineEvent world around step =>
    refine course.engine routed step ?_ ?_
    · rintro call rfl
      exact around
    · rintro copy rfl carries
      exact absurd carries around
  | forward delivery rest idle queued =>
    obtain ⟨indexes, subscribed, published, waiting, sends, returning, pending⟩ := course
    refine ⟨indexes, subscribed, published, ?_, ?_, returning, pending⟩
    · intro other member
      rw [channels_drained] at member
      exact waiting other (List.mem_of_mem_tail member)
    · intro frame member
      rcases List.mem_append.mp member with old | new
      · exact sends frame old
      · obtain ⟨fresh, rfl⟩ := (forwardOutbound_eq_some quiet).mp (Option.mem_toList.mp new)
        refine ⟨rfl, fun carries => ?_⟩
        rcases waiting delivery (by simp [queued]) carries with same | returned
        · rw [same]
        · rw [returned.1] at fresh
          cases fresh
  | dispatch frame rest broker written wrote handled =>
    obtain ⟨indexes, subscribed, published, queued, sends, returning, pending⟩ := course
    obtain ⟨send, carried⟩ := sends frame (by simp [wrote])
    obtain ⟨dest, mid, -, same, answered⟩ := dispatch_own send handled
    refine ⟨indexes, ?_, published, queued, ?_, ?_, pending⟩
    · intro dest
      rw [← subscribed dest, ownSubs_eq, ownSubs_eq, same]
    · intro other member
      exact sends other (by simp [wrote, member])
    · intro message member carries
      rcases List.mem_append.mp member with old | new
      · exact returning message old carries
      · rw [answered] at new
        obtain ⟨sub, -, rfl⟩ := List.mem_map.mp new
        exact ⟨dest, mid, sub, by rw [carried carries]⟩
  | peer connId frame broker written other unrelated handled =>
    obtain ⟨own, bodies⟩ := dispatch_peer other handled
    obtain ⟨indexes, subscribed, published, queued, sends, returning, pending⟩ := course
    refine ⟨indexes, fun dest => (own dest).trans (subscribed dest), published, queued,
      sends, ?_, pending⟩
    intro message member carries
    rcases List.mem_append.mp member with old | new
    · exact returning message old carries
    · exact absurd ((bodies message new).symm.trans carries) unrelated
  | read ids frame rest envelopes idle waiting handled =>
    refine { course with returning := ?_, pending := ?_ }
    · intro message member
      exact course.returning message (by simp [waiting, member])
    · intro copy member carries
      have body := (payload_of_handleFrame plain handled copy member).symm.trans carries
      obtain ⟨returned, rfl, found⟩ := course.read_returned plain waiting handled body
      rwa [List.mem_singleton.mp member]
  | skip ids frame rest error idle waiting failed =>
    obtain ⟨indexes, subscribed, published, queued, sends, returning, pending⟩ := course
    refine ⟨indexes, subscribed, published, queued, sends, ?_, pending⟩
    intro message member
    exact returning message (by simp [waiting, member])
  | publish copy rest world next free step =>
    have moved := course.engine routed step (by simp) (by
      rintro _ ⟨⟩ carries
      exact course.pending copy (by simp [next]) carries)
    refine { moved with pending := ?_ }
    intro other member
    exact course.pending other (by simp [next, member])
  | resume id copy outcome busy done => exact { course with }

end Course

section Credit
variable (link : Link) (envelope : Envelope)

def carries (copy : Envelope) : Bool := copy.payload == envelope.payload

/-- A copy the adapter would send to the broker. -/
def fresh (copy : Envelope) : Bool := carries envelope copy && !copy.isEchoOf link.adapter.id

def Frame.carries (frame : Frame) : Bool := frame.body == envelope.payload

/-- How many more publishes the adapter may make of the envelope: each copy it
sends comes back `returns` times. -/
def credit (returns : Nat) (bridge : Bridge) : Nat :=
  bridge.pending.countP (carries envelope) + bridge.toAdapter.countP (Frame.carries envelope) +
    returns * (bridge.toBroker.countP (Frame.carries envelope) +
      (bridge.world.queued (fresh link envelope) link.tx.channel +
        bridge.world.ahead (fresh link envelope) fun target => target.1 == link.tx))

/-- What a target has got of the envelope, and what publishes under way owe it. -/
def due (target : Sender × SubId) (bridge : Bridge) : Nat :=
  bridge.world.taken (carries envelope) (· == target) +
    bridge.world.ahead (carries envelope) (· == target)

end Credit

section Credit
variable {link : Link} {envelope : Envelope} {state : State} {subs : String → List Sub}
  {bridge after : Bridge} {event : BridgeEvent} {target : Sender × SubId}

theorem credit_engine (returns : Nat) (routed : Routed bridge.world.engine.state)
    {engineEvent : Event} {world : World} (step : Step bridge.world engineEvent world)
    (still : ∀ call, engineEvent ≠ .call call) :
    due envelope target { bridge with world } ≤ due envelope target bridge +
        brought bridge.world.engine.state (carries envelope) (· == target) engineEvent ∧
      credit link envelope returns { bridge with world } ≤ credit link envelope returns bridge +
        returns * brought bridge.world.engine.state (fresh link envelope)
          (fun target => target.1 == link.tx)
          engineEvent := by
  obtain ⟨same, effect⟩ := step.effect routed still
  constructor
  · exact effect.taken_le same _ _
  · have filled := effect.queued_le same (fresh link envelope) link.tx
    have scaled := Nat.mul_le_mul_left returns (Nat.add_le_add_left filled
      (bridge.toBroker.countP (Frame.carries envelope)))
    simp only [Nat.mul_add] at scaled
    simp only [credit, Nat.mul_add]
    omega

/-- Taking a delivery for the broker moves a copy along. -/
theorem credit_forward (returns : Nat) (quiet : link.adapter.config.suppressEcho = true)
    {delivery : Delivery} {rest : List Delivery}
    (queued : (bridge.world.channels link.tx.channel).queue = delivery :: rest) :
    credit link envelope returns
        { bridge with
          world := drained bridge.world link.tx.channel
          toBroker := bridge.toBroker ++ (forwardOutbound link.adapter delivery.envelope).toList } ≤
      credit link envelope returns bridge := by
  have left : (drained bridge.world link.tx.channel).queued (fresh link envelope) link.tx.channel =
      rest.countP fun delivery => fresh link envelope delivery.envelope := by
    rw [World.queued, channels_drained, Channel.receive, queued, List.tail_cons]
  have sends : (forwardOutbound link.adapter delivery.envelope).toList.countP
    (Frame.carries envelope) ≤
      if fresh link envelope delivery.envelope then 1 else 0 := by
    cases forwarded : forwardOutbound link.adapter delivery.envelope with
    | none => simp
    | some frame =>
      obtain ⟨noEcho, rfl⟩ := (forwardOutbound_eq_some quiet).mp forwarded
      simp [fresh, noEcho, Frame.carries, carries, sent, sendFrame]
  have moved : (bridge.toBroker ++ (forwardOutbound link.adapter delivery.envelope).toList).countP
        (Frame.carries envelope) +
        (drained bridge.world link.tx.channel).queued (fresh link envelope) link.tx.channel ≤
      bridge.toBroker.countP (Frame.carries envelope) +
        bridge.world.queued (fresh link envelope) link.tx.channel := by
    rw [left, List.countP_append, World.queued, queued, List.countP_cons]
    omega
  have scaled := Nat.mul_le_mul_left returns moved
  have same : (drained bridge.world link.tx.channel).ahead = bridge.world.ahead := rfl
  simp only [Nat.mul_add] at scaled
  simp only [credit, Nat.mul_add, same]
  omega

/-- The broker turns a `SEND` into one frame for each of the adapter's
subscriptions on its destination. -/
theorem credit_dispatch (course : Course link envelope state subs bridge) {frame : Frame}
    {rest : List Frame} {broker : BrokerState} {written : List (Nat × Frame)}
    (wrote : bridge.toBroker = frame :: rest)
    (handled : bridge.broker.dispatch link.connId frame = some (broker, written)) :
    credit link envelope (subs (link.adapter.map.toStomp envelope.route.topic)).length
        { bridge with
          broker
          toBroker := rest
          toAdapter := bridge.toAdapter ++ writtenTo link.connId written } ≤
      credit link envelope (subs (link.adapter.map.toStomp envelope.route.topic)).length
          bridge := by
  obtain ⟨send, carried⟩ := course.sends frame (by simp [wrote])
  obtain ⟨dest, mid, found, -, answered⟩ := dispatch_own send handled
  have same (sub : Sub) : (BrokerState.messageFor frame dest mid sub).carries envelope =
    frame.carries envelope :=
    rfl
  have answers : (writtenTo link.connId written).countP (Frame.carries envelope) =
      if frame.carries envelope then (subs (link.adapter.map.toStomp envelope.route.topic)).length
          else 0 := by
    rw [answered, List.countP_map]
    cases known : frame.carries envelope with
    | false =>
      refine List.countP_eq_zero.mpr fun sub _ => ?_
      simp [same, known]
    | true =>
      have whole := carried (by simpa [Frame.carries] using known)
      obtain rfl : link.adapter.map.toStomp envelope.route.topic = dest := by
        rw [whole] at found
        exact Option.some.inj found
      rw [if_pos rfl, ← course.subscribed]
      refine List.countP_eq_length.mpr fun sub _ => ?_
      simp [same, known]
  simp only [credit, wrote, List.countP_append, answers, List.countP_cons, Nat.mul_add]
  split
  · rw [Nat.mul_one]
    omega
  · omega

theorem owed_engine (again returns : Nat) (routed : Routed bridge.world.engine.state)
    {engineEvent : Event} {world : World} (step : Step bridge.world engineEvent world)
    (around : Surrounding link envelope.payload engineEvent) :
    due envelope target { bridge with world } + again *
      credit link envelope returns { bridge with world } ≤
      due envelope target bridge + again * credit link envelope returns bridge := by
  have still : ∀ call, engineEvent ≠ .call call := by
    rintro call rfl
    exact around
  have nothing (tracked : Envelope → Bool) (pick : Sender × SubId → Bool)
      (within : ∀ copy, tracked copy = true → carries envelope copy = true) :
      brought bridge.world.engine.state tracked pick engineEvent = 0 := by
    cases engineEvent with
    | begin copy =>
      have other : ¬ tracked copy = true := by
        intro found
        exact around (by simpa [carries] using within copy found)
      rw [brought, if_neg other]
    | _ => rfl
  obtain ⟨dues, credits⟩ := @credit_engine link envelope bridge target returns routed engineEvent
    world step still
  rw [nothing _ _ fun _ found => found] at dues
  rw [nothing _ _ (by simp +contextual [fresh]), Nat.mul_zero, Nat.add_zero] at credits
  have scaled := Nat.mul_le_mul_left again credits
  omega

/-- No step makes more of what is due and what can still come back. -/
theorem owed_step (course : Course link envelope state subs bridge) (routed : Routed state)
    (quiet : link.adapter.config.suppressEcho = true)
    (plain : link.adapter.config.unwrapMaPayloads = false)
    (step : BridgeStep link envelope.payload bridge event after) :
    let returns := (subs (link.adapter.map.toStomp envelope.route.topic)).length
    let again := (state.plainScan (returnRoute link.crates link.adapter envelope)).countP
      fun other => (other == target) = true
    due envelope target after + again * credit link envelope returns after ≤
      due envelope target bridge + again * credit link envelope returns bridge := by
  intro returns again
  cases step with
  | engine engineEvent world around step =>
    exact owed_engine again returns (course.indexes ▸ routed) step around
  | forward delivery rest idle queued =>
    have moved := Nat.mul_le_mul_left again
      (@credit_forward link envelope bridge returns quiet delivery rest queued)
    exact Nat.add_le_add_left moved _
  | dispatch frame rest broker written wrote handled =>
    exact Nat.add_le_add_left (Nat.mul_le_mul_left again (credit_dispatch course wrote handled)) _
  | peer connId frame broker written other unrelated handled =>
    obtain ⟨-, bodies⟩ := dispatch_peer other handled
    have none : (writtenTo link.connId written).countP (Frame.carries envelope) = 0 := by
      refine List.countP_eq_zero.mpr fun message member => ?_
      simpa [Frame.carries, bodies message member] using unrelated
    refine Nat.add_le_add_left (Nat.mul_le_mul_left again ?_) _
    simp only [credit, List.countP_append, none]
    omega
  | read ids frame rest envelopes idle waiting handled =>
    refine Nat.add_le_add_left (Nat.mul_le_mul_left again ?_) _
    have one : envelopes.countP (carries envelope) ≤ if frame.carries envelope then 1 else 0 := by
      split
      · rename_i known
        obtain ⟨returned, rfl, -⟩ :=
          course.read_returned plain waiting handled (by simpa [Frame.carries] using known)
        exact List.countP_le_length
      · rename_i unrelated
        refine le_of_eq (List.countP_eq_zero.mpr fun copy member => ?_)
        rwa [carries, payload_of_handleFrame plain handled copy member]
    simp only [credit, waiting, idle.1, List.countP_nil, List.countP_cons]
    omega
  | skip ids frame rest error idle waiting failed =>
    refine Nat.add_le_add_left (Nat.mul_le_mul_left again ?_) _
    simp only [credit, waiting, List.countP_cons]
    omega
  | publish copy rest world next free step =>
    have spent : credit link envelope returns
          { bridge with world, pending := rest, publishing := some bridge.world.publishes.length } +
          (if carries envelope copy then 1 else 0) =
        credit link envelope returns { bridge with world } := by
      simp only [credit, next, List.countP_cons]
      omega
    have same : due envelope target
        { bridge with world, pending := rest, publishing := some bridge.world.publishes.length } =
          due envelope target { bridge with world } := rfl
    by_cases known : carries envelope copy = true
    · -- A copy that came back costs what it brings, and is not sent again.
      obtain ⟨dues, credits⟩ := @credit_engine link envelope bridge target returns
        (course.indexes ▸ routed) (.begin copy) world step (by simp)
      obtain ⟨echo, route⟩ := course.pending copy (by simp [next]) (by simpa [carries] using known)
      have stale : ¬ fresh link envelope copy = true := by simp [fresh, echo]
      rw [brought, if_pos known, course.indexes, route] at dues
      rw [brought, if_neg stale, Nat.mul_zero, Nat.add_zero] at credits
      rw [if_pos known] at spent
      have scaled := Nat.mul_le_mul_left again (spent.trans_le credits)
      rw [Nat.mul_add, Nat.mul_one] at scaled
      omega
    · have unrelated : Surrounding link envelope.payload (.begin copy) := by
        simpa [Surrounding, carries] using known
      have moved := @owed_engine link envelope bridge target again returns (course.indexes ▸ routed)
        (.begin copy) world step unrelated
      rw [if_neg known, Nat.add_zero] at spent
      rwa [same, spent]
  | resume id copy outcome busy done => exact le_rfl

end Credit

end OaGateway.Stomp
