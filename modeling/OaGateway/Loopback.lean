import OaGateway.Core.Exclusive
import OaGateway.Lib.Numeral

/-! The in-process adapter: a handle onto the engine, and for each of its
subscriptions a task that hands deliveries on to a receiver. -/
namespace OaGateway.Loopback

open Lib OaGateway.Core

/-- One `subscribe` of the handle: the engine's channel, and the task between it
and the receiver. -/
structure Relay where
  subId : SubId
  route : RouteKey
  channel : Nat
  /-- The task has not ended. -/
  running : Bool
  /-- The receiver has not been dropped. -/
  listening : Bool
  /-- What the task has taken and not sent on. -/
  hand : Option Envelope
  out : List Envelope
  received : List Envelope

/-- A handle at work on an engine that others use too. -/
structure Handle where
  world : World
  nextSub : UInt64
  relays : List Relay
  /-- The subscriptions made before the last `shutdown`. -/
  released : Nat

inductive LoopbackEvent where
  /-- Others publish, call the engine and read their channels. -/
  | around (event : Event)
  | subscribe (route : RouteKey) (channel : Nat)
  | refused (route : RouteKey) (channel : Nat)
  /-- The task takes a delivery. -/
  | take (index : Nat)
  /-- It sends it on. -/
  | pass (index : Nat)
  /-- It cannot, and ends. -/
  | stop (index : Nat)
  /-- No sender is left, and it ends. -/
  | finish (index : Nat)
  | receive (index : Nat)
  /-- The receiver is dropped. -/
  | leave (index : Nat)
  | shutdown (order : IterOrder SubId)

def subId (number : UInt64) : SubId := ⟨"lb-" ++ toString number.toNat⟩

/-- The queue behind a sender. -/
def Handle.box (handle : Handle) (channel : Nat) : Channel Delivery := handle.world.channels channel

/-- A channel made by `mpsc::channel`. -/
structure Handle.Fresh (handle : Handle) (channel : Nat) : Prop where
  unused : handle.world.Unused channel
  empty : handle.box channel = ⟨defaultChannelCapacity, [], false⟩
  other : ∀ relay ∈ handle.relays, relay.channel ≠ channel

section
variable (id : AdapterId)

/-- What others do: they do not go by this handle's id, and have none of its
channels. -/
def Handle.Outside (handle : Handle) : Event → Prop
  | .call call => call.caller ≠ id ∧
    ∀ relay ∈ handle.relays, ¬ (Event.call call).Hands relay.channel
  | .receive channel | .close channel => ∀ relay ∈ handle.relays, relay.channel ≠ channel
  | _ => True

/-- No sender of the channel is left, neither registered nor in a publish. -/
def Handle.Unsent (handle : Handle) (channel : Nat) : Prop :=
  (∀ key sub, handle.world.engine.state.byKey.lookup key = some sub → sub.tx.channel ≠ channel) ∧
    ∀ publish ∈ handle.world.publishes, ∀ target ∈ publish.phase.remaining,
      target.1.channel ≠ channel

inductive LoopbackStep (handle : Handle) : LoopbackEvent → Handle → Prop where
  | around (moved : Step handle.world event world) (outside : handle.Outside id event) :
      LoopbackStep handle (.around event) { handle with world }
  | subscribe (fresh : handle.Fresh channel)
      (answer : handle.world.engine.state.subscribe id (subId handle.nextSub) route ⟨channel⟩ =
        (.ok key, state))
      (moved : Step handle.world (.call (.subscribe id (subId handle.nextSub) route ⟨channel⟩))
        world) :
      LoopbackStep handle (.subscribe route channel)
        { handle with
          world
          nextSub := handle.nextSub + 1
          relays := handle.relays ++
            [⟨subId handle.nextSub, route, channel, true, true, none, [], []⟩] }
  | refused (fresh : handle.Fresh channel)
      (answer : handle.world.engine.state.subscribe id (subId handle.nextSub) route ⟨channel⟩ =
        (.error error, state)) :
      LoopbackStep handle (.refused route channel) { handle with nextSub := handle.nextSub + 1 }
  | take (found : handle.relays[index]? = some relay) (running : relay.running = true)
      (free : relay.hand = none) (waiting : (handle.box relay.channel).queue = delivery :: rest)
      (moved : Step handle.world (.receive relay.channel) world) :
      LoopbackStep handle (.take index)
        { handle with world, relays := handle.relays.set index { relay with
          hand := some delivery.envelope } }
  | pass (found : handle.relays[index]? = some relay) (running : relay.running = true)
      (held : relay.hand = some envelope)
      (heard : relay.listening = true) (room : relay.out.length < defaultChannelCapacity) :
      LoopbackStep handle (.pass index)
        { handle with relays := handle.relays.set index { relay with
          hand := none, out := relay.out ++ [envelope] } }
  | stop (found : handle.relays[index]? = some relay) (running : relay.running = true)
      (held : relay.hand = some envelope)
      (deaf : relay.listening = false) (moved : Step handle.world (.close relay.channel) world) :
      LoopbackStep handle (.stop index)
        { handle with world, relays := handle.relays.set index { relay with
          hand := none, running := false } }
  | finish (found : handle.relays[index]? = some relay) (running : relay.running = true)
      (free : relay.hand = none)
      (empty : (handle.box relay.channel).queue = []) (unsent : handle.Unsent relay.channel)
      (moved : Step handle.world (.close relay.channel) world) :
      LoopbackStep handle (.finish index)
        { handle with world, relays := handle.relays.set index { relay with running := false } }
  | receive (found : handle.relays[index]? = some relay) (heard : relay.listening = true)
      (waiting : relay.out = envelope :: rest) :
      LoopbackStep handle (.receive index)
        { handle with
          relays := handle.relays.set index
            { relay with out := rest, received := relay.received ++ [envelope] } }
  | leave (found : handle.relays[index]? = some relay) :
      LoopbackStep handle (.leave index)
        { handle with relays := handle.relays.set index { relay with
          listening := false, out := [] } }
  | shutdown (moved : Step handle.world (.call (.dropAdapter order id)) world) :
      LoopbackStep handle (.shutdown order) { handle with world, released := handle.relays.length }

/-- A new handle, on a new engine. -/
def loopbackSystem : System Handle LoopbackEvent where
  initial handle := concurrent.initial handle.world ∧ handle.nextSub = 1 ∧ handle.relays = [] ∧
    handle.released = 0
  step := LoopbackStep id

end

section Relays
variable {id : AdapterId} {handle after : Handle} {world next : World} {channel : Nat}

/-- Everything the engine has put into a channel, in order. -/
def putInto (world : World) (channel : Nat) : List Envelope :=
  (world.log channel).map fun entry => entry.2.2.envelope

/-- What a channel still holds. -/
def queuedIn (world : World) (channel : Nat) : List Envelope :=
  (world.channels channel).queue.map Delivery.envelope

/-- A step that does not read a channel adds to its queue what it puts into it. -/
theorem fills_of_step {event : Event} (step : Step world event next)
    (unread : event ≠ .receive channel) (unclosed : event ≠ .close channel) :
    ∃ added, queuedIn next channel = queuedIn world channel ++ added ∧
      putInto next channel = putInto world channel ++ added := by
  cases step with
  | call | begin | snapshot | refused | countDelivered | countDropped =>
    exact ⟨[], by simp [queuedIn, World.setPublish], by simp [putInto, World.log, World.setPublish]⟩
  | receive other =>
    have elsewhere : Function.update world.channels other (world.channels other).receive channel =
      world.channels channel :=
      Function.update_of_ne (fun same => unread (by rw [same])) ..
    exact ⟨[], by simp [queuedIn, elsewhere], by simp [putInto, World.log]⟩
  | close other =>
    have elsewhere : Function.update world.channels other (world.channels other).close channel =
      world.channels channel :=
      Function.update_of_ne (fun same => unclosed (by rw [same])) ..
    exact ⟨[], by simp [queuedIn, elsewhere], by simp [putInto, World.log]⟩
  | accepted own envelope tx subId rest sofar box current sent =>
    by_cases here : tx.channel = channel
    · subst here
      refine ⟨[envelope], ?_, ?_⟩
      · simp [queuedIn, Channel.queue_trySend sent]
      · simp [putInto, World.log]
    · have elsewhere : Function.update world.channels tx.channel box channel =
        world.channels channel :=
        Function.update_of_ne (Ne.symm here) ..
      exact ⟨[], by simp [queuedIn, elsewhere], by simp [putInto, World.log, here]⟩

/-- A relay loses nothing on the way from the engine to a receiver that listens,
and brings nothing else. -/
structure Relay.Flows (world : World) (relay : Relay) : Prop where
  whole : relay.listening = true →
    relay.received ++ relay.out ++ relay.hand.toList ++ queuedIn world relay.channel =
      putInto world relay.channel
  cut : relay.received ++ relay.out <+: putInto world relay.channel
  ended : relay.running = false → relay.hand = none

theorem Relay.Flows.filled {relay : Relay} (flows : relay.Flows world) {event : Event}
    (step : Step world event next) (unread : event ≠ .receive relay.channel)
    (unclosed : event ≠ .close relay.channel) : relay.Flows next := by
  obtain ⟨added, queue, put⟩ := fills_of_step step unread unclosed
  refine ⟨fun heard => ?_, ?_, flows.ended⟩
  · rw [queue, put, ← flows.whole heard]
    simp
  · rw [put]
    exact flows.cut.trans (List.prefix_append _ _)

/-- The handle's books are right: its relays have channels and names of their own,
and the engine knows those made since the last `shutdown`. -/
structure Sound (id : AdapterId) (handle : Handle) : Prop where
  indexed : Indexed handle.world.engine.state
  apart : (handle.relays.map Relay.channel).Nodup
  exclusive : ∀ relay ∈ handle.relays, handle.world.Exclusive relay.channel
    ⟨id, relay.subId⟩ relay.route
  flows : ∀ relay ∈ handle.relays, relay.Flows handle.world
  named : ∀ (index : Nat) (relay : Relay), handle.relays[index]? = some relay → index < 2 ^ 64 →
    relay.subId = subId (.ofNat (1 + index))
  next : handle.relays.length < 2 ^ 64 → handle.nextSub = .ofNat (1 + handle.relays.length)
  short : handle.released ≤ handle.relays.length
  registered : ∀ name sub, handle.world.engine.state.byKey.lookup ⟨id, name⟩ = some sub ↔
    ∃ (index : Nat) (relay : Relay), handle.released ≤ index ∧ handle.relays[index]? = some relay ∧
      name = relay.subId ∧ sub = ⟨relay.route, ⟨relay.channel⟩⟩

theorem subId_ofNat {first second : Nat} (near : first < second + 2 ^ 64)
    (far : second < first + 2 ^ 64) (same : subId (.ofNat first) = subId (.ofNat second)) :
    first = second := by
  have digits : toString (UInt64.ofNat first).toNat = toString (UInt64.ofNat second).toNat := by
    simpa [subId] using same
  have numbers := Lib.toString_injective digits
  rw [UInt64.toNat_ofNat', UInt64.toNat_ofNat'] at numbers
  omega

/-- The next name is free, so the engine takes it. -/
theorem Sound.not_refused {route : RouteKey} {error : EngineError} {state : State}
    (sound : Sound id handle) (early : handle.relays.length < 2 ^ 64)
    (answer : handle.world.engine.state.subscribe id (subId handle.nextSub) route ⟨channel⟩ =
      (.error error, state)) : False := by
  obtain ⟨sub, held⟩ := Option.isSome_iff_exists.mp (State.subscribe_error answer).1
  obtain ⟨index, relay, -, found, name, -⟩ := (sound.registered _ _).mp held
  have inside : index < handle.relays.length := (List.getElem?_eq_some_iff.mp found).1
  rw [sound.next early, sound.named index relay found (by omega)] at name
  have same := subId_ofNat (by omega) (by omega) name
  omega

/-- A step of the world that spares the relays leaves the books as they are. -/
theorem Sound.around (sound : Sound id handle) {event : Event}
    (step : Step handle.world event world) (outside : handle.Outside id event) :
    Sound id { handle with world } where
  indexed := step.indexed sound.indexed
  apart := sound.apart
  exclusive relay member := by
    refine (sound.exclusive relay member).step sound.indexed step ?_
    cases event with
    | call call => exact outside.2 relay member
    | _ => exact fun hands => hands
  flows relay member := by
    refine (sound.flows relay member).filled step ?_ ?_
    · rintro rfl
      exact outside relay member rfl
    · rintro rfl
      exact outside relay member rfl
  named := sound.named
  next := sound.next
  short := sound.short
  registered name sub := by
    rw [← sound.registered]
    cases step with
    | call call => rw [sound.indexed.lookup_of_caller_ne (Ne.symm outside.1)]
    | _ => exact Iff.rfl

/-- Two relays with the same name, route and channel. -/
def Relay.Same (relay other : Relay) : Prop :=
  relay.subId = other.subId ∧ relay.route = other.route ∧ relay.channel = other.channel

theorem getElem?_change {relays : List Relay} {index place : Nat} {relay changed : Relay}
    (found : relays[index]? = some relay) (same : changed.Same relay) :
    (∀ new, (relays.set index changed)[place]? = some new →
      ∃ old, relays[place]? = some old ∧ new.Same old ∧
      (place = index ∧ new = changed ∨ place ≠ index ∧ new = old)) ∧
    ∀ old, relays[place]? = some old → ∃ new, (relays.set index changed)[place]? = some new ∧
      new.Same old := by
  have inside : index < relays.length := (List.getElem?_eq_some_iff.mp found).1
  by_cases here : place = index
  · subst here
    rw [List.getElem?_set_self inside, found]
    constructor
    · rintro new ⟨⟩
      exact ⟨relay, rfl, same, .inl ⟨rfl, rfl⟩⟩
    · rintro old ⟨⟩
      exact ⟨changed, rfl, same⟩
  · rw [List.getElem?_set_ne (Ne.symm here)]
    constructor
    · intro new there
      exact ⟨new, there, ⟨rfl, rfl, rfl⟩, .inr ⟨here, rfl⟩⟩
    · intro old there
      exact ⟨old, there, rfl, rfl, rfl⟩

/-- A relay takes a step by itself, on its own channel if on any. -/
theorem Sound.change (sound : Sound id handle) {index : Nat} {relay changed : Relay}
    (found : handle.relays[index]? = some relay)
    (moved : world = handle.world ∨
      ∃ event, (event = .receive relay.channel ∨ event = .close relay.channel) ∧
        Step handle.world event world)
    (same : changed.Same relay) (flows : changed.Flows world) :
    Sound id { handle with world, relays := handle.relays.set index changed } := by
  have state : world.engine.state = handle.world.engine.state := by
    rcases moved with rfl | ⟨event, rfl | rfl, step⟩
    · rfl
    · cases step
      rfl
    · cases step
      rfl
  have exclusive (other : Relay) (member : other ∈ handle.relays) :
      world.Exclusive other.channel ⟨id, other.subId⟩ other.route := by
    have before := sound.exclusive other member
    rcases moved with rfl | ⟨event, rfl | rfl, step⟩
    · exact before
    · exact before.step sound.indexed step fun hands => hands
    · exact before.step sound.indexed step fun hands => hands
  have spared (other : Relay) (member : other ∈ handle.relays)
    (elsewhere : other.channel ≠ relay.channel) :
      other.Flows world := by
    have before := sound.flows other member
    rcases moved with rfl | ⟨event, rfl | rfl, step⟩
    · exact before
    · exact before.filled step (by simp [elsewhere.symm]) (by simp)
    · exact before.filled step (by simp) (by simp [elsewhere.symm])
  have inside : index < handle.relays.length := (List.getElem?_eq_some_iff.mp found).1
  refine ⟨by rw [state]; exact sound.indexed, ?_, ?_, ?_, ?_, ?_, by simpa using sound.short, ?_⟩
  · have channels : (handle.relays.set index changed).map Relay.channel =
        handle.relays.map Relay.channel := by
      have within : index < (handle.relays.map Relay.channel).length := by simpa using inside
      have kept : (handle.relays.map Relay.channel)[index] = relay.channel := by
        rw [List.getElem_map, (List.getElem?_eq_some_iff.mp found).2]
      rw [List.map_set, same.2.2, ← kept, List.set_getElem_self]
    rw [channels]
    exact sound.apart
  · intro new member
    obtain ⟨place, there⟩ := List.mem_iff_getElem?.mp member
    obtain ⟨old, before, ⟨name, route, channel⟩, -⟩ := (getElem?_change found same).1 new there
    rw [name, route, channel]
    exact exclusive old (List.mem_of_getElem? before)
  · intro new member
    obtain ⟨place, there⟩ := List.mem_iff_getElem?.mp member
    obtain ⟨old, before, -, ⟨-, rfl⟩ | ⟨elsewhere, rfl⟩⟩ := (getElem?_change found same).1 new there
    · exact flows
    · refine spared new (List.mem_of_getElem? before) fun shared => elsewhere ?_
      have within : place < (handle.relays.map Relay.channel).length := by
        simpa using (List.getElem?_eq_some_iff.mp before).1
      refine (List.getElem?_inj within sound.apart).mp ?_
      rw [List.getElem?_map, List.getElem?_map, before, found, Option.map_some,
        Option.map_some, shared]
  · intro place new there early
    obtain ⟨old, before, ⟨name, -, -⟩, -⟩ := (getElem?_change found same).1 new there
    rw [name]
    exact sound.named place old before early
  · simpa using sound.next
  · intro name sub
    simp only [state, sound.registered]
    constructor
    · rintro ⟨place, old, late, there, rfl, rfl⟩
      obtain ⟨new, now, name, route, channel⟩ := (getElem?_change found same).2 old there
      exact ⟨place, new, late, now, name.symm, by rw [route, channel]⟩
    · rintro ⟨place, new, late, now, rfl, rfl⟩
      obtain ⟨old, there, ⟨name, route, channel⟩, -⟩ := (getElem?_change found same).1 new now
      exact ⟨place, old, late, there, name, by rw [route, channel]⟩

theorem Relay.Flows.take {relay : Relay} {delivery : Delivery} {rest : List Delivery}
    (flows : relay.Flows world) (running : relay.running = true) (free : relay.hand = none)
    (waiting : (world.channels relay.channel).queue = delivery :: rest)
    (step : Step world (.receive relay.channel) next) :
    Relay.Flows next { relay with hand := some delivery.envelope } := by
  cases step with
  | receive =>
    refine ⟨fun heard => ?_, flows.cut, fun stopped => ?_⟩
    · have level := flows.whole heard
      simp only [free, Option.toList_none, List.append_nil, queuedIn,
        waiting, List.map_cons] at level
      simpa [queuedIn, Channel.receive, waiting, putInto, World.log] using level
    · rw [running] at stopped
      cases stopped

theorem Relay.Flows.pass {relay : Relay} {envelope : Envelope} (flows : relay.Flows world)
    (held : relay.hand = some envelope) (heard : relay.listening = true) :
    Relay.Flows world { relay with hand := none, out := relay.out ++ [envelope] } := by
  have level := flows.whole heard
  simp only [held, Option.toList_some] at level
  refine ⟨fun _ => ?_, ?_, fun _ => rfl⟩
  · simpa using level
  · rw [← level, ← List.append_assoc]
    exact List.prefix_append _ _

theorem Relay.Flows.close {relay : Relay} (flows : relay.Flows world)
    (spent : relay.listening = false ∨ relay.hand = none ∧
      (world.channels relay.channel).queue = [])
    (step : Step world (.close relay.channel) next) :
    Relay.Flows next { relay with hand := none, running := false } := by
  cases step with
  | close =>
    refine ⟨fun heard => ?_, flows.cut, fun _ => rfl⟩
    rcases spent with deaf | ⟨free, empty⟩
    · have contrary : relay.listening = true := heard
      rw [deaf] at contrary
      cases contrary
    · have level := flows.whole heard
      simp only [free, Option.toList_none, List.append_nil, queuedIn, empty, List.map_nil] at level
      simpa [queuedIn, Channel.close, putInto, World.log] using level

theorem Relay.Flows.receive {relay : Relay} {envelope : Envelope} {rest : List Envelope}
    (flows : relay.Flows world) (waiting : relay.out = envelope :: rest) :
    Relay.Flows world { relay with out := rest, received := relay.received ++ [envelope] } := by
  refine ⟨fun heard => ?_, ?_, flows.ended⟩
  · have level := flows.whole heard
    simp only [waiting] at level
    simpa using level
  · have cut := flows.cut
    rw [waiting] at cut
    simpa using cut

theorem Relay.Flows.leave {relay : Relay} (flows : relay.Flows world) :
    Relay.Flows world { relay with listening := false, out := [] } := by
  refine ⟨fun heard => ?_, ?_, flows.ended⟩
  · cases heard
  · rw [List.append_nil]
    exact (List.prefix_append _ _).trans flows.cut

theorem getElem?_concat {relays : List Relay} {index : Nat} {relay last : Relay} :
    (relays ++ [last])[index]? = some relay ↔
      relays[index]? = some relay ∨ index = relays.length ∧ relay = last := by
  rw [List.getElem?_append]
  split
  · rename_i inside
    simp [Nat.ne_of_lt inside]
  · rename_i outside
    rw [List.getElem?_eq_none (Nat.le_of_not_lt outside), List.getElem?_singleton]
    by_cases here : index - relays.length = 0
    · have same : index = relays.length := by omega
      simp [same, eq_comm]
    · have other : index ≠ relays.length := by omega
      simp [here, other]

theorem Sound.subscribe {route : RouteKey} {key : SubscriberKey} {state : State}
    (sound : Sound id handle) (fresh : handle.Fresh channel)
    (answer : handle.world.engine.state.subscribe id (subId handle.nextSub) route ⟨channel⟩ =
      (.ok key, state))
    (step : Step handle.world (.call (.subscribe id (subId handle.nextSub) route ⟨channel⟩))
      world) :
    Sound id { handle with
      world
      nextSub := handle.nextSub + 1
      relays := handle.relays ++
          [⟨subId handle.nextSub, route, channel, true, true, none, [], []⟩] } := by
  have handed : world.Exclusive channel ⟨id, subId handle.nextSub⟩ route :=
    fresh.unused.handed sound.indexed step
  have others (relay : Relay) (member : relay ∈ handle.relays) :
      world.Exclusive relay.channel ⟨id, relay.subId⟩ relay.route :=
    (sound.exclusive relay member).step sound.indexed step (Ne.symm (fresh.other relay member))
  have silent : putInto world channel = [] := by
    cases step with
    | call =>
      rw [putInto, World.log, List.filter_eq_nil_iff.mpr fun entry member => ?_]
      · rfl
      · simpa using fresh.unused.enqueued entry member
  have empty : queuedIn world channel = [] := by
    cases step with
    | call =>
      have box : handle.world.channels channel = ⟨defaultChannelCapacity, [], false⟩ := fresh.empty
      rw [queuedIn, box]
      rfl
  obtain ⟨unknown, keys⟩ := State.subscribe_ok answer
  have lookups (name : SubId) : world.engine.state.byKey.lookup ⟨id, name⟩ =
      if name = subId handle.nextSub then some ⟨route, ⟨channel⟩⟩
          else handle.world.engine.state.byKey.lookup ⟨id, name⟩ := by
    cases step with
    | call =>
      simp only [Call.apply, answer, keys, Table.lookup_insert_ite]
      simp
  refine ⟨step.indexed sound.indexed, ?_, ?_, ?_, ?_, ?_, ?short, ?_⟩
  case short =>
    rw [List.length_append]
    exact Nat.le_add_right_of_le sound.short
  · rw [List.map_append, List.nodup_append]
    refine ⟨sound.apart, by simp, fun first member second last same => ?_⟩
    obtain ⟨relay, held, rfl⟩ := List.mem_map.mp member
    simp only [List.map_cons, List.map_nil, List.mem_singleton] at last
    exact fresh.other relay held (same.trans last)
  · rintro relay member
    rcases List.mem_append.mp member with old | new
    · exact others relay old
    · obtain rfl := List.mem_singleton.mp new
      exact handed
  · rintro relay member
    rcases List.mem_append.mp member with old | new
    · exact (sound.flows relay old).filled step (by simp) (by simp)
    · obtain rfl := List.mem_singleton.mp new
      exact ⟨fun _ => by simp [silent, empty], by simp, fun _ => rfl⟩
  · intro index relay found early
    rcases getElem?_concat.mp found with old | ⟨rfl, rfl⟩
    · exact sound.named index relay old early
    · simp only [sound.next early]
  · intro early
    rw [List.length_append, List.length_singleton] at early ⊢
    rw [sound.next (by omega), ← UInt64.ofNat_one, ← UInt64.ofNat_add]
    rfl
  · intro name sub
    rw [lookups]
    split
    · rename_i own
      subst own
      constructor
      · rintro ⟨⟩
        exact ⟨handle.relays.length, _, sound.short,
          getElem?_concat.mpr (.inr ⟨rfl, rfl⟩), rfl, rfl⟩
      · rintro ⟨index, relay, late, found, own, rfl⟩
        rcases getElem?_concat.mp found with old | ⟨-, rfl⟩
        · rw [(sound.registered _ _).mpr ⟨index, relay, late, old, own, rfl⟩] at unknown
          cases unknown
        · rfl
    · rename_i other
      rw [sound.registered]
      constructor
      · rintro ⟨index, relay, late, found, rest⟩
        exact ⟨index, relay, late, getElem?_concat.mpr (.inl found), rest⟩
      · rintro ⟨index, relay, late, found, own, rest⟩
        rcases getElem?_concat.mp found with old | ⟨-, rfl⟩
        · exact ⟨index, relay, late, old, own, rest⟩
        · exact absurd own other

theorem sound_step (sound : Sound id handle) {event : LoopbackEvent}
    (step : LoopbackStep id handle event after) :
    Sound id after := by
  cases step with
  | around moved outside => exact sound.around moved outside
  | subscribe fresh answer moved => exact sound.subscribe fresh answer moved
  | refused fresh answer =>
    exact ⟨sound.indexed, sound.apart, sound.exclusive, sound.flows, sound.named,
      fun early => (sound.not_refused early answer).elim, sound.short, sound.registered⟩
  | take found running free waiting moved =>
    exact sound.change found (.inr ⟨_, .inl rfl, moved⟩) ⟨rfl, rfl, rfl⟩
      ((sound.flows _ (List.mem_of_getElem? found)).take running free waiting moved)
  | pass found running held heard =>
    exact sound.change found (.inl rfl) ⟨rfl, rfl, rfl⟩
      ((sound.flows _ (List.mem_of_getElem? found)).pass held heard)
  | stop found running held deaf moved =>
    exact sound.change found (.inr ⟨_, .inr rfl, moved⟩) ⟨rfl, rfl, rfl⟩
      ((sound.flows _ (List.mem_of_getElem? found)).close (.inl deaf) moved)
  | @finish _ relay _ found running free empty unsent moved =>
    have flows := (sound.flows _ (List.mem_of_getElem? found)).close (.inr ⟨free, empty⟩) moved
    rw [← free] at flows
    exact sound.change found (.inr ⟨_, .inr rfl, moved⟩) ⟨rfl, rfl, rfl⟩ flows
  | receive found heard waiting =>
    exact sound.change found (.inl rfl) ⟨rfl, rfl, rfl⟩
      ((sound.flows _ (List.mem_of_getElem? found)).receive waiting)
  | leave found =>
    exact sound.change found (.inl rfl) ⟨rfl, rfl, rfl⟩
      (sound.flows _ (List.mem_of_getElem? found)).leave
  | @shutdown order _ moved =>
    refine ⟨moved.indexed sound.indexed, sound.apart, fun relay member => ?_, fun relay member =>
      ?_, sound.named, sound.next, Nat.le_refl _, fun name sub => ?_⟩
    · exact (sound.exclusive relay member).step sound.indexed moved fun hands => hands
    · exact (sound.flows relay member).filled moved (by simp) (by simp)
    · have gone : (Call.apply handle.world.engine.state (.dropAdapter order id)).byKey.lookup
        ⟨id, name⟩ = none :=
        sound.indexed.lookup_of_removes rfl
      cases moved with
      | call =>
        rw [gone]
        constructor
        · rintro ⟨⟩
        · rintro ⟨index, relay, late, found, -⟩
          exact absurd (List.getElem?_eq_some_iff.mp found).1 (Nat.not_lt.mpr late)

theorem sound_of_reachable (reached : (loopbackSystem id).Reachable handle) : Sound id handle := by
  refine reached.invariant (motive := Sound id) ?start ?step
  case start =>
    rintro handle ⟨⟨engine, -, -⟩, next, bare, released⟩
    have state : handle.world.engine.state = .default := by rw [engine]; rfl
    refine ⟨by rw [state]; exact .default, by simp [bare], by simp [bare], by simp [bare], by
      simp [bare], fun _ => ?_, by simp [bare, released], fun name sub => ?_⟩
    · rw [next, bare]
      rfl
    · have free : State.default.byKey.lookup ⟨id, name⟩ = none := rfl
      rw [state, free, bare]
      simp
  case step => exact fun _ _ _ step sound => sound_step sound step

end Relays

/-- A receiver of the handle gets what the engine puts into its channel, in that
order and each once; nothing of it is lost while the receiver is there, and all
of it is on the route that was asked for. -/
theorem receiver_gets_its_route (id : AdapterId) (handle : Handle)
    (reached : (loopbackSystem id).Reachable handle) (relay : Relay)
    (member : relay ∈ handle.relays) :
    relay.received <+: putInto handle.world relay.channel ∧
      (relay.listening = true →
        relay.received ++ relay.out ++ relay.hand.toList ++ queuedIn handle.world relay.channel =
          putInto handle.world relay.channel) ∧
      ∀ envelope ∈ relay.received, relay.route.Accepts envelope.route := by
  have sound := sound_of_reachable reached
  have flows := sound.flows relay member
  have front : relay.received <+: putInto handle.world relay.channel :=
    (List.prefix_append _ _).trans flows.cut
  refine ⟨front, flows.whole, fun envelope got => ?_⟩
  obtain ⟨entry, listed, rfl⟩ := List.mem_map.mp (front.subset got)
  obtain ⟨inside, here⟩ := List.mem_filter.mp listed
  exact ((sound.exclusive relay member).enqueued entry inside (by simpa using here)).2

/-- The engine has the subscriptions that were made since the last `shutdown`,
whether their receivers are still there or not, and no other under this id; and
no `subscribe` is refused before the names come round. -/
theorem handle_registers (id : AdapterId) (handle : Handle)
    (reached : (loopbackSystem id).Reachable handle) :
    (∀ name sub, handle.world.engine.state.byKey.lookup ⟨id, name⟩ = some sub ↔
      ∃ (index : Nat) (relay : Relay), handle.released ≤ index ∧
      handle.relays[index]? = some relay ∧
        name = relay.subId ∧ sub = ⟨relay.route, ⟨relay.channel⟩⟩) ∧
      (handle.relays.length < 2 ^ 64 → ∀ route channel after,
        ¬ LoopbackStep id handle (.refused route channel) after) := by
  have sound := sound_of_reachable reached
  refine ⟨sound.registered, fun early route channel after step => ?_⟩
  cases step with
  | refused fresh answer => exact sound.not_refused early answer

section Sample

def sampleId : AdapterId := ⟨"loopback"⟩

def sampleStart : Handle := ⟨⟨.new, fun _ => ⟨defaultChannelCapacity, [], false⟩, [], []⟩, 1, [], 0⟩

private theorem sampleTarget :
    (Call.apply .default (.subscribe sampleId (subId 1) (.wildcard "uci") ⟨0⟩)).collectTargets
      .unspecified (.wildcard "uci") = [(⟨0⟩, subId 1)] := by
  have keys :
    (Call.apply .default (.subscribe sampleId (subId 1) (.wildcard "uci") ⟨0⟩)).candidateKeys
      (.wildcard "uci") = {⟨sampleId, subId 1⟩} := by decide
  rw [State.collectTargets, keys, IterOrder.toList_singleton]
  decide

/-- A handle subscribes, and gets what another publishes. -/
theorem sampleRun : ∃ handle relay, (loopbackSystem sampleId).Reachable handle ∧
    handle.released = 0 ∧ handle.relays[0]? = some relay ∧ relay.subId = subId 1 ∧
      relay.route = .wildcard "uci" ∧ relay.channel = 0 ∧
    relay.received = [sampleEnvelope] := by
  have asks {world : World} (fresh : sampleStart.Fresh 0) (moved : Step sampleStart.world
      (.call (.subscribe sampleId (subId 1) (.wildcard "uci") ⟨0⟩)) world) :
      LoopbackStep sampleId sampleStart (.subscribe (.wildcard "uci") 0)
        ⟨world, 2, [⟨subId 1, .wildcard "uci", 0, true, true, none, [], []⟩], 0⟩ :=
          .subscribe fresh rfl moved
  have fresh : sampleStart.Fresh 0 := by
    refine ⟨⟨fun key sub found => ?_, ?_, ?_⟩, rfl, ?_⟩
    · cases found
    all_goals simp [sampleStart]
  refine ⟨_, _, ⟨sampleStart, _, ⟨⟨rfl, rfl, rfl⟩, rfl, rfl, rfl⟩,
    .cons (asks fresh (.call _))
    (.cons (.around (.begin sampleEnvelope) trivial)
    (.cons (.around (.snapshot 0 .unspecified sampleEnvelope rfl) trivial)
    (.cons (.around (.accepted 0 sampleEnvelope ⟨0⟩ (subId 1) [] ⟨1, 0, 0⟩
      ⟨defaultChannelCapacity, [⟨subId 1, sampleEnvelope⟩], false⟩ ?_ rfl) trivial)
    (.cons (.take (show _[0]? = _ from rfl) rfl rfl rfl (.receive 0))
    (.cons (.pass (show _[0]? = _ from rfl) rfl rfl rfl (by decide))
    (.single (.receive (show _[0]? = _ from rfl) rfl rfl)))))))⟩, rfl, rfl, rfl, rfl, rfl, rfl⟩
  have targets := sampleTarget
  simp [World.setPublish, sampleStart, Engine.new, Phase.fanOut, sampleEnvelope,
    Envelope.new, targets]

theorem handle_got_sample : ∃ handle relay, (loopbackSystem sampleId).Reachable handle ∧
    relay ∈ handle.relays ∧ relay.received = [sampleEnvelope] ∧
      relay.received <+: putInto handle.world relay.channel := by
  obtain ⟨handle, relay, reached, -, found, -, -, -, got⟩ := sampleRun
  have member := List.mem_of_getElem? found
  exact ⟨handle, relay, reached, member, got,
    (receiver_gets_its_route sampleId handle reached relay member).1⟩

theorem handle_has_sample : ∃ handle, (loopbackSystem sampleId).Reachable handle ∧
    handle.world.engine.state.byKey.lookup ⟨sampleId, subId 1⟩ = some ⟨.wildcard "uci", ⟨0⟩⟩ := by
  obtain ⟨handle, relay, reached, released, found, name, route, channel, -⟩ := sampleRun
  have start : handle.released ≤ 0 := by rw [released]
  exact ⟨handle, reached, ((handle_registers sampleId handle reached).1 _ _).mpr
    ⟨0, relay, start, found, name.symm, by rw [route, channel]⟩⟩

end Sample

end OaGateway.Loopback
