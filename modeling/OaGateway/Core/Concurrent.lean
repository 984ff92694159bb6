import Mathlib.Algebra.GroupWithZero.Nat
import OaGateway.Core.Routing
import OaGateway.Lib.Channel

/-! Publishes, calls and readers that interleave. A publish reads its targets
under the lock, lets the lock go, and then offers one delivery per target. -/
namespace OaGateway.Core

open Lib

/-- The counters behind `stats()`; `fetch_add` wraps. -/
structure EngineStats where
  published : UInt64
  delivered : UInt64
  dropped : UInt64

structure Engine where
  state : State
  stats : EngineStats

def Engine.new : Engine := ⟨.default, ⟨0, 0, 0⟩⟩

structure PublishOutcome where
  matched : Nat
  delivered : Nat
  dropped : Nat

/-- Where one `publish` stands. -/
inductive Phase where
  /-- `published` is counted and the read lock is not taken yet. -/
  | counted
  | sending (targets : List (Sender × SubId)) (sofar : PublishOutcome)
  /-- `delivered` is counted and `dropped` is not. -/
  | counting (outcome : PublishOutcome)
  | done (outcome : PublishOutcome)

/-- The state right after the lock is released. -/
def Phase.fanOut (targets : List (Sender × SubId)) : Phase :=
  .sending targets ⟨targets.length, 0, 0⟩

structure Publish where
  envelope : Envelope
  phase : Phase

/-- The engine, the channels behind its senders, every publish so far by
number, and what each of them has enqueued where. -/
structure World where
  engine : Engine
  channels : Nat → Channel Delivery
  publishes : List Publish
  enqueued : List (Nat × Sender × Delivery)

inductive Event where
  | call (call : Call)
  | begin (envelope : Envelope)
  | snapshot (id : Nat) (order : IterOrder SubscriberKey)
  | offer (id : Nat)
  | countDelivered (id : Nat)
  | countDropped (id : Nat)
  | receive (channel : Nat)
  | close (channel : Nat)

namespace World

def setPublish (world : World) (id : Nat) (publish : Publish) : World :=
  { world with publishes := world.publishes.set id publish }

/-- What publish `id` has put into channels, in order. -/
def enqueuedBy (world : World) (id : Nat) : List (Sender × Delivery) :=
  (world.enqueued.filter fun entry => entry.1 == id).map (·.2)

/-- No publish is in progress. -/
def Quiescent (world : World) : Prop :=
  ∀ publish ∈ world.publishes, ∃ outcome, publish.phase = .done outcome

def matched (publish : Publish) : Nat :=
  match publish.phase with
  | .counted => 0
  | .sending _ outcome | .counting outcome | .done outcome => outcome.matched

end World

/-- One atomic step of a publish, a call or a reader. -/
inductive Step (world : World) : Event → World → Prop where
  | call (call : Call) : Step world (.call call)
      { world with engine := { world.engine with state := call.apply world.engine.state } }
  | begin (envelope : Envelope) : Step world (.begin envelope)
      { world with
        engine := { world.engine with stats :=
          { world.engine.stats with published := world.engine.stats.published + 1 } }
        publishes := world.publishes ++ [⟨envelope, .counted⟩] }
  | snapshot (id : Nat) (order : IterOrder SubscriberKey) (envelope : Envelope)
      (current : world.publishes[id]? = some ⟨envelope, .counted⟩) :
      Step world (.snapshot id order)
        (world.setPublish id ⟨envelope,
          .fanOut (world.engine.state.collectTargets order envelope.route)⟩)
  | accepted (id : Nat) (envelope : Envelope) (tx : Sender) (subId : SubId)
      (rest : List (Sender × SubId)) (sofar : PublishOutcome) (channel : Channel Delivery)
      (current : world.publishes[id]? = some ⟨envelope, .sending ((tx, subId) :: rest) sofar⟩)
      (sent : (world.channels tx.channel).trySend ⟨subId, envelope⟩ = .ok channel) :
      Step world (.offer id)
        { world.setPublish id
            ⟨envelope, .sending rest { sofar with delivered := sofar.delivered + 1 }⟩ with
          channels := Function.update world.channels tx.channel channel
          enqueued := world.enqueued ++ [(id, tx, ⟨subId, envelope⟩)] }
  | refused (id : Nat) (envelope : Envelope) (tx : Sender) (subId : SubId)
      (rest : List (Sender × SubId)) (sofar : PublishOutcome) (reason : TrySendError)
      (current : world.publishes[id]? = some ⟨envelope, .sending ((tx, subId) :: rest) sofar⟩)
      (failed : (world.channels tx.channel).trySend ⟨subId, envelope⟩ = .error reason) :
      Step world (.offer id)
        (world.setPublish id
          ⟨envelope, .sending rest { sofar with dropped := sofar.dropped + 1 }⟩)
  | countDelivered (id : Nat) (envelope : Envelope) (outcome : PublishOutcome)
      (current : world.publishes[id]? = some ⟨envelope, .sending [] outcome⟩) :
      Step world (.countDelivered id)
        { world.setPublish id ⟨envelope, .counting outcome⟩ with
          engine := { world.engine with stats := { world.engine.stats with
            delivered := world.engine.stats.delivered + .ofNat outcome.delivered } } }
  | countDropped (id : Nat) (envelope : Envelope) (outcome : PublishOutcome)
      (current : world.publishes[id]? = some ⟨envelope, .counting outcome⟩) :
      Step world (.countDropped id)
        { world.setPublish id ⟨envelope, .done outcome⟩ with
          engine := { world.engine with stats := { world.engine.stats with
            dropped := world.engine.stats.dropped + .ofNat outcome.dropped } } }
  | receive (channel : Nat) : Step world (.receive channel)
      { world with channels :=
        Function.update world.channels channel (world.channels channel).receive }
  | close (channel : Nat) : Step world (.close channel)
      { world with channels :=
        Function.update world.channels channel (world.channels channel).close }

/-- Any number of operations on a new engine, interleaved in any order. -/
def concurrent : System World Event where
  initial world := world.engine = .new ∧ world.publishes = [] ∧ world.enqueued = []
  step := Step

theorem Step.indexed (step : Step world event after) (indexed : Indexed world.engine.state) :
    Indexed after.engine.state := by
  cases step with
  | call call => exact indexed.apply call
  | _ => exact indexed

theorem indexed_of_run (initial : concurrent.initial start)
    (run : concurrent.Run start events world) : Indexed world.engine.state := by
  refine run.preserves (motive := fun world => Indexed world.engine.state) ?_ ?_
  · rw [initial.1]
    exact .default
  · exact fun _ _ _ step => Step.indexed step

section Fanout
variable {id : Nat}

/-- The delivery a publish offers to one target. -/
def deliveryTo (envelope : Envelope) (target : Sender × SubId) : Sender × Delivery :=
  (target.1, ⟨target.2, envelope⟩)

/-- Targets a publish has still to try. -/
def Phase.remaining : Phase → List (Sender × SubId)
  | .sending targets _ => targets
  | _ => []

/-- Publish `id` has not read its targets. -/
structure Waiting (id : Nat) (world : World) : Prop where
  phase : ∀ publish, world.publishes[id]? = some publish → publish.phase = .counted
  silent : world.enqueuedBy id = []

/-- Publish `id` works through `targets`: what it enqueued so far came, in
order and at most once each, from the targets it is done with. -/
structure Fanning (id : Nat) (envelope : Envelope) (targets : List (Sender × SubId))
    (world : World) : Prop where
  current : ∃ phase, world.publishes[id]? = some ⟨envelope, phase⟩ ∧ phase ≠ .counted ∧
    ∃ tried, targets = tried ++ phase.remaining ∧
      (world.enqueuedBy id).Sublist (tried.map (deliveryTo envelope))

private theorem getElem?_setPublish {world : World} {id : Nat} {held : Publish}
    (current : world.publishes[id]? = some held) (other : Nat) (publish : Publish) :
    (world.setPublish id publish).publishes[other]? =
      if id = other then some publish else world.publishes[other]? := by
  have inside : id < world.publishes.length := (List.getElem?_eq_some_iff.mp current).1
  simp only [World.setPublish, List.getElem?_set, inside, ↓reduceIte]

/-- What one step means for publish `id`. -/
inductive Progress (id : Nat) (world after : World) : Event → Prop where
  | idle (same : after.publishes[id]? = world.publishes[id]?)
      (silent : after.enqueuedBy id = world.enqueuedBy id) : Progress id world after event
  | begun (absent : world.publishes[id]? = none)
      (started : after.publishes[id]? = some ⟨envelope, .counted⟩)
      (silent : after.enqueuedBy id = world.enqueuedBy id) : Progress id world after event
  | read (waiting : world.publishes[id]? = some ⟨envelope, .counted⟩)
      (started : after.publishes[id]? =
        some ⟨envelope, .fanOut (world.engine.state.collectTargets order envelope.route)⟩)
      (silent : after.enqueuedBy id = world.enqueuedBy id) :
      Progress id world after (.snapshot id order)
  | tried (current : world.publishes[id]? = some ⟨envelope, .sending (target :: rest) sofar⟩)
      (moved : after.publishes[id]? = some ⟨envelope, .sending rest outcome⟩)
      (sent : after.enqueuedBy id = world.enqueuedBy id ∨
        after.enqueuedBy id = world.enqueuedBy id ++ [deliveryTo envelope target]) :
      Progress id world after event
  | finished (current : world.publishes[id]? = some ⟨envelope, before⟩)
      (moved : after.publishes[id]? = some ⟨envelope, later⟩)
      (read : before ≠ .counted ∧ later ≠ .counted)
      (through : before.remaining = [] ∧ later.remaining = [])
      (silent : after.enqueuedBy id = world.enqueuedBy id) : Progress id world after event

theorem Step.progress (step : Step world event after) (id : Nat) :
    Progress id world after event := by
  cases step with
  | call | receive | close => exact .idle rfl rfl
  | begin envelope =>
    by_cases last : id = world.publishes.length
    · subst last
      have absent : world.publishes[world.publishes.length]? = none := by simp
      refine @Progress.begun _ _ _ envelope _ absent ?_ rfl
      simp
    · refine .idle ?_ rfl
      rw [List.getElem?_append]
      split
      · rfl
      · have outside : world.publishes.length < id := by omega
        rw [List.getElem?_eq_none (by simp; omega), List.getElem?_eq_none (by omega)]
  | snapshot own order envelope current =>
    by_cases same : own = id
    · subst same
      exact .read current (by rw [getElem?_setPublish current, if_pos rfl]) rfl
    · exact .idle (by rw [getElem?_setPublish current, if_neg same]) rfl
  | accepted own envelope tx subId rest sofar channel current sent =>
    by_cases same : own = id
    · subst same
      refine .tried current (getElem?_setPublish current own _ |>.trans (if_pos rfl)) (.inr ?_)
      simp [World.enqueuedBy, deliveryTo]
    · refine .idle (getElem?_setPublish current id _ |>.trans (if_neg same)) ?_
      simp [World.enqueuedBy, same]
  | refused own envelope tx subId rest sofar reason current failed =>
    by_cases same : own = id
    · subst same
      exact .tried current (getElem?_setPublish current own _ |>.trans (if_pos rfl)) (.inl rfl)
    · exact .idle (getElem?_setPublish current id _ |>.trans (if_neg same)) rfl
  | countDelivered own envelope outcome current =>
    by_cases same : own = id
    · subst same
      exact .finished current (getElem?_setPublish current own _ |>.trans (if_pos rfl))
        (by simp) (by simp [Phase.remaining]) rfl
    · exact .idle (getElem?_setPublish current id _ |>.trans (if_neg same)) rfl
  | countDropped own envelope outcome current =>
    by_cases same : own = id
    · subst same
      exact .finished current (getElem?_setPublish current own _ |>.trans (if_pos rfl))
        (by simp) (by simp [Phase.remaining]) rfl
    · exact .idle (getElem?_setPublish current id _ |>.trans (if_neg same)) rfl

/-- Until its snapshot a publish stays silent. -/
theorem Waiting.step (waiting : Waiting id world) (step : Step world event after) :
    Waiting id after ∨ ∃ order envelope, event = .snapshot id order ∧
      world.publishes[id]? = some ⟨envelope, .counted⟩ ∧
      Fanning id envelope (world.engine.state.collectTargets order envelope.route) after := by
  have counted := waiting.phase
  cases step.progress id with
  | idle same silent => exact .inl ⟨by rwa [same], silent.trans waiting.silent⟩
  | begun absent started silent =>
    refine .inl ⟨?_, silent.trans waiting.silent⟩
    intro publish found
    rw [started] at found
    cases found
    rfl
  | @read envelope order current started silent =>
    refine .inr ⟨order, envelope, rfl, current, _, started, by simp [Phase.fanOut], [], rfl, ?_⟩
    rw [silent, waiting.silent]
    exact List.Sublist.refl _
  | tried current => cases counted _ current
  | finished current _ read => exact absurd (counted _ current) read.1

/-- After its snapshot a publish only works through the targets it read. -/
theorem Fanning.step (fanning : Fanning id envelope targets world) (step : Step world event after) :
    Fanning id envelope targets after := by
  obtain ⟨phase, found, started, tried, split, sublist⟩ := fanning.current
  cases step.progress id with
  | idle same silent => exact ⟨phase, by rwa [same], started, tried, split, by rwa [silent]⟩
  | begun absent => simp [absent] at found
  | read waiting =>
    rw [waiting] at found
    cases found
    exact absurd rfl started
  | @tried own target rest sofar outcome _ current moved sent =>
    rw [current] at found
    cases found
    refine ⟨_, moved, by simp, tried ++ [target], by simpa [Phase.remaining] using split, ?_⟩
    rw [List.map_append]
    rcases sent with silent | sent
    · rw [silent]
      exact sublist.trans (List.sublist_append_left _ _)
    · rw [sent]
      exact sublist.append (List.Sublist.refl _)
  | finished current moved read through silent =>
    rw [current] at found
    cases found
    refine ⟨_, moved, read.2, tried, ?_, by rwa [silent]⟩
    rw [split, through.1, through.2]

/-- Where a publish gets to along a run: still silent, or past one snapshot
after which it works through what that snapshot read. -/
theorem Fanning.of_run (initial : concurrent.initial start)
    (run : concurrent.Run start events world) (id : Nat) :
    Waiting id world ∨ ∃ before order later held envelope,
      events = before ++ .snapshot id order :: later ∧
      concurrent.Run start before held ∧
      held.publishes[id]? = some ⟨envelope, .counted⟩ ∧
      Fanning id envelope (held.engine.state.collectTargets order envelope.route) world := by
  refine run.snocInduction (motive := fun events world => Waiting id world ∨
    ∃ before order later held envelope, events = before ++ .snapshot id order :: later ∧
      concurrent.Run start before held ∧ held.publishes[id]? = some ⟨envelope, .counted⟩ ∧
      Fanning id envelope (held.engine.state.collectTargets order envelope.route) world) ?_ ?_
  · obtain ⟨-, none, nothing⟩ := initial
    exact .inl ⟨by simp [none], by simp [World.enqueuedBy, nothing]⟩
  · intro events world event after front ih step
    rcases ih with waiting | ⟨before, order, later, held, envelope, split, run, current, fanning⟩
    · rcases waiting.step step with waiting | ⟨order, envelope, same, current, fanning⟩
      · exact .inl waiting
      · subst same
        exact .inr ⟨events, order, [], world, envelope, rfl, front, current, fanning⟩
    · exact .inr ⟨before, order, later ++ [event], held, envelope, by simp [split], run, current,
        fanning.step step⟩

/-- What is enqueued comes from distinct keys, each registered and accepting
at the snapshot, through the sender that registration holds there. -/
theorem Fanning.keys
    (fanning : Fanning id envelope (state.collectTargets order envelope.route) world)
    (routed : Routed state) :
    ∃ keys : List SubscriberKey, keys.Nodup ∧ (∀ key ∈ keys, (state.byKey.lookup key).isSome) ∧
      List.Forall₂ (fun key sent => ∃ sub, state.byKey.lookup key = some sub ∧
        sub.route.Accepts envelope.route ∧ sent = (sub.tx, ⟨key.subId, envelope⟩))
        keys (world.enqueuedBy id) := by
  obtain ⟨phase, -, -, tried, split, sublist⟩ := fanning.current
  have within : ((world.enqueuedBy id).map some).Sublist
      ((order.toList (state.candidateKeys envelope.route)).map
        fun key => (state.target key).map (deliveryTo envelope)) := by
    have all : (world.enqueuedBy id).Sublist
        ((state.collectTargets order envelope.route).map (deliveryTo envelope)) := by
      rw [split, List.map_append]
      exact sublist.trans (List.sublist_append_left _ _)
    have mapped := congrArg (List.map (Option.map (deliveryTo envelope)))
      (routed.collectTargets_map order envelope.route)
    simp only [List.map_map] at mapped
    rw [show (fun key => (state.target key).map (deliveryTo envelope)) =
      Option.map (deliveryTo envelope) ∘ state.target from rfl, ← mapped]
    simpa [Function.comp_def] using all.map some
  obtain ⟨keys, inKeys, same⟩ := List.sublist_map_iff.mp within
  have accepting : ∀ key ∈ keys, ∃ sub, state.byKey.lookup key = some sub ∧
      sub.route.Accepts envelope.route := fun key member =>
    (routed.mem_candidateKeys _ key).mp ((order.mem_iff _ key).mp (inKeys.subset member))
  have aligned : List.Forall₂ (fun key sent => (state.target key).map (deliveryTo envelope) =
    some sent)
      keys (world.enqueuedBy id) := by
    have equal : List.Forall₂ Eq (keys.map fun key => (state.target key).map (deliveryTo envelope))
        ((world.enqueuedBy id).map some) := by
      rw [List.forall₂_eq_eq_eq]
      exact same.symm
    simpa [List.forall₂_map_left_iff, List.forall₂_map_right_iff] using equal
  have registered : ∀ key ∈ keys, (state.byKey.lookup key).isSome := by
    intro key member
    obtain ⟨sub, found, -⟩ := accepting key member
    simp [found]
  refine ⟨keys, inKeys.nodup (order.nodup _), registered, ?_⟩
  refine ((List.forall₂_and_left keys _).mpr ⟨accepting, aligned⟩).imp ?_
  rintro key sent ⟨⟨sub, found, accepts⟩, read⟩
  refine ⟨sub, found, accepts, ?_⟩
  simpa [State.target, found, deliveryTo, eq_comm] using read

end Fanout

section Removal
variable {key : SubscriberKey}

def Event.Registers (key : SubscriberKey) : Event → Prop
  | .call request => request.Registers key
  | _ => False

/-- Some call took `key` out and none registered it again. -/
def RemovedIn (key : SubscriberKey) (events : List Event) : Prop :=
  ∃ front call back, events = front ++ .call call :: back ∧ call.Removes key ∧
    ∀ event ∈ back, ¬ event.Registers key

theorem Step.stays_free (step : Step world event after) (indexed : Indexed world.engine.state)
    (other : ¬ event.Registers key) (free : world.engine.state.byKey.lookup key = none) :
    after.engine.state.byKey.lookup key = none := by
  cases step with
  | call call => exact indexed.lookup_stays_none other free
  | _ => exact free

theorem lookup_of_removedIn (initial : concurrent.initial start)
    (run : concurrent.Run start events world) (removed : RemovedIn key events) :
    world.engine.state.byKey.lookup key = none := by
  obtain ⟨front, call, back, rfl, removes, quiet⟩ := removed
  obtain ⟨before, front, rest⟩ := run.split
  have indexed := indexed_of_run initial front
  cases rest with
  | cons step rest =>
    cases step
    refine (rest.preserves_of (motive := fun world => Indexed world.engine.state ∧
      world.engine.state.byKey.lookup key = none) ?_ quiet ?_).2
    · exact ⟨indexed.apply call, indexed.lookup_of_removes removes⟩
    · rintro world event after other step ⟨indexed, free⟩
      exact ⟨step.indexed indexed, step.stays_free indexed other free⟩

end Removal

section Counters

/-- What the publish has added to `stats.delivered`. -/
def Publish.countedDelivered (publish : Publish) : Nat :=
  match publish.phase with
  | .counting outcome | .done outcome => outcome.delivered
  | _ => 0

/-- What the publish has added to `stats.dropped`. -/
def Publish.countedDropped (publish : Publish) : Nat :=
  match publish.phase with
  | .done outcome => outcome.dropped
  | _ => 0

/-- Every target is delivered, dropped or still to be tried. -/
def Phase.Balanced : Phase → Prop
  | .counted => True
  | .sending targets outcome => outcome.matched = targets.length + outcome.delivered +
    outcome.dropped
  | .counting outcome | .done outcome => outcome.matched = outcome.delivered + outcome.dropped

/-- The counters follow the publishes. -/
structure Counted (world : World) : Prop where
  published : world.engine.stats.published = .ofNat world.publishes.length
  delivered : world.engine.stats.delivered =
    .ofNat (world.publishes.map Publish.countedDelivered).sum
  dropped : world.engine.stats.dropped = .ofNat (world.publishes.map Publish.countedDropped).sum
  balanced : ∀ publish ∈ world.publishes, publish.phase.Balanced

theorem sum_map_set {Item : Type} (weight : Item → Nat) {items : List Item} {index : Nat}
    {old : Item} (current : items[index]? = some old) (new : Item) :
    ((items.set index new).map weight).sum + weight old = (items.map weight).sum + weight new := by
  induction items generalizing index with
  | nil => simp at current
  | cons head rest ih =>
    cases index with
    | zero =>
      obtain rfl : head = old := by simpa using current
      simp only [List.set_cons_zero, List.map_cons, List.sum_cons]
      omega
    | succ index =>
      have later := ih (by simpa using current)
      simp only [List.set_cons_succ, List.map_cons, List.sum_cons]
      omega

/-- Replacing a publish by one that counts more moves the counters by the difference. -/
theorem Counted.setPublish {id : Nat} {held : Publish} {engine : Engine} (counted : Counted world)
    (publish : Publish) (current : world.publishes[id]? = some held)
    (published : engine.stats.published = world.engine.stats.published)
    (delivered : engine.stats.delivered =
      world.engine.stats.delivered + .ofNat (publish.countedDelivered - held.countedDelivered))
    (dropped : engine.stats.dropped =
      world.engine.stats.dropped + .ofNat (publish.countedDropped - held.countedDropped))
    (grows : held.countedDelivered ≤ publish.countedDelivered ∧
      held.countedDropped ≤ publish.countedDropped)
    (balanced : publish.phase.Balanced) {channels enqueued} :
    Counted ⟨engine, channels, world.publishes.set id publish, enqueued⟩ := by
  have deliveries := sum_map_set Publish.countedDelivered current publish
  have drops := sum_map_set Publish.countedDropped current publish
  refine ⟨?_, ?_, ?_, ?_⟩
  · simp [published, counted.published]
  · rw [delivered, counted.delivered, ← UInt64.ofNat_add]
    congr 1
    dsimp only
    omega
  · rw [dropped, counted.dropped, ← UInt64.ofNat_add]
    congr 1
    dsimp only
    omega
  · intro other member
    rcases List.mem_or_eq_of_mem_set member with earlier | same
    · exact counted.balanced other earlier
    · exact same ▸ balanced

theorem Step.counted (step : Step world event after) (counted : Counted world) : Counted after := by
  have held {id : Nat} {publish : Publish} (current : world.publishes[id]? = some publish) :
      publish.phase.Balanced := counted.balanced publish (List.mem_of_getElem? current)
  cases step with
  | call | receive | close => exact ⟨counted.published, counted.delivered, counted.dropped,
    counted.balanced⟩
  | begin envelope =>
    refine ⟨?_, ?_, ?_, ?_⟩
    · simp [counted.published, UInt64.ofNat_add]
    · simp [counted.delivered, Publish.countedDelivered]
    · simp [counted.dropped, Publish.countedDropped]
    · intro publish member
      rcases List.mem_append.mp member with earlier | new
      · exact counted.balanced publish earlier
      · rw [List.mem_singleton.mp new]
        trivial
  | snapshot id order envelope current =>
    exact counted.setPublish _ current rfl (by simp [Publish.countedDelivered, Phase.fanOut])
      (by simp [Publish.countedDropped, Phase.fanOut])
      (by simp [Publish.countedDelivered, Publish.countedDropped])
      (by simp [Phase.fanOut, Phase.Balanced])
  | accepted id envelope tx subId rest sofar channel current sent =>
    have balance : sofar.matched = _ := held current
    refine counted.setPublish _ current rfl (by simp [Publish.countedDelivered])
      (by simp [Publish.countedDropped])
      (by simp [Publish.countedDelivered, Publish.countedDropped]) ?_
    simp only [Phase.Balanced, List.length_cons] at balance ⊢
    omega
  | refused id envelope tx subId rest sofar reason current failed =>
    have balance : sofar.matched = _ := held current
    refine counted.setPublish _ current rfl (by simp [Publish.countedDelivered])
      (by simp [Publish.countedDropped])
      (by simp [Publish.countedDelivered, Publish.countedDropped]) ?_
    simp only [Phase.Balanced, List.length_cons] at balance ⊢
    omega
  | countDelivered id envelope outcome current =>
    have balance : outcome.matched = _ := held current
    refine counted.setPublish ⟨envelope, .counting outcome⟩ current ?_ ?_ ?_ ?_ ?_
    · rfl
    · simp [Publish.countedDelivered]
    · simp [Publish.countedDropped]
    · simp [Publish.countedDelivered, Publish.countedDropped]
    · simpa [Phase.Balanced] using balance
  | countDropped id envelope outcome current =>
    have balance : outcome.matched = _ := held current
    refine counted.setPublish ⟨envelope, .done outcome⟩ current ?_ ?_ ?_ ?_ balance
    · rfl
    · simp [Publish.countedDelivered]
    · simp [Publish.countedDropped]
    · simp [Publish.countedDelivered, Publish.countedDropped]

theorem counted_of_run (initial : concurrent.initial start)
    (run : concurrent.Run start events world) : Counted world := by
  refine run.preserves ?_ fun _ _ _ step => Step.counted step
  obtain ⟨new, none, -⟩ := initial
  exact ⟨by simp [new, none, Engine.new], by simp [new, none, Engine.new],
    by simp [new, none, Engine.new], by simp [none]⟩

/-- With every publish done, the two delivery counters add up to what matched. -/
theorem Counted.of_quiescent (counted : Counted world) (quiescent : world.Quiescent) :
    world.engine.stats.delivered + world.engine.stats.dropped =
      .ofNat (world.publishes.map World.matched).sum := by
  rw [counted.delivered, counted.dropped, ← UInt64.ofNat_add, ← List.sum_map_add]
  congr 2
  refine List.map_congr_left fun publish member => ?_
  obtain ⟨outcome, done⟩ := quiescent publish member
  have balance := counted.balanced publish member
  rw [done] at balance
  simp only [Publish.countedDelivered, Publish.countedDropped, World.matched, done]
  exact balance.symm

end Counters

/-- Any interleaving of publishes, calls and readers. What a publish enqueues
goes to distinct keys, each registered and accepting when the publish read its
targets, through the sender held there, and to none that was removed earlier and
not registered again; and with no publish in progress the counters, as 64-bit
numbers, agree with the history. -/
theorem concurrent_publishes (initial : concurrent.initial start)
    (run : concurrent.Run start events world) :
    (∀ id, world.enqueuedBy id = [] ∨
      ∃ before order later held envelope keys,
        events = before ++ .snapshot id order :: later ∧
        concurrent.Run start before held ∧
        held.publishes[id]? = some ⟨envelope, .counted⟩ ∧
        keys.Nodup ∧
        List.Forall₂ (fun key sent => ∃ sub, held.engine.state.byKey.lookup key = some sub ∧
          sub.route.Accepts envelope.route ∧ sent = (sub.tx, ⟨key.subId, envelope⟩))
          keys (world.enqueuedBy id) ∧
        ∀ key ∈ keys, ¬ RemovedIn key before) ∧
    (world.Quiescent →
      world.engine.stats.published = .ofNat world.publishes.length ∧
      world.engine.stats.delivered + world.engine.stats.dropped =
        .ofNat (world.publishes.map World.matched).sum) := by
  constructor
  · intro id
    rcases Fanning.of_run initial run id with
      waiting | ⟨before, order, later, held, envelope, split, front, current, fanning⟩
    · exact .inl waiting.silent
    · obtain ⟨keys, distinct, registered, sent⟩ :=
        fanning.keys (indexed_of_run initial front).routed
      refine .inr ⟨before, order, later, held, envelope, keys, split, front, current,
        distinct, sent, ?_⟩
      intro key member removed
      have free := lookup_of_removedIn initial front removed
      simpa [free] using registered key member
  · intro quiescent
    have counted := counted_of_run initial run
    exact ⟨counted.published, counted.of_quiescent quiescent⟩

section Sample

/-- A new engine with room for one delivery in every channel. -/
def sampleWorld : World := ⟨.new, fun _ => ⟨1, [], false⟩, [], []⟩

def sampleEnvelope : Envelope := .new ⟨"m"⟩ (.wildcard "uci") []

/-- The subscription moves to channel 1 between the snapshot and the send. -/
noncomputable def sampleEvents : List Event :=
  [.call (.subscribe ⟨"owp"⟩ ⟨"1"⟩ (.wildcard "uci") ⟨0⟩),
    .begin sampleEnvelope,
    .snapshot 0 .unspecified,
    .call (.unsubscribe ⟨"owp"⟩ ⟨"1"⟩),
    .call (.subscribe ⟨"owp"⟩ ⟨"1"⟩ (.wildcard "uci") ⟨1⟩),
    .offer 0,
    .countDelivered 0,
    .countDropped 0]

private theorem sampleTargets :
    (Call.apply .default (.subscribe ⟨"owp"⟩ ⟨"1"⟩ (.wildcard "uci") ⟨0⟩)).collectTargets
      .unspecified (.wildcard "uci") = [(⟨0⟩, ⟨"1"⟩)] := by
  have keys : (Call.apply .default (.subscribe ⟨"owp"⟩ ⟨"1"⟩ (.wildcard "uci") ⟨0⟩)).candidateKeys
      (.wildcard "uci") = {⟨⟨"owp"⟩, ⟨"1"⟩⟩} := by decide
  rw [State.collectTargets, keys, IterOrder.toList_singleton]
  decide

theorem sampleRun : ∃ world, concurrent.Run sampleWorld sampleEvents world ∧ world.Quiescent ∧
    world.enqueuedBy 0 = [(⟨0⟩, ⟨⟨"1"⟩, sampleEnvelope⟩)] := by
  refine ⟨_, .cons (.call _) (.cons (.begin _) (.cons (.snapshot 0 _ sampleEnvelope rfl)
    (.cons (.call _) (.cons (.call _) (.cons (.accepted 0 sampleEnvelope ⟨0⟩ ⟨"1"⟩ [] ⟨1, 0, 0⟩
      ⟨1, [⟨⟨"1"⟩, sampleEnvelope⟩], false⟩ ?_ rfl)
      (.cons (.countDelivered 0 sampleEnvelope ⟨1, 1, 0⟩ rfl)
        (.cons (.countDropped 0 sampleEnvelope ⟨1, 1, 0⟩ rfl) (.nil _)))))))), ?_, ?_⟩
  · have targets := sampleTargets
    simp [World.setPublish, sampleWorld, Engine.new, Phase.fanOut, sampleEnvelope,
      Envelope.new, targets]
  · intro publish member
    simp [World.setPublish, sampleWorld] at member
    exact ⟨_, by rw [member]⟩
  · rfl

theorem sample_publishes : ∃ world, concurrent.Run sampleWorld sampleEvents world ∧
    world.engine.stats.delivered + world.engine.stats.dropped =
      .ofNat (world.publishes.map World.matched).sum := by
  obtain ⟨world, run, quiescent, -⟩ := sampleRun
  have initial : concurrent.initial sampleWorld := ⟨rfl, rfl, rfl⟩
  exact ⟨world, run, ((concurrent_publishes initial run).2 quiescent).2⟩

end Sample

end OaGateway.Core
