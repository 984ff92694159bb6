import OaGateway.Core.Concurrent

/-! Counting deliveries: what the publishes under way still owe, and how one
step of the engine changes that. -/
namespace OaGateway.Core

open Lib

/-- How many targets that `pick` chooses a publish has still to try. -/
def Publish.ahead (state : State) (pick : Sender × SubId → Bool) (publish : Publish) : Nat :=
  match publish.phase with
  | .counted => (state.plainScan publish.envelope.route).countP fun target => pick target = true
  | .sending targets _ => targets.countP pick
  | .counting _ | .done _ => 0

namespace World
variable (world : World) (tracked : Envelope → Bool) (pick : Sender × SubId → Bool)

def ahead : Nat :=
  (world.publishes.map fun publish =>
    if tracked publish.envelope then publish.ahead world.engine.state pick else 0).sum

/-- How many tracked envelopes those targets have taken so far. -/
def taken : Nat :=
  world.enqueued.countP fun entry => tracked entry.2.2.envelope && pick (entry.2.1, entry.2.2.subId)

/-- How many tracked envelopes wait in a channel. -/
def queued (channel : Nat) : Nat :=
  (world.channels channel).queue.countP fun delivery => tracked delivery.envelope

def envelopes : List Envelope := world.publishes.map Publish.envelope

end World

section
variable {world after : World} {id : Nat}

theorem envelopes_setPublish {envelope : Envelope} {before phase : Phase}
    (current : world.publishes[id]? = some ⟨envelope, before⟩) :
    (world.setPublish id ⟨envelope, phase⟩).envelopes = world.envelopes := by
  refine List.ext_getElem? fun index => ?_
  simp only [World.envelopes, World.setPublish, List.getElem?_map, List.getElem?_set]
  by_cases same : id = index
  · subst same
    obtain ⟨inside, here⟩ := List.getElem?_eq_some_iff.mp current
    simp [inside, here]
  · simp [same]

/-- A publish moves on by itself: what all of them owe changes by what it does. -/
theorem ahead_setPublish {old new : Publish} (current : world.publishes[id]? = some old)
    (same : new.envelope = old.envelope) (tracked : Envelope → Bool)
    (pick : Sender × SubId → Bool) : (world.setPublish id new).ahead tracked pick +
        (if tracked old.envelope then old.ahead world.engine.state pick else 0) =
      world.ahead tracked pick +
        (if tracked old.envelope then new.ahead world.engine.state pick else 0) := by
  have moved := sum_map_set (fun publish : Publish =>
    if tracked publish.envelope then publish.ahead world.engine.state pick else 0) current new
  rw [same] at moved
  exact moved

end

/-- What a step of the engine does, calls apart. -/
inductive StepEffect (world after : World) : Event → Prop where
  | begun (publishes : after.publishes = world.publishes ++ [⟨envelope, .counted⟩])
      (channels : after.channels = world.channels) (enqueued : after.enqueued = world.enqueued) :
      StepEffect world after (.begin envelope)
  | accepted {id : Nat} (channel : Channel Delivery)
      (sent : (world.channels tx.channel).trySend ⟨subId, envelope⟩ = .ok channel)
      (channels : after.channels = Function.update world.channels tx.channel channel)
      (enqueued : after.enqueued = world.enqueued ++ [(id, tx, ⟨subId, envelope⟩)])
      (envelopes : after.envelopes = world.envelopes) (member : envelope ∈ world.envelopes)
      (ahead : ∀ tracked pick, after.ahead tracked pick +
        (if tracked envelope && pick (tx, subId) then 1 else 0) = world.ahead tracked pick) :
      StepEffect world after (.offer id)
  | quiet (channels : ∀ channel, (after.channels channel).queue.Sublist
    (world.channels channel).queue)
      (untouched : ∀ channel, event ≠ .receive channel → event ≠ .close channel →
        after.channels channel = world.channels channel)
      (enqueued : after.enqueued = world.enqueued) (envelopes : after.envelopes = world.envelopes)
      (ahead : ∀ tracked pick, after.ahead tracked pick ≤ world.ahead tracked pick) :
      StepEffect world after event

private theorem ahead_setPublish_le {world : World} {id : Nat} {envelope : Envelope}
    {before phase : Phase} (current : world.publishes[id]? = some ⟨envelope, before⟩)
    (less : ∀ pick, Publish.ahead world.engine.state pick ⟨envelope, phase⟩ ≤
      Publish.ahead world.engine.state pick ⟨envelope, before⟩)
    (tracked : Envelope → Bool) (pick : Sender × SubId → Bool) :
    (world.setPublish id ⟨envelope, phase⟩).ahead tracked pick ≤ world.ahead tracked pick := by
  have moved := @ahead_setPublish world id _ ⟨envelope, phase⟩ current rfl tracked pick
  have := less pick
  split at moved <;> omega

private theorem queue_update_sublist {channels : Nat → Channel Delivery}
    {changed : Channel Delivery} {index : Nat}
    (shorter : changed.queue.Sublist (channels index).queue) (other : Nat) :
    (Function.update channels index changed other).queue.Sublist (channels other).queue := by
  by_cases same : other = index
  · subst same
    rwa [Function.update_self]
  · rw [Function.update_of_ne same]

theorem Step.effect {world after : World} {event : Event} (step : Step world event after)
    (routed : Routed world.engine.state) (still : ∀ call, event ≠ .call call) :
    after.engine.state = world.engine.state ∧ StepEffect world after event := by
  cases step with
  | call call => exact absurd rfl (still call)
  | begin envelope => exact ⟨rfl, .begun rfl rfl rfl⟩
  | snapshot id order envelope current =>
    refine ⟨rfl, .quiet (fun _ => .refl _) (fun _ _ _ => rfl) rfl (envelopes_setPublish current)
      (ahead_setPublish_le current ?_)⟩
    intro pick
    simp only [Publish.ahead, Phase.fanOut, ← routed.collectTargets_eq order, Multiset.coe_countP,
      Bool.decide_eq_true, le_refl]
  | accepted id envelope tx subId rest sofar channel current sent =>
    refine ⟨rfl, .accepted channel sent rfl rfl (envelopes_setPublish current) ?_ ?_⟩
    · exact List.mem_map.mpr ⟨_, List.mem_of_getElem? current, rfl⟩
    · intro tracked pick
      have moved := @ahead_setPublish world id _
        ⟨envelope, .sending rest { sofar with delivered := sofar.delivered + 1 }⟩ current
          rfl tracked pick
      simp only [Publish.ahead, List.countP_cons] at moved
      change World.ahead (world.setPublish id _) tracked pick + _ = _
      cases known : tracked envelope with
      | false => simpa [known] using moved
      | true =>
        simp only [known, ↓reduceIte, Bool.true_and] at moved ⊢
        omega
  | refused id envelope tx subId rest sofar reason current failed =>
    refine ⟨rfl, .quiet (fun _ => .refl _) (fun _ _ _ => rfl) rfl (envelopes_setPublish current)
      (ahead_setPublish_le current ?_)⟩
    intro pick
    simp only [Publish.ahead, List.countP_cons]
    omega
  | countDelivered id envelope outcome current =>
    exact ⟨rfl, .quiet (fun _ => .refl _) (fun _ _ _ => rfl) rfl (envelopes_setPublish current)
      (ahead_setPublish_le current fun _ => le_rfl)⟩
  | countDropped id envelope outcome current =>
    exact ⟨rfl, .quiet (fun _ => .refl _) (fun _ _ _ => rfl) rfl (envelopes_setPublish current)
      (ahead_setPublish_le current fun _ => le_rfl)⟩
  | receive channel =>
    refine ⟨rfl, .quiet ?_ ?_ rfl rfl fun _ _ => le_rfl⟩
    · exact queue_update_sublist (List.tail_sublist _)
    · intro other reads _
      exact Function.update_of_ne (fun same => reads (by rw [same])) _ _
  | close channel =>
    refine ⟨rfl, .quiet ?_ ?_ rfl rfl fun _ _ => le_rfl⟩
    · exact queue_update_sublist (List.nil_sublist _)
    · intro other _ closes
      exact Function.update_of_ne (fun same => closes (by rw [same])) _ _

/-- What a step adds to what is owed: the targets of a publish that begins. -/
def brought (state : State) (tracked : Envelope → Bool) (pick : Sender × SubId → Bool) : Event → Nat
  | .begin envelope =>
    if tracked envelope then (state.plainScan envelope.route).countP fun target =>
      pick target = true else 0
  | _ => 0

section
variable {world after : World} {event : Event}

theorem ahead_begun {envelope : Envelope} (same : after.engine.state = world.engine.state)
    (publishes : after.publishes = world.publishes ++ [⟨envelope, .counted⟩])
    (tracked : Envelope → Bool) (pick : Sender × SubId → Bool) :
    after.ahead tracked pick =
      world.ahead tracked pick + brought world.engine.state tracked pick (.begin envelope) := by
  rw [World.ahead, publishes, same, List.map_append, List.sum_append, World.ahead, brought]
  simp [Publish.ahead]

/-- A target takes what was owed to it, and nothing else. -/
theorem StepEffect.taken_le (effect : StepEffect world after event)
    (same : after.engine.state = world.engine.state) (tracked : Envelope → Bool)
    (pick : Sender × SubId → Bool) :
    after.taken tracked pick + after.ahead tracked pick ≤
      world.taken tracked pick + world.ahead tracked pick +
          brought world.engine.state tracked pick event := by
  cases effect with
  | begun publishes channels enqueued =>
    rw [ahead_begun same publishes, World.taken, enqueued, World.taken]
    omega
  | accepted channel sent channels enqueued envelopes member ahead =>
    have owed := ahead tracked pick
    simp only [World.taken, enqueued, List.countP_append, List.countP_singleton, brought]
    omega
  | quiet channels untouched enqueued envelopes ahead =>
    have owed := ahead tracked pick
    rw [World.taken, enqueued, World.taken]
    omega

/-- A channel fills with what was owed to it, and nothing else. -/
theorem StepEffect.queued_le (effect : StepEffect world after event)
    (same : after.engine.state = world.engine.state) (tracked : Envelope → Bool) (tx : Sender) :
    after.queued tracked tx.channel + after.ahead tracked (fun target => target.1 == tx) ≤
      world.queued tracked tx.channel + world.ahead tracked (fun target => target.1 == tx) +
        brought world.engine.state tracked (fun target => target.1 == tx) event := by
  cases effect with
  | begun publishes channels enqueued =>
    rw [ahead_begun same publishes, World.queued, channels, World.queued]
    omega
  | @accepted subId envelope target id channel sent channels enqueued envelopes member ahead =>
    have owed := ahead tracked fun target => target.1 == tx
    simp only [World.queued, channels, brought]
    by_cases here : target = tx
    · subst here
      simp only [Function.update_self, Channel.queue_trySend sent, List.countP_append,
        List.countP_singleton]
      simp only [beq_self_eq_true, Bool.and_true] at owed
      omega
    · have apart : tx.channel ≠ target.channel := by
        intro same
        exact here (congrArg Sender.mk same.symm)
      rw [Function.update_of_ne apart]
      omega
  | quiet channels untouched enqueued envelopes ahead =>
    have owed := ahead tracked fun target => target.1 == tx
    have shorter := (channels tx.channel).countP_le (p := fun delivery => tracked delivery.envelope)
    simp only [World.queued]
    omega

end

end OaGateway.Core
