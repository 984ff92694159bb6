import OaGateway.Core.Concurrent

/-! In which order deliveries reach a subscriber while publishes interleave. -/
namespace OaGateway.Core

open Lib

/-- What has been put into one channel, and by which publish. -/
def World.log (world : World) (channel : Nat) : List (Nat × Sender × Delivery) :=
  world.enqueued.filter fun entry => entry.2.1.channel == channel

/-- Publish `id` has tried all its targets. -/
def World.Sent (world : World) (id : Nat) : Prop :=
  ∃ envelope phase, world.publishes[id]? = some ⟨envelope, phase⟩ ∧ phase ≠ .counted ∧
    phase.remaining = []

/-- Publish `id` has not read its targets, if it has begun at all. -/
def World.Unread (world : World) (id : Nat) : Prop :=
  ∀ publish, world.publishes[id]? = some publish → publish.phase = .counted

/-- A world and what the reader of each channel has taken from it. -/
structure Followed where
  world : World
  received : Nat → List Delivery

def Followed.taken (before : Followed) : Event → Nat → List Delivery
  | .receive channel =>
    Function.update before.received channel
      (before.received channel ++ (before.world.channels channel).queue.head?.toList)
  | _ => before.received

/-- Interleaved publishes with their readers, from empty channels on. -/
def followed : System Followed Event where
  initial start := concurrent.initial start.world ∧
    (∀ channel, (start.world.channels channel).queue = []) ∧
    ∀ channel, start.received channel = []
  step before event after := Step before.world event after.world ∧
    after.received = before.taken event

/-- An open channel holds what was put into it and not taken; of a closed one
only the first of it was taken. -/
def Followed.Kept (state : Followed) (channel : Nat) : Prop :=
  let box := state.world.channels channel
  let put := (state.world.log channel).map fun entry => entry.2.2
  (box.closed = false → state.received channel ++ box.queue = put) ∧
    (box.closed = true → box.queue = [] ∧ state.received channel <+: put)

section Steps
variable {before after : Followed} {event : Event} {channel : Nat} {id : Nat}

theorem closed_trySend {box sent : Channel Delivery} {message : Delivery}
    (accepted : box.trySend message = .ok sent) :
    box.closed = false ∧ sent.closed = false := by
  rw [Channel.trySend] at accepted
  split at accepted
  · cases accepted
  · rename_i opened
    split at accepted
    · cases accepted
      exact ⟨by simpa using opened, by simpa using opened⟩
    · cases accepted

theorem Followed.Kept.step (kept : before.Kept channel) (step : followed.step before event after) :
    after.Kept channel := by
  obtain ⟨moved, received⟩ := step
  obtain ⟨world, received⟩ := after
  simp only at moved received
  subst received
  cases moved with
  | call | begin | snapshot | refused | countDelivered | countDropped => exact kept
  | accepted own envelope tx subId rest sofar box current sent =>
    obtain ⟨opened, stays⟩ := closed_trySend sent
    by_cases here : tx.channel = channel
    · subst here
      refine ⟨fun _ => ?_, fun closed => ?_⟩
      · have level := kept.1 opened
        simp only [World.log, Followed.taken] at level ⊢
        simp [Channel.queue_trySend sent, ← List.append_assoc, level]
      · simp [stays] at closed
    · have elsewhere : Function.update before.world.channels tx.channel box channel =
        before.world.channels channel :=
        Function.update_of_ne (Ne.symm here) ..
      simpa [Followed.Kept, World.log, Followed.taken, elsewhere, here] using kept
  | receive own =>
    by_cases here : own = channel
    · subst here
      simp only [Followed.Kept, Followed.taken, Function.update_self, Channel.receive] at kept ⊢
      refine ⟨fun opened => ?_, fun closed => ?_⟩
      · have level := kept.1 opened
        cases queue : (before.world.channels own).queue with
        | nil => simpa [queue, World.log] using level
        | cons first rest => simpa [queue, World.log] using level
      · obtain ⟨empty, first⟩ := kept.2 closed
        simpa [empty, World.log] using first
    · have elsewhere : Function.update before.world.channels own
        (before.world.channels own).receive channel =
          before.world.channels channel := Function.update_of_ne (Ne.symm here) ..
      have untouched : before.taken (.receive own) channel = before.received channel :=
        Function.update_of_ne (Ne.symm here) ..
      simpa [Followed.Kept, World.log, elsewhere, untouched] using kept
  | close own =>
    by_cases here : own = channel
    · subst here
      have first : before.received own <+: (before.world.log own).map fun entry => entry.2.2 := by
        cases closed : (before.world.channels own).closed with
        | false =>
          rw [← kept.1 closed]
          exact List.prefix_append _ _
        | true => exact (kept.2 closed).2
      refine ⟨fun opened => ?_, fun _ => ⟨?_, first⟩⟩
      · simp [Channel.close] at opened
      · simp [Channel.close]
    · have elsewhere : Function.update before.world.channels own
        (before.world.channels own).close channel =
          before.world.channels channel := Function.update_of_ne (Ne.symm here) ..
      simpa [Followed.Kept, World.log, Followed.taken, elsewhere] using kept

theorem Followed.kept_of_run {start last : Followed} {events : List Event}
    (initial : followed.initial start) (run : followed.Run start events last) (channel : Nat) :
    last.Kept channel := by
  refine run.preserves (motive := fun state => state.Kept channel) ?_
    fun before event after step kept => kept.step step
  obtain ⟨⟨-, -, nothing⟩, empty, untaken⟩ := initial
  exact ⟨fun _ => by simp [World.log, empty, untaken, nothing],
    fun _ => ⟨empty channel, by simp [untaken]⟩⟩

theorem Followed.world_run {start last : Followed} {events : List Event}
    (run : followed.Run start events last) :
    concurrent.Run start.world events last.world := by
  induction run with
  | nil state => exact .nil state.world
  | cons step _ ih => exact .cons step.1 ih

/-- A publish that has tried its targets puts nothing more anywhere. -/
theorem World.Sent.step {world next : World} (sent : world.Sent id) (step : Step world event next) :
    next.Sent id ∧ next.enqueuedBy id = world.enqueuedBy id := by
  obtain ⟨envelope, phase, found, started, through⟩ := sent
  cases step.progress id with
  | idle same silent => exact ⟨⟨envelope, phase, by rwa [same], started, through⟩, silent⟩
  | begun absent => simp [absent] at found
  | read waiting =>
    rw [waiting] at found
    cases found
    exact absurd rfl started
  | tried current =>
    rw [current] at found
    cases found
    cases through
  | finished current moved read through silent =>
    rw [current] at found
    cases found
    exact ⟨⟨_, _, moved, read.2, through.2⟩, silent⟩

/-- Steps only add to what was put into channels. -/
theorem enqueued_prefix {world next : World} {events : List Event}
    (run : concurrent.Run world events next) :
    world.enqueued <+: next.enqueued := by
  induction run with
  | nil state => exact List.prefix_rfl
  | cons step _ ih =>
    refine List.IsPrefix.trans ?_ ih
    cases step with
    | accepted => exact List.prefix_append _ _
    | _ => exact List.prefix_rfl

theorem World.Sent.run {world next : World} {events : List Event} (sent : world.Sent id)
    (run : concurrent.Run world events next) : next.enqueuedBy id = world.enqueuedBy id := by
  induction run with
  | nil state => rfl
  | cons step _ ih =>
    obtain ⟨later, silent⟩ := sent.step step
    exact (ih later).trans silent

theorem World.Unread.silent {start world : World} {events : List Event} (unread : world.Unread id)
    (initial : concurrent.initial start) (run : concurrent.Run start events world) :
    world.enqueuedBy id = [] := by
  rcases Fanning.of_run initial run id with waiting | ⟨before, order, later, held, envelope,
    -, -, -, fanning⟩
  · exact waiting.silent
  · obtain ⟨phase, found, started, -⟩ := fanning.current
    exact absurd (unread _ found) started

end Steps

/-- Nothing is lost or overtaken on the way through a channel: its reader gets a
first part of what was put in, all of it while the channel is open, and if one
publish was through before another read its targets, then whatever the first put
into the channel comes before whatever the second did. -/
theorem received_in_order {start middle last : Followed} {events more : List Event}
    (initial : followed.initial start) (front : followed.Run start events middle)
    (back : followed.Run middle more last) (channel : Nat) :
    (last.received channel <+: (last.world.log channel).map fun entry => entry.2.2) ∧
      ((last.world.channels channel).closed = false →
        last.received channel ++ (last.world.channels channel).queue =
          (last.world.log channel).map fun entry => entry.2.2) ∧
      ∀ first second, middle.world.Sent first → middle.world.Unread second →
        ∃ early late, last.world.log channel = early ++ late ∧
          (∀ entry ∈ early, entry.1 ≠ second) ∧ ∀ entry ∈ late, entry.1 ≠ first := by
  have kept := Followed.kept_of_run initial (front.append back) channel
  refine ⟨?_, kept.1, fun first second sent unread => ?_⟩
  · cases closed : (last.world.channels channel).closed with
    | false =>
      rw [← kept.1 closed]
      exact List.prefix_append _ _
    | true => exact (kept.2 closed).2
  · have before := Followed.world_run front
    have after := Followed.world_run back
    obtain ⟨added, grown⟩ := enqueued_prefix after
    have nothing := unread.silent initial.1 before
    have done := sent.run after
    refine ⟨middle.world.log channel, added.filter fun entry => entry.2.1.channel ==
      channel, ?_, ?_, ?_⟩
    · rw [World.log, World.log, ← grown, List.filter_append]
    · intro entry member same
      have inside : entry ∈ middle.world.enqueued := (List.mem_filter.mp member).1
      have own : entry.2 ∈ middle.world.enqueuedBy second :=
        List.mem_map_of_mem (List.mem_filter.mpr ⟨inside, by simpa using same⟩)
      rw [nothing] at own
      cases own
    · intro entry member same
      have inside : entry ∈ added := (List.mem_filter.mp member).1
      rw [World.enqueuedBy, World.enqueuedBy, ← grown, List.filter_append, List.map_append] at done
      have none : (added.filter fun entry => entry.1 == first) = [] := by simpa using done
      have own : entry ∈ added.filter fun entry => entry.1 == first :=
        List.mem_filter.mpr ⟨inside, by simpa using same⟩
      rw [none] at own
      cases own

section Sample

private theorem sampleTarget :
    (Call.apply .default (.subscribe ⟨"owp"⟩ ⟨"1"⟩ (.wildcard "uci") ⟨0⟩)).collectTargets
      .unspecified (.wildcard "uci") = [(⟨0⟩, ⟨"1"⟩)] := by
  have keys : (Call.apply .default (.subscribe ⟨"owp"⟩ ⟨"1"⟩ (.wildcard "uci") ⟨0⟩)).candidateKeys
      (.wildcard "uci") = {⟨⟨"owp"⟩, ⟨"1"⟩⟩} := by decide
  rw [State.collectTargets, keys, IterOrder.toList_singleton]
  decide

/-- One publish, and a subscriber that has read it. -/
theorem sample_received : ∃ last events, followed.Run ⟨sampleWorld, fun _ => []⟩ events last ∧
    last.received 0 = [⟨⟨"1"⟩, sampleEnvelope⟩] ∧
    last.received 0 <+: (last.world.log 0).map fun entry => entry.2.2 := by
  have initial : followed.initial ⟨sampleWorld, fun _ => []⟩ :=
    ⟨⟨rfl, rfl, rfl⟩, fun _ => rfl, fun _ => rfl⟩
  obtain ⟨last, run, received⟩ : ∃ last, followed.Run ⟨sampleWorld, fun _ => []⟩
      [.call (.subscribe ⟨"owp"⟩ ⟨"1"⟩ (.wildcard "uci") ⟨0⟩), .begin sampleEnvelope,
        .snapshot 0 .unspecified, .offer 0, .receive 0] last ∧
            last.received 0 = [⟨⟨"1"⟩, sampleEnvelope⟩] := by
    have step {before : Followed} {event : Event} {world : World}
      (moved : Step before.world event world) :
        followed.step before event ⟨world, before.taken event⟩ := ⟨moved, rfl⟩
    refine ⟨_, .cons (step (.call _))
      (.cons (step (.begin _)) (.cons (step (.snapshot 0 _ sampleEnvelope rfl))
      (.cons (step (.accepted 0 sampleEnvelope ⟨0⟩ ⟨"1"⟩ [] ⟨1, 0, 0⟩
        ⟨1, [⟨⟨"1"⟩, sampleEnvelope⟩], false⟩ ?_ rfl))
        (.single (step (.receive 0)))))), rfl⟩
    have targets := sampleTarget
    simp [World.setPublish, sampleWorld, Engine.new, Phase.fanOut, sampleEnvelope,
      Envelope.new, targets]
  exact ⟨last, _, run, received, (received_in_order initial (.nil _) run 0).1⟩

end Sample

end OaGateway.Core
