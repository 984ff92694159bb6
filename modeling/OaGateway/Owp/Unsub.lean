import OaGateway.Owp.Fatal

/-! Whether an `UNSUB` is final. A forwarder runs on a worker of its own, and an
abort takes effect only where it suspends. -/
namespace OaGateway.Owp

open Lib OaGateway.Core

/-- A session with the forwarders that are being polled. -/
structure Scheduled where
  session : SessionState
  running : Nat → Bool

/-- A step of the session, or of the runtime with one of its forwarders. -/
inductive Turn where
  | session (event : Event)
  /-- A worker polls a forwarder. An aborted one is dropped instead. -/
  | wake (index : Nat)
  /-- The forwarder awaits something. -/
  | suspend (index : Nat)

/-- The forwarder that takes a step while it is polled. -/
def Event.polled : Event → Option Nat
  | .take index | .queue index | .finish index | .settle (.forwarder index) => some index
  | _ => none

namespace Scheduled

def start : Scheduled := ⟨.start, fun _ => false⟩

/-- Only a polled forwarder moves, and only a suspended one is dropped. -/
def allows (scheduled : Scheduled) (event : Event) : Bool :=
  match event.polled with
  | some index => scheduled.running index
  | none =>
    match event with
    | .drop index => !scheduled.running index
    | _ => true

/-- The forwarder that has to wait, or is done, after a step. -/
def parks (after : SessionState) : Event → Option Nat
  | .queue index =>
    match after.forwarders[index]? with
    | some ⟨_, _, .sending, _⟩ => some index
    | _ => none
  | .finish index => some index
  | _ => none

def park (running : Nat → Bool) : Option Nat → Nat → Bool
  | some index => Function.update running index false
  | none => running

section
variable (crates : OwpCrates) (session : Session)

def step (scheduled : Scheduled) : Turn → Option Scheduled
  | .session event =>
    if scheduled.allows event then
      (scheduled.session.step crates session event).map fun after =>
        ⟨after, park scheduled.running (parks after event)⟩
    else none
  | .wake index =>
    match scheduled.session.forwarders[index]? with
    | some ⟨_, _, stage, aborted⟩ =>
      match stage, aborted with
      | .ended, _ | _, true => none
      | _, false => some { scheduled with running := Function.update scheduled.running index true }
    | none => none
  | .suspend index =>
    some { scheduled with running := Function.update scheduled.running index false }

end

end Scheduled

def scheduledSystem (crates : OwpCrates) (session : Session) : System Scheduled Turn where
  initial scheduled := scheduled = .start
  step before turn after := before.step crates session turn = some after

/-- A turn in which a frame of one forwarder enters the queue. -/
def Puts (state : SessionState) (index : Nat) : Turn → Prop
  | .session (.queue other) => other = index ∧ state.out.occupied < defaultChannelCapacity
  | .session (.settle (.forwarder other)) => other = index
  | _ => False

/-- A turn in which the session handles the `UNSUB` of a live subscription. -/
def Unsubscribes (crates : OwpCrates) (session : Session) (state : SessionState) (sid : String)
    (live : LiveSub) :
    Turn → Prop
  | .session (.incoming message answers) =>
    ∃ outcome, state.respond crates session answers message = some outcome ∧
      outcome.effect = .unsubscribe sid live
  | _ => False

/-- No forwarder is aborted by an `UNSUB` while it is polled. -/
def AbortsSuspended (crates : OwpCrates) (session : Session) (before : Scheduled)
    (turn : Turn) : Prop :=
  ∀ sid live, Unsubscribes crates session before.session sid live turn →
    before.running live.forwarder = false

/-- What becomes of each forwarder in a step: it stays where it is, under its sid. -/
def Persists (before after : List Forwarder) : Prop :=
  ∀ (index : Nat) (old : Forwarder), before[index]? = some old →
    ∃ new, after[index]? = some new ∧ new.sid = old.sid ∧ (old.aborted = true → new.aborted = true)

/-- What a step makes of the subscriptions and of their forwarders, where an
abort has been asked for. -/
inductive Shift (asked : String → LiveSub → Prop) (before after : SessionState) : Prop where
  | same (subs : after.subs = before.subs) (persists : Persists before.forwarders after.forwarders)
      (length : after.forwarders.length = before.forwarders.length)
  | stop (persists : Persists before.forwarders after.forwarders)
      (length : after.forwarders.length = before.forwarders.length)
        (stopped : after.task = .stopped)
  | subscribe (sid : String) (engineSub : SubId) (fresh : findSub before.subs sid = none)
      (forwarders : after.forwarders = before.forwarders ++ [⟨sid, [], .idle, false⟩])
      (subs : after.subs = before.subs ++ [(sid, ⟨engineSub, before.forwarders.length⟩)])
  | unsubscribe (sid : String) (live : LiveSub) (asks : asked sid live)
      (found : findSub before.subs sid = some live)
      (forwarders : after.forwarders = before.forwarders.modify live.forwarder SessionState.abort)
      (subs : after.subs = before.subs.filter fun sub => sub.1 != sid)

section Forwarders
variable {crates : OwpCrates} {session : Session} {before middle after : SessionState}
  {event : Event}
  {asked : String → LiveSub → Prop}

theorem Persists.refl (list : List Forwarder) : Persists list list :=
  fun _ old found => ⟨old, found, rfl, id⟩

theorem Persists.trans {first second third : List Forwarder} (one : Persists first second)
    (two : Persists second third) :
    Persists first third := by
  intro index old found
  obtain ⟨middle, here, sid, marked⟩ := one index old found
  obtain ⟨new, there, same, kept⟩ := two index middle here
  exact ⟨new, there, same.trans sid, fun aborted => kept (marked aborted)⟩

theorem Persists.modify (list : List Forwarder) (place : Nat) {change : Forwarder → Forwarder}
    (kept : ∀ old, (change old).sid = old.sid ∧
      (old.aborted = true → (change old).aborted = true)) :
    Persists list (list.modify place change) := by
  intro index old found
  rw [List.getElem?_modify, found]
  by_cases here : place = index
  · exact ⟨change old, by simp [here], kept old⟩
  · exact ⟨old, by simp [here], rfl, id⟩

theorem Persists.mapIdx (list : List Forwarder) {change : Nat → Forwarder → Forwarder}
    (kept : ∀ index old, (change index old).sid = old.sid ∧
      (old.aborted = true → (change index old).aborted = true)) :
    Persists list (list.mapIdx change) := by
  intro index old found
  rw [List.getElem?_mapIdx, found]
  exact ⟨change index old, rfl, kept index old⟩

theorem Persists.set {list : List Forwarder} {place : Nat} {old new : Forwarder}
    (found : list[place]? = some old) (sid : new.sid = old.sid)
    (aborted : new.aborted = old.aborted) : Persists list (list.set place new) := by
  intro index other present
  by_cases here : place = index
  · subst here
    rw [found] at present
    cases present
    have bound := (List.getElem?_eq_some_iff.mp found).1
    exact ⟨new, by simp [bound], sid, fun marked => by rw [aborted, marked]⟩
  · exact ⟨other, by rw [List.getElem?_set_ne here, present], rfl, id⟩

theorem Shift.of_stop (forwarders : middle.forwarders = before.forwarders) :
    Shift asked before middle.stop := by
  refine .stop ?_ ?_ rfl
  · rw [← forwarders]
    refine .mapIdx _ fun index old => ?_
    split
    · exact ⟨rfl, fun _ => rfl⟩
    · exact ⟨rfl, id⟩
  · rw [← forwarders]
    exact List.length_mapIdx ..

theorem Shift.of_eq (subs : after.subs = before.subs)
    (forwarders : after.forwarders = before.forwarders) :
    Shift asked before after :=
  .same subs (by rw [forwarders]; exact .refl _) (by rw [forwarders])

/-- What a frame does to the subscriptions is checked against them. -/
def Effect.Valid (subs : List (String × LiveSub)) : Effect → Prop
  | .subscribe sid _ _ => findSub subs sid = Option.none
  | .unsubscribe sid live => findSub subs sid = some live
  | _ => True

theorem handleText_valid :
    (handleText crates session answers phase subs text).effect.Valid subs := by
  rw [handleText]
  split
  · trivial
  · split
    · split
      · rw [handleInit]
        split <;> trivial
      · trivial
    · split
      · trivial
      · rw [handlePub]
        split <;> trivial
      · simp only [handleSub]
        split
        · trivial
        · rename_i fresh
          split
          · trivial
          · split
            · trivial
            · exact Option.not_isSome_iff_eq_none.mp (by simpa using fresh)
      · rw [handleUnsub]
        split
        · rename_i live found
          exact found
        · trivial

theorem shift_perform {effect : Effect} (valid : effect.Valid before.subs)
    (asks : ∀ sid live, effect = .unsubscribe sid live → asked sid live) (task : Task) :
    Shift asked before { before.perform effect with task } := by
  cases effect with
  | none | publish => exact .of_eq rfl rfl
  | subscribe sid engineSub route => exact .subscribe sid engineSub valid rfl rfl
  | unsubscribe sid live => exact .unsubscribe sid live (asks sid live rfl) valid rfl rfl

theorem shift_read {message : Incoming} :
    Shift (fun sid live => Unsubscribes crates session before sid live
      (.session (.incoming message answers))) before
      (before.read crates session answers message) := by
  cases message with
  | text text => exact shift_perform handleText_valid (fun sid live effect => ⟨_, rfl, effect⟩) _
  | binary => exact .of_eq rfl rfl
  | ping data => exact .of_eq rfl rfl
  | close => exact .of_stop rfl
  | pong | frame => exact .of_eq rfl rfl

/-- A change that is none of the subscription's. -/
def Keeps (change : Forwarder → Option Forwarder) : Prop :=
  ∀ old new, change old = some new → new.sid = old.sid ∧ new.aborted = old.aborted

theorem deliver_keeps (envelope : Envelope) : Keeps (SessionState.deliver envelope) := by
  intro old new changed
  rw [SessionState.deliver] at changed
  split at changed
  · cases changed
  · split at changed
    · cases changed
      exact ⟨rfl, rfl⟩
    · cases changed

theorem take_keeps : Keeps (SessionState.take crates session) := by
  intro old new changed
  rw [SessionState.take] at changed
  split at changed
  · split at changed <;> cases changed <;> exact ⟨rfl, rfl⟩
  · cases changed

theorem finish_keeps : Keeps SessionState.finish := by
  intro old new changed
  rw [SessionState.finish] at changed
  split at changed
  · cases changed
    exact ⟨rfl, rfl⟩
  · cases changed

theorem drop_keeps : Keeps SessionState.drop := by
  intro old new changed
  rw [SessionState.drop] at changed
  split at changed
  · cases changed
  · split at changed
    · cases changed
      exact ⟨rfl, rfl⟩
    · cases changed

theorem shift_advance {change : Forwarder → Option Forwarder} (kept : Keeps change)
    (moved : before.advance index change = some after) : Shift asked before after := by
  rw [SessionState.advance] at moved
  split at moved
  · cases moved
  · rename_i new changed
    cases moved
    obtain ⟨old, found, changed⟩ := Option.bind_eq_some_iff.mp changed
    obtain ⟨sid, aborted⟩ := kept old new changed
    exact .same rfl (.set found sid aborted) (by simp)

theorem shift_reply (moved : before.reply = some after) : Shift asked before after := by
  rw [SessionState.reply] at moved
  split at moved
  · cases moved
    split
    · exact .of_stop rfl
    · exact .of_eq rfl rfl
  · cases moved
    exact .of_eq rfl rfl
  · cases moved

theorem shift_settle {party : Party} (moved : before.settle party = some after) :
    Shift asked before after := by
  rw [SessionState.settle] at moved
  split at moved
  · cases moved
  · cases party with
    | forwarder index =>
      cases moved
      exact .same rfl (.modify _ _ fun old => ⟨rfl, id⟩) (by simp)
    | task =>
      simp only at moved
      split at moved
      · cases moved
        exact .of_eq rfl rfl
      · cases moved

theorem shift_queue (moved : before.queue index = some after) : Shift asked before after := by
  rw [SessionState.queue] at moved
  split at moved
  · rename_i sid inbox op aborted found
    cases moved
    exact .same rfl (.set found rfl rfl) (by simp)
  · cases moved

/-- The forwarders and the subscriptions move in no other way. -/
theorem step_shift (moved : before.step crates session event = some after) :
    Shift (fun sid live => Unsubscribes crates session before sid live (.session event))
      before after := by
  cases event with
  | cancel =>
    cases moved
    exact .of_eq rfl rfl
  | shutdown =>
    simp only [SessionState.step, SessionState.select_eq_some, Option.ite_none_right_eq_some,
      Option.some.injEq] at moved
    obtain ⟨-, -, rfl⟩ := moved
    exact .of_stop rfl
  | timeout =>
    simp only [SessionState.step, SessionState.select_eq_some, Option.map_eq_some_iff] at moved
    obtain ⟨-, reason, -, rfl⟩ := moved
    exact .of_eq rfl rfl
  | recv =>
    simp only [SessionState.step, SessionState.select_eq_some, Option.map_eq_some_iff] at moved
    obtain ⟨-, taken, -, rfl⟩ := moved
    exact .of_eq rfl rfl
  | hangup =>
    simp only [SessionState.step, SessionState.select_eq_some, Option.some.injEq] at moved
    obtain ⟨-, rfl⟩ := moved
    exact .of_stop rfl
  | incoming message answers =>
    simp only [SessionState.step, SessionState.select_eq_some, Option.some.injEq] at moved
    obtain ⟨-, rfl⟩ := moved
    exact shift_read
  | written success =>
    simp only [SessionState.step] at moved
    split at moved
    · rename_i message writing
      cases moved
      cases message with
      | op op =>
        cases success with
        | true => exact .of_eq rfl rfl
        | false => exact .of_stop rfl
      | pong data => exact .of_eq rfl rfl
      | close reason => exact .of_stop rfl
    · cases moved
  | reply => exact shift_reply moved
  | settle party => exact shift_settle moved
  | queue index => exact shift_queue moved
  | deliver index envelope => exact shift_advance (deliver_keeps envelope) moved
  | take index => exact shift_advance take_keeps moved
  | finish index => exact shift_advance finish_keeps moved
  | drop index =>
    simp only [SessionState.step, Option.map_eq_some_iff] at moved
    obtain ⟨middle, moved, rfl⟩ := moved
    cases shift_advance drop_keeps moved with
    | same subs persists length => exact .same subs persists length
    | stop persists length stopped => exact .stop persists length stopped
    | subscribe sid engineSub fresh forwarders subs =>
      exact .subscribe sid engineSub fresh forwarders subs
    | unsubscribe sid live asks found forwarders subs =>
      exact .unsubscribe sid live asks found forwarders subs

/-- A forwarder outlives every step, and an abort is not taken back. -/
theorem Shift.persists (shift : Shift asked before after) :
    Persists before.forwarders after.forwarders ∧
      before.forwarders.length ≤ after.forwarders.length := by
  cases shift with
  | same subs persists length | stop persists length => exact ⟨persists, length.ge⟩
  | subscribe sid engineSub fresh forwarders subs =>
    rw [forwarders]
    refine ⟨fun index old found => ⟨old, ?_, rfl, id⟩, by simp⟩
    rw [List.getElem?_append_left (List.getElem?_eq_some_iff.mp found).1, found]
  | unsubscribe sid live asks found forwarders subs =>
    rw [forwarders]
    exact ⟨.modify _ _ fun old => ⟨rfl, fun _ => rfl⟩, by simp⟩

end Forwarders

section Silence
variable {crates : OwpCrates} {session : Session} {before after : Scheduled}
  {turn : Turn} {index : Nat}

/-- A forwarder that was aborted, and is not being polled. -/
def Scheduled.Silent (scheduled : Scheduled) (index : Nat) : Prop :=
  (∃ forwarder, scheduled.session.forwarders[index]? = some forwarder ∧ forwarder.aborted = true) ∧
    scheduled.running index = false

theorem park_eq_false {running : Nat → Bool} (still : running index = false) (parked : Option Nat) :
    Scheduled.park running parked index = false := by
  cases parked with
  | none => exact still
  | some other =>
    by_cases same : index = other
    · simp [Scheduled.park, same]
    · simp [Scheduled.park, same, still]

/-- A session's turn, once the schedule allows it. -/
theorem step_session (moved : before.step crates session (.session event) = some after) :
    before.allows event = true ∧ ∃ next, before.session.step crates session event = some next ∧
      after = ⟨next, Scheduled.park before.running (Scheduled.parks next event)⟩ := by
  simp only [Scheduled.step, Option.ite_none_right_eq_some, Option.map_eq_some_iff] at moved
  obtain ⟨allowed, next, stepped, rfl⟩ := moved
  exact ⟨allowed, next, stepped, rfl⟩

theorem step_wake (moved : before.step crates session (.wake index) = some after) :
    (∃ forwarder, before.session.forwarders[index]? = some forwarder ∧ forwarder.aborted = false) ∧
      after = { before with running := Function.update before.running index true } := by
  simp only [Scheduled.step] at moved
  split at moved
  · rename_i sid inbox stage aborted found
    split at moved
    · cases moved
    · cases moved
    · cases moved
      exact ⟨⟨_, found, rfl⟩, rfl⟩
  · cases moved

/-- Once silent, a forwarder stays so. -/
theorem Scheduled.Silent.step (silent : before.Silent index)
    (moved : before.step crates session turn = some after) :
    after.Silent index := by
  obtain ⟨⟨forwarder, found, aborted⟩, still⟩ := silent
  cases turn with
  | session event =>
    obtain ⟨-, next, stepped, rfl⟩ := step_session moved
    obtain ⟨new, kept, -, marked⟩ := (step_shift stepped).persists.1 index forwarder found
    exact ⟨⟨new, kept, marked aborted⟩, park_eq_false still _⟩
  | wake other =>
    obtain ⟨⟨woken, present, alive⟩, rfl⟩ := step_wake moved
    refine ⟨⟨forwarder, found, aborted⟩, ?_⟩
    have apart : index ≠ other := by
      rintro rfl
      rw [found] at present
      cases present
      rw [alive] at aborted
      cases aborted
    simp [apart, still]
  | suspend other =>
    cases moved
    refine ⟨⟨forwarder, found, aborted⟩, ?_⟩
    by_cases same : index = other
    · simp [same]
    · simp [same, still]

/-- A silent forwarder queues nothing. -/
theorem Scheduled.Silent.not_puts (silent : before.Silent index)
    (moved : before.step crates session turn = some after) :
    ¬ Puts before.session index turn := by
  intro puts
  cases turn with
  | session event =>
    have allowed := (step_session moved).1
    cases event with
    | queue other =>
      obtain ⟨rfl, -⟩ := puts
      simp [Scheduled.allows, Event.polled, silent.2] at allowed
    | settle party =>
      cases party with
      | task => exact puts
      | forwarder other =>
        obtain rfl : other = index := puts
        simp [Scheduled.allows, Event.polled, silent.2] at allowed
    | _ => exact puts
  | wake | suspend => exact puts

end Silence

section Account
variable {crates : OwpCrates} {session : Session}

/-- A session that is over stays over. -/
theorem stopped_step {before after : SessionState} {event : Event}
    (stopped : before.task = .stopped) (moved : before.step crates session event = some after) :
    after.task = .stopped := by
  cases event with
  | cancel =>
    cases moved
    exact stopped
  | shutdown | timeout | recv | hangup | incoming =>
    simp [SessionState.step, stopped] at moved
  | written success => simp [SessionState.step, stopped] at moved
  | reply => simp [SessionState.step, SessionState.reply, stopped] at moved
  | settle party =>
    simp only [SessionState.step, SessionState.settle, stopped] at moved
    split at moved
    · cases moved
    · cases party with
      | forwarder index =>
        cases moved
        rfl
      | task => cases moved
  | queue index =>
    simp only [SessionState.step, SessionState.queue] at moved
    split at moved
    · cases moved
      exact stopped
    · cases moved
  | deliver index envelope | take index | finish index =>
    rw [(SessionState.advance_frame moved).2, stopped]
  | drop index =>
    simp only [SessionState.step, Option.map_eq_some_iff] at moved
    obtain ⟨middle, moved, rfl⟩ := moved
    exact (SessionState.advance_frame moved).2.trans stopped

variable {before after : Scheduled} {turn : Turn}

/-- Each forwarder serves a subscription of the table, or is silent. -/
structure Scheduled.Accounted (scheduled : Scheduled) : Prop where
  distinct : (scheduled.session.subs.map Prod.fst).Nodup
  known : ∀ (index : Nat) (forwarder : Forwarder), scheduled.session.forwarders[index]? =
    some forwarder →
    (∃ engineSub, (forwarder.sid, ⟨engineSub, index⟩) ∈ scheduled.session.subs) ∨
      scheduled.Silent index
  served : ∀ sid live, (sid, live) ∈ scheduled.session.subs →
    ∃ forwarder, scheduled.session.forwarders[live.forwarder]? = some forwarder ∧
      forwarder.sid = sid

theorem mem_of_findSub {subs : List (String × LiveSub)} {sid : String} {live : LiveSub}
    (found : findSub subs sid = some live) : (sid, live) ∈ subs := by
  obtain ⟨entry, first, rfl⟩ := Option.map_eq_some_iff.mp found
  have named : entry.1 = sid := by simpa using List.find?_some first
  rw [← named]
  exact List.mem_of_find?_eq_some first

theorem not_mem_of_findSub {subs : List (String × LiveSub)} {sid : String}
    (absent : findSub subs sid = none) :
    sid ∉ subs.map Prod.fst := by
  rw [findSub, Option.map_eq_none_iff, List.find?_eq_none] at absent
  rintro member
  obtain ⟨entry, present, rfl⟩ := List.mem_map.mp member
  exact absent entry present (by simp)

/-- A forwarder that is there after a step was there before, or is new. -/
theorem Persists.back {before after : List Forwarder} (persists : Persists before after)
    {index : Nat} {new : Forwarder} (found : after[index]? = some new)
    (inside : index < before.length) :
    ∃ old, before[index]? = some old ∧ new.sid = old.sid := by
  obtain ⟨kept, present, sid, -⟩ := persists index before[index] (List.getElem?_eq_getElem inside)
  rw [found] at present
  cases present
  exact ⟨_, List.getElem?_eq_getElem inside, sid⟩

theorem Persists.served {before after : List Forwarder} (persists : Persists before after)
    {sid : String} {place : Nat}
    (was : ∃ forwarder, before[place]? = some forwarder ∧ forwarder.sid = sid) :
    ∃ forwarder, after[place]? = some forwarder ∧ forwarder.sid = sid := by
  obtain ⟨old, found, named⟩ := was
  obtain ⟨new, present, same, -⟩ := persists place old found
  exact ⟨new, present, same.trans named⟩

/-- One sid, one entry of the table. -/
theorem Scheduled.Accounted.unique (accounted : before.Accounted) {sid : String}
    {first second : LiveSub} (one : (sid, first) ∈ before.session.subs)
    (other : (sid, second) ∈ before.session.subs) : first = second :=
  congrArg Prod.snd (List.inj_on_of_nodup_map accounted.distinct one other rfl)

/-- An `UNSUB` of a suspended forwarder leaves nobody but silent ones under its sid. -/
theorem silent_of_unsubscribe (accounted : before.Accounted) {sid : String} {live : LiveSub}
    (still : before.running live.forwarder = false)
    (found : findSub before.session.subs sid = some live)
    (marked : after.session.forwarders = before.session.forwarders.modify live.forwarder
      SessionState.abort)
    (quiet : ∀ index, before.Silent index → after.Silent index)
    (resting : ∀ index, before.running index = false → after.running index = false) {index : Nat}
    {new : Forwarder} (present : after.session.forwarders[index]? = some new)
    (named : new.sid = sid) : after.Silent index := by
  have persists : Persists before.session.forwarders after.session.forwarders := by
    rw [marked]
    exact .modify _ _ fun old => ⟨rfl, fun _ => rfl⟩
  have inside := (List.getElem?_eq_some_iff.mp present).1
  rw [marked, List.length_modify] at inside
  obtain ⟨old, was, same⟩ := persists.back present inside
  rcases accounted.known index old was with ⟨engineSub, member⟩ | silent
  · rw [← same, named] at member
    obtain rfl := accounted.unique member (mem_of_findSub found)
    rw [marked, List.getElem?_modify, was] at present
    refine ⟨⟨new, by rw [marked, List.getElem?_modify, was, present], ?_⟩, resting index still⟩
    simp at present
    rw [← present]
    rfl
  · exact quiet index silent

theorem accounted_session {event : Event} (accounted : before.Accounted)
    (allowed : AbortsSuspended crates session before (.session event))
    (moved : before.step crates session (.session event) = some after) :
    after.session.task = .stopped ∨ after.Accounted := by
  have onward (index : Nat) (silent : before.Silent index) : after.Silent index := silent.step moved
  obtain ⟨-, next, stepped, rfl⟩ := step_session moved
  cases step_shift stepped with
  | stop persists length stopped => exact .inl stopped
  | same subs persists length =>
    refine .inr
      ⟨by rw [subs]; exact accounted.distinct, fun index new found => ?_, fun sid live member => ?_⟩
    · have inside := (List.getElem?_eq_some_iff.mp found).1
      obtain ⟨old, present, sid⟩ := persists.back found (length ▸ inside)
      rw [sid, subs]
      exact (accounted.known index old present).imp id (onward index)
    · rw [subs] at member
      exact persists.served (accounted.served sid live member)
  | subscribe sid engineSub fresh forwarders subs =>
    have persists := (step_shift stepped).persists.1
    refine .inr ⟨?_, fun index new found => ?_, fun name live member => ?_⟩
    · rw [subs, List.map_append]
      exact List.nodup_append.mpr ⟨accounted.distinct, List.nodup_singleton _,
          fun one member other here => by
        rintro rfl
        obtain rfl : one = sid := List.mem_singleton.mp here
        exact not_mem_of_findSub fresh member⟩
    · rw [forwarders] at found
      rw [subs]
      by_cases old : index < before.session.forwarders.length
      · rw [List.getElem?_append_left old] at found
        refine (accounted.known index new found).imp ?_ (onward index)
        rintro ⟨served, member⟩
        exact ⟨served, List.mem_append_left _ member⟩
      · have place : index = before.session.forwarders.length := by
          have bound := (List.getElem?_eq_some_iff.mp found).1
          rw [List.length_append, List.length_singleton] at bound
          omega
        subst place
        rw [List.getElem?_append_right (le_refl _), Nat.sub_self] at found
        cases found
        exact .inl ⟨engineSub, by simp⟩
    · rw [subs] at member
      rcases List.mem_append.mp member with old | new
      · exact persists.served (accounted.served name live old)
      · cases List.mem_singleton.mp new
        exact ⟨⟨sid, [], .idle, false⟩, by rw [forwarders]; simp, rfl⟩
  | unsubscribe sid live asks found forwarders subs =>
    have still := allowed sid live asks
    have persists := (step_shift stepped).persists.1
    refine .inr ⟨?_, fun index new present => ?_, fun name other member => ?_⟩
    · rw [subs]
      exact accounted.distinct.sublist (List.filter_sublist.map Prod.fst)
    · by_cases named : new.sid = sid
      · exact .inr (silent_of_unsubscribe accounted still found forwarders onward
          (fun index rests => park_eq_false rests _) present named)
      · have inside := (List.getElem?_eq_some_iff.mp present).1
        simp only [forwarders, List.length_modify] at inside
        obtain ⟨old, was, same⟩ := persists.back present inside
        refine (accounted.known index old was).imp ?_ (onward index)
        rintro ⟨served, member⟩
        refine ⟨served, ?_⟩
        simp only [subs, List.mem_filter]
        exact ⟨by rw [same]; exact member, by simpa using named⟩
    · rw [subs] at member
      exact persists.served (accounted.served name other (List.mem_filter.mp member).1)

theorem accounted_step (accounted : before.session.task = .stopped ∨ before.Accounted)
    (allowed : AbortsSuspended crates session before turn)
    (moved : before.step crates session turn = some after) :
    after.session.task = .stopped ∨ after.Accounted := by
  have unmoved (same : after.session = before.session) : after.session.task = .stopped ∨
      after.Accounted := by
    rw [same]
    refine accounted.imp id fun accounted =>
      ⟨by rw [same]; exact accounted.distinct, fun index forwarder found =>
        ?_, by rw [same]; exact accounted.served⟩
    rw [same] at found ⊢
    exact (accounted.known index forwarder found).imp id fun silent => silent.step moved
  cases turn with
  | wake index =>
    obtain ⟨-, rfl⟩ := step_wake moved
    exact unmoved rfl
  | suspend index =>
    cases moved
    exact unmoved rfl
  | session event =>
    rcases accounted with stopped | accounted
    · obtain ⟨-, next, stepped, rfl⟩ := step_session moved
      exact .inl (stopped_step stopped stepped)
    · exact accounted_session accounted allowed moved

/-- Forwarders outlive every turn, too. -/
theorem persists_turn (moved : before.step crates session turn = some after) :
    Persists before.session.forwarders after.session.forwarders := by
  cases turn with
  | session event =>
    obtain ⟨-, next, stepped, rfl⟩ := step_session moved
    exact (step_shift stepped).persists.1
  | wake index =>
    obtain ⟨-, rfl⟩ := step_wake moved
    exact .refl _
  | suspend index =>
    cases moved
    exact .refl _

/-- The turn of an `UNSUB`: the session was in `select!`, and the forwarder of
the table is aborted. -/
theorem unsubscribes_step {sid : String} {live : LiveSub}
    (asks : Unsubscribes crates session before.session sid live turn)
    (moved : before.step crates session turn = some after) :
    before.session.task = .selecting ∧ findSub before.session.subs sid = some live ∧
      after.session.forwarders = before.session.forwarders.modify live.forwarder
        SessionState.abort ∧
      ∀ index, before.running index = false → after.running index = false := by
  cases turn with
  | wake | suspend => exact asks.elim
  | session event =>
    obtain ⟨-, next, stepped, rfl⟩ := step_session moved
    cases event with
    | incoming message answers =>
      simp only [SessionState.step, SessionState.select_eq_some, Option.some.injEq] at stepped
      obtain ⟨selecting, rfl⟩ := stepped
      obtain ⟨outcome, handled, effect⟩ := asks
      cases message with
      | text text =>
        cases handled
        have valid := @handleText_valid crates session answers before.session.phase
          before.session.subs text
        rw [effect] at valid
        refine ⟨selecting, valid, ?_, fun index rests => rests⟩
        simp only [SessionState.read, SessionState.respond, effect]
        rfl
      | binary =>
        cases handled
        cases effect
      | ping | pong | frame | close => cases handled
    | _ => exact asks.elim

/-- Where no `UNSUB` aborts a forwarder that is being polled, none is answered
too early: what is queued for its sid from then on comes from forwarders that a
later `SUB` started. -/
theorem unsub_final {sid : String} {live : LiveSub} {unsubscribed later : Scheduled}
    {turns : List Turn} {next : Turn}
    (reached : ((scheduledSystem crates session).restrict
      (AbortsSuspended crates session)).Reachable before)
    (asks : Unsubscribes crates session before.session sid live turn)
    (unsub : ((scheduledSystem crates session).restrict (AbortsSuspended crates session)).step
      before turn unsubscribed)
    (run : ((scheduledSystem crates session).restrict (AbortsSuspended crates session)).Run
      unsubscribed turns later)
    (moved : ((scheduledSystem crates session).restrict (AbortsSuspended crates session)).step
      later next after)
    {index : Nat} {forwarder : Forwarder} (puts : Puts later.session index next)
    (found : later.session.forwarders[index]? = some forwarder) :
    index ≠ live.forwarder ∧ (forwarder.sid = sid →
      unsubscribed.session.forwarders.length ≤ index) := by
  obtain ⟨suspended, unsub⟩ := unsub
  obtain ⟨selecting, present, marked, resting⟩ := unsubscribes_step asks unsub
  have accounted : before.Accounted := by
    have always := reached.invariant (motive := fun state => state.session.task = .stopped ∨
      state.Accounted)
      (by rintro _ rfl; exact .inr ⟨List.nodup_nil, nofun, nofun⟩)
      fun _ _ _ step holds => accounted_step holds step.1 step.2
    refine always.resolve_left ?_
    rw [selecting]
    nofun
  have still := suspended sid live asks
  -- everybody under the sid is silent, and stays so
  have silent {place : Nat} {old : Forwarder}
    (there : unsubscribed.session.forwarders[place]? = some old)
      (named : old.sid = sid) : later.Silent place := by
    refine run.preserves (motive := fun state => state.Silent place) ?_ fun _ _ _ step quiet =>
      quiet.step step.2
    exact silent_of_unsubscribe accounted still present marked (fun _ quiet => quiet.step unsub)
      resting there named
  have persists : Persists unsubscribed.session.forwarders later.session.forwarders := by
    refine run.preserves
      (motive := fun state => Persists unsubscribed.session.forwarders state.session.forwarders)
      (.refl _) fun _ _ _ step before => ?_
    exact before.trans (persists_turn step.2)
  have apart : forwarder.sid = sid → unsubscribed.session.forwarders.length ≤ index := by
    intro named
    by_contra early
    obtain ⟨old, there, same⟩ := persists.back found (Nat.not_le.mp early)
    exact (silent there (same.symm.trans named)).not_puts moved.2 puts
  refine ⟨?_, apart⟩
  rintro rfl
  obtain ⟨old, there, named⟩ := (persists_turn unsub).served
    (accounted.served sid live (mem_of_findSub present))
  exact (silent there named).not_puts moved.2 puts

end Account

section Samples

/-- A JSON parser that knows one `INIT`, of a client that wants every answer. -/
def verboseCrates : OwpCrates :=
  { initCrates with initParse := fun _ => .ok ⟨["1.0"], "002.5.0", some true, "demo"⟩ }

/-- The first `SUB` of a client, up to a delivery that a worker has just made a
frame of. -/
def upToDelivery : List Turn :=
  [.session (.incoming (.text ("INIT " ++ initBody)) sampleAnswers), .session .reply,
    .session .reply, .session .reply, .session (.incoming (.text "SUB s1 Ping demo") sampleAnswers),
      .session .reply, .session .reply,
    .session (.deliver 0 pingEnvelope), .wake 0, .session (.take 0)]

/-- `UNSUB`, its answer, and a `SUB` of something else under the same sid. -/
def resubscribed : List Turn :=
  [.session (.incoming (.text "UNSUB s1") sampleAnswers), .session .reply, .session .reply,
    .session (.incoming (.text "SUB s1 Pong other") sampleAnswers), .session .reply,
      .session .reply]

/-- The aborted forwarder is still running, and its frame follows both answers. -/
theorem unsub_overtaken : ∃ before after last,
    (scheduledSystem verboseCrates plainSession).Run .start upToDelivery before ∧
      (scheduledSystem verboseCrates plainSession).Run before resubscribed after ∧
      (scheduledSystem verboseCrates plainSession).step after (.session (.queue 0)) last ∧
      Puts after.session 0 (.session (.queue 0)) ∧
      after.session.subs.map Prod.fst = ["s1"] ∧ findSub after.session.subs "s1" =
        some ⟨⟨"1:s1"⟩, 1⟩ ∧
      last.session.out.queue = after.session.out.queue ++ [.msg "s1" pingText] := by
  refine ⟨_, _, _,
    .cons rfl
    (.cons rfl (.cons rfl (.cons rfl (.cons rfl (.cons rfl (.cons rfl (.cons rfl (.cons rfl
    (.cons rfl (.nil _)))))))))),
      .cons rfl (.cons rfl (.cons rfl (.cons rfl (.cons rfl (.cons rfl (.nil _)))))), rfl,
    ⟨rfl, ?_⟩, rfl, rfl, rfl⟩
  exact Nat.lt_of_sub_pos (by decide)

def askedBack : Turn := .session (.incoming (.text "UNSUB s1") sampleAnswers)

/-- The same sid once more, up to a delivery to its new forwarder. -/
def servedAnew : List Turn :=
  [.session .reply, .session .reply, .session (.incoming (.text "SUB s1 Ping demo") sampleAnswers),
    .session .reply, .session .reply, .session (.deliver 1 pingEnvelope), .wake 1,
      .session (.take 1)]

/-- Aborted while it waits, the first forwarder is not heard of again. -/
theorem unsub_final_suspended :
    ∃ unsubscribed later : Scheduled, ∃ forwarder, later.session.forwarders[1]? = some forwarder ∧
      Puts later.session 1 (.session (.queue 1)) ∧
      (1 ≠ 0 ∧ (forwarder.sid = "s1" → unsubscribed.session.forwarders.length ≤ 1)) := by
  let careful := (scheduledSystem verboseCrates plainSession).restrict
    (AbortsSuspended verboseCrates plainSession)
  obtain ⟨before, unsubscribed, later, after, forwarder, early, asks, unsub, run,
    moved, puts, found⟩ :
      ∃ before unsubscribed later after, ∃ forwarder : Forwarder,
        careful.Run .start (upToDelivery.take 7) before ∧
        Unsubscribes verboseCrates plainSession before.session "s1" ⟨⟨"1:s1"⟩, 0⟩ askedBack ∧
        careful.step before askedBack unsubscribed ∧ careful.Run unsubscribed servedAnew later ∧
        careful.step later (.session (.queue 1)) after ∧
        Puts later.session 1 (.session (.queue 1)) ∧
            later.session.forwarders[1]? = some forwarder := by
    refine ⟨_, _, _, _, _, .cons ⟨fun _ _ _ => rfl, rfl⟩
      (.cons ⟨fun _ _ _ => rfl, rfl⟩ (.cons ⟨fun _ _ _ => rfl, rfl⟩
      (.cons ⟨fun _ _ _ => rfl, rfl⟩ (.cons ⟨fun _ _ _ => rfl, rfl⟩ (.cons ⟨fun _ _ _ => rfl, rfl⟩
        (.cons ⟨fun _ _ _ => rfl, rfl⟩ (.nil _))))))), ⟨_, rfl, rfl⟩, ⟨fun _ _ _ => rfl, rfl⟩,
      .cons ⟨fun _ _ _ => rfl, rfl⟩ (.cons ⟨fun _ _ _ => rfl, rfl⟩ (.cons ⟨fun _ _ _ => rfl, rfl⟩
      (.cons ⟨fun _ _ _ => rfl, rfl⟩ (.cons ⟨fun _ _ _ => rfl, rfl⟩ (.cons ⟨fun _ _ _ => rfl, rfl⟩
        (.cons ⟨fun _ _ _ => rfl, rfl⟩ (.cons ⟨fun _ _ asks => asks.elim, rfl⟩ (.nil _)))))))),
      ⟨fun _ _ asks => asks.elim, rfl⟩, ⟨rfl, ?_⟩, rfl⟩
    exact Nat.lt_of_sub_pos (by decide)
  exact ⟨unsubscribed, later, forwarder, found, puts,
    unsub_final ⟨_, _, rfl, early⟩ asks unsub run moved puts found⟩

end Samples

end OaGateway.Owp
