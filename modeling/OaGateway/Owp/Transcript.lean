import OaGateway.Lib.Ledger
import OaGateway.Owp.Unsub

/-! What a client gets to read: its replies and the deliveries of each of its
subscriptions, woven together as they enter the queue of outgoing frames. -/
namespace OaGateway.Owp

open Lib OaGateway.Core

/-- A session with a record of what goes in and what comes out. -/
structure Recorded where
  session : SessionState
  /-- The replies to every frame read, in order. -/
  answered : List ServerOp
  /-- Each delivery, with the forwarder it goes to. -/
  delivered : List (Nat × Envelope)
  sent : List (Party × ServerOp)
  entered : List (Party × ServerOp)
  received : List ServerOp
  written : List Outgoing

/-- The frames among the messages written to the socket. -/
def framesOf (written : List Outgoing) : List ServerOp :=
  written.filterMap fun
    | .op op => some op
    | _ => none

namespace Recorded

def start : Recorded := ⟨.start, [], [], [], [], [], []⟩

/-- Who sends what to the queue in a step. -/
def sends (state : SessionState) : Event → List (Party × ServerOp)
  | .reply =>
    match state.task with
    | .replying (op :: _) _ _ => [(.task, op)]
    | _ => []
  | .queue index =>
    match state.forwarders[index]? with
    | some ⟨_, _, .holding op, _⟩ => [(.forwarder index, op)]
    | _ => []
  | _ => []

/-- What of it enters the queue in that step. -/
def enters (state : SessionState) : Event → List (Party × ServerOp)
  | .settle party => state.out.entersOnSettle party
  | event => (sends state event).flatMap fun entry => state.out.entersOnSend entry.1 entry.2

def receives (state : SessionState) : Event → List ServerOp
  | .recv => (state.out.receive.map Prod.fst).toList
  | _ => []

def delivers : Event → List (Nat × Envelope)
  | .deliver index envelope => [(index, envelope)]
  | _ => []

section
variable (crates : OwpCrates) (session : Session)

def answers (state : SessionState) : Event → List ServerOp
  | .incoming message answers => state.replies crates session answers message
  | _ => []

/-- The record of a step that leads to a state. -/
def next (recorded : Recorded) (event : Event) (after : SessionState) : Recorded where
  session := after
  answered := recorded.answered ++ answers crates session recorded.session event
  delivered := recorded.delivered ++ delivers event
  sent := recorded.sent ++ sends recorded.session event
  entered := recorded.entered ++ enters recorded.session event
  received := recorded.received ++ receives recorded.session event
  written := recorded.written ++ Observed.writes recorded.session event

def step (recorded : Recorded) (event : Event) : Option Recorded :=
  (recorded.session.step crates session event).map (recorded.next crates session event)

end

end Recorded

def recordedSystem (crates : OwpCrates) (session : Session) : System Recorded Event where
  initial recorded := recorded = .start
  step before event after := before.step crates session event = some after

/-- The frames a subscription makes of its deliveries. -/
def forwarded (crates : OwpCrates) (session : Session) (sid : String) (deliveries : List Envelope) :
    List ServerOp :=
  deliveries.filterMap (forwardFrame crates session sid)

/-- Replies the task has still to send. -/
def Task.unsent : Task → List ServerOp
  | replying ops _ _ | waiting ops _ _ => ops
  | _ => []

/-- The frame the task has taken from the queue and not yet written. -/
def Task.carried : Task → List ServerOp
  | writing (.op op) => [op]
  | _ => []

def Stage.held : Stage → List ServerOp
  | holding op => [op]
  | _ => []

/-- Forwarders that will not send again. -/
def ended (forwarders : List Forwarder) : Party → Prop
  | .task => False
  | .forwarder index => ∃ forwarder, forwarders[index]? = some forwarder ∧ forwarder.stage = .ended

/-- A forwarder has sent the frames of its deliveries in order, and while it lives
it has the rest of them in hand. -/
structure Forwarder.Accounts (crates : OwpCrates) (session : Session) (forwarder : Forwarder)
    (deliveries : List Envelope) (sent line : List ServerOp) : Prop where
  ordered : sent <+: forwarded crates session forwarder.sid deliveries
  whole : forwarder.stage ≠ .ended →
    sent ++ forwarder.stage.held ++ forwarded crates session forwarder.sid forwarder.inbox =
      forwarded crates session forwarder.sid deliveries
  still : forwarder.stage ≠ .sending → line = []

/-- What was taken from the queue was written, or is about to be. -/
def Recorded.Consumed (recorded : Recorded) : Prop :=
  framesOf recorded.written ++ recorded.session.task.carried = recorded.received ∨
    recorded.session.task = .stopped ∧ framesOf recorded.written <+: recorded.received

/-- Everything that was to be sent has entered the queue in order, or is on its way there. -/
structure Recorded.Faithful (crates : OwpCrates) (session : Session)
    (recorded : Recorded) : Prop where
  ledger : Ledger recorded.session.out recorded.sent recorded.entered recorded.received
    (ended recorded.session.forwarders)
  replies : messagesFor recorded.sent .task ++ recorded.session.task.unsent = recorded.answered
  free : recorded.session.task.waits = false → recorded.session.out.inLine .task = []
  forwarders : ∀ (index : Nat) (forwarder : Forwarder), recorded.session.forwarders[index]? =
    some forwarder →
    forwarder.Accounts crates session (messagesFor recorded.delivered index)
      (messagesFor recorded.sent (.forwarder index))
        (recorded.session.out.inLine (.forwarder index))
  absent : ∀ index, recorded.session.forwarders.length ≤ index →
    messagesFor recorded.sent (.forwarder index) = [] ∧ messagesFor recorded.delivered index = []

section Forwarders
variable {crates : OwpCrates} {session : Session} {forwarder after : Forwarder}
  {deliveries : List Envelope}
  {sent line : List ServerOp}

theorem forwarded_append (first second : List Envelope) :
    forwarded crates session sid (first ++ second) =
    forwarded crates session sid first ++ forwarded crates session sid second :=
  List.filterMap_append ..

namespace Forwarder.Accounts

theorem start (sid : String) :
    (⟨sid, [], .idle, false⟩ : Forwarder).Accounts crates session [] [] [] :=
  ⟨List.prefix_rfl, fun _ => rfl, fun _ => rfl⟩

/-- Only the abort mark changed. -/
theorem mark (accounts : forwarder.Accounts crates session deliveries sent line)
    (sid : after.sid = forwarder.sid) (inbox : after.inbox = forwarder.inbox)
    (stage : after.stage = forwarder.stage) :
    after.Accounts crates session deliveries sent line := by
  obtain ⟨ordered, whole, still⟩ := accounts
  rw [← stage] at whole still
  rw [← sid] at ordered whole
  rw [← inbox] at whole
  exact ⟨ordered, whole, still⟩

theorem deliver (accounts : forwarder.Accounts crates session deliveries sent line)
    {envelope : Envelope} (changed : SessionState.deliver envelope forwarder = some after) :
    after.Accounts crates session (deliveries ++ [envelope]) sent line ∧
      (after.stage = .ended ↔ forwarder.stage = .ended) := by
  rw [SessionState.deliver] at changed
  split at changed
  · cases changed
  · rename_i alive
    split at changed
    · cases changed
      refine ⟨⟨?ordered, ?whole, accounts.still⟩, Iff.rfl⟩
      case ordered =>
        rw [forwarded_append]
        exact accounts.ordered.trans (List.prefix_append _ _)
      case whole =>
        intro lives
        rw [forwarded_append, forwarded_append, ← accounts.whole lives, List.append_assoc,
          List.append_assoc, List.append_assoc]
    · cases changed

theorem take (accounts : forwarder.Accounts crates session deliveries sent line)
    (changed : SessionState.take crates session forwarder = some after) :
    after.Accounts crates session deliveries sent line ∧ forwarder.stage ≠ .ended ∧
      after.stage ≠ .ended := by
  obtain ⟨sid, inbox, stage, aborted⟩ := forwarder
  rw [SessionState.take] at changed
  split at changed
  · rename_i envelope rest idle queued
    simp only at idle queued
    subst idle queued
    have whole := accounts.whole (by simp)
    have still := accounts.still (by simp)
    split at changed
    · rename_i made
      cases changed
      refine ⟨⟨accounts.ordered, fun _ => ?_, fun _ => still⟩, by simp, by simp⟩
      simpa [forwarded, made] using whole
    · rename_i op made
      cases changed
      refine ⟨⟨accounts.ordered, fun _ => ?_, fun _ => still⟩, by simp, by simp⟩
      simpa [forwarded, made, Stage.held] using whole
  · cases changed

theorem queue (accounts : forwarder.Accounts crates session deliveries sent line)
    {op : ServerOp} {room : Bool} (holding : forwarder.stage = .holding op) :
    ({ forwarder with stage := if room then .idle else .sending } : Forwarder).Accounts crates
      session deliveries
      (sent ++ [op]) (line ++ if room then [] else [op]) := by
  have whole := accounts.whole (by simp [holding])
  have still := accounts.still (by simp [holding])
  rw [holding, Stage.held] at whole
  refine ⟨?ordered, ?whole, ?still⟩
  case ordered =>
    rw [← whole]
    exact List.prefix_append _ _
  case whole =>
    intro _
    cases room <;> simpa [Stage.held] using whole
  case still =>
    intro idle
    cases room with
    | true => simpa using still
    | false => exact absurd rfl idle

theorem settle (accounts : forwarder.Accounts crates session deliveries sent line)
    (sending : forwarder.stage = .sending) :
    ({ forwarder with stage := .idle } : Forwarder).Accounts crates session deliveries sent [] := by
  have whole := accounts.whole (by simp [sending])
  have nothing : forwarder.stage.held = [] := by
    rw [sending]
    rfl
  rw [nothing] at whole
  exact ⟨accounts.ordered, fun _ => whole, fun _ => rfl⟩

theorem finish (accounts : forwarder.Accounts crates session deliveries sent line)
    (changed : SessionState.finish forwarder = some after) :
    after.Accounts crates session deliveries sent line ∧ after.stage = .ended ∧ line = [] := by
  rw [SessionState.finish] at changed
  split at changed
  · rename_i idle empty
    cases changed
    have still := accounts.still (by simp [idle])
    exact ⟨⟨accounts.ordered, fun lives => absurd rfl lives, fun _ => still⟩, rfl, still⟩
  · cases changed

theorem drop (accounts : forwarder.Accounts crates session deliveries sent line)
    (changed : SessionState.drop forwarder = some after) :
    after.Accounts crates session deliveries sent [] ∧ after.stage = .ended := by
  rw [SessionState.drop] at changed
  split at changed
  · cases changed
  · split at changed
    · cases changed
      exact ⟨⟨accounts.ordered, fun lives => absurd rfl lives, fun _ => rfl⟩, rfl⟩
    · cases changed

end Forwarder.Accounts

end Forwarders

section Steps
variable {crates : OwpCrates} {session : Session} {before : Recorded} {after : SessionState}

theorem messagesFor_other {entries : List (Party × ServerOp)} {party other : Party} (op : ServerOp)
    (apart : party ≠ other) : messagesFor (entries ++ [(party, op)]) other =
      messagesFor entries other := by
  rw [messagesFor_append, messagesFor_single, if_neg apart, List.append_nil]

theorem messagesFor_same {entries : List (Party × ServerOp)} (party : Party) (op : ServerOp) :
    messagesFor (entries ++ [(party, op)]) party = messagesFor entries party ++ [op] := by
  rw [messagesFor_append, messagesFor_single, if_pos rfl]

theorem getElem?_concat_cases {list : List Forwarder} {last entry : Forwarder} {index : Nat}
    (found : (list ++ [last])[index]? = some entry) :
    list[index]? = some entry ∨ index = list.length ∧ entry = last := by
  by_cases old : index < list.length
  · rw [List.getElem?_append_left old] at found
    exact .inl found
  · rw [List.getElem?_append_right (Nat.le_of_not_lt old)] at found
    have bound := (List.getElem?_eq_some_iff.mp found).1
    rw [List.length_singleton] at bound
    obtain rfl : index = list.length := by omega
    rw [Nat.sub_self] at found
    cases found
    exact .inr ⟨rfl, rfl⟩

namespace Recorded.Faithful

theorem start : Recorded.start.Faithful crates session where
  ledger := Ledger.empty.congr fun party => by
    cases party with
    | task => rfl
    | forwarder index => simp [Recorded.start, SessionState.start, ended]
  replies := rfl
  free _ := rfl
  forwarders index forwarder found := by simp [Recorded.start, SessionState.start] at found
  absent _ _ := ⟨rfl, rfl⟩

/-- A forwarder has nothing in line before it is there. -/
theorem inLine_absent (faithful : before.Faithful crates session) {index : Nat}
    (absent : before.session.forwarders.length ≤ index) :
    before.session.out.inLine (.forwarder index) = [] := by
  have stays : ¬ ended before.session.forwarders (.forwarder index) := by
    rintro ⟨forwarder, found, -⟩
    rw [List.getElem?_eq_none absent] at found
    cases found
  have kept := faithful.ledger.kept _ stays
  rw [(faithful.absent index absent).1] at kept
  exact (List.append_eq_nil_iff.mp kept).2

end Recorded.Faithful

/-- The forwarders are the same but for their abort marks, or there is a new one. -/
inductive Marked (old new : List Forwarder) : Prop where
  | same (length : new.length = old.length)
      (entries : ∀ (index : Nat) (entry : Forwarder), new[index]? = some entry →
        ∃ mark, old[index]? = some { entry with aborted := mark })
  | joined (sid : String) (added : new = old ++ [⟨sid, [], .idle, false⟩])

theorem Marked.refl (list : List Forwarder) : Marked list list :=
  .same rfl fun _ entry found => ⟨entry.aborted, found⟩

theorem Marked.modify (list : List Forwarder) (place : Nat) :
    Marked list (list.modify place SessionState.abort) := by
  refine .same (List.length_modify ..) fun index entry found => ?_
  rw [List.getElem?_modify] at found
  obtain ⟨old, present, same⟩ := Option.map_eq_some_iff.mp found
  refine ⟨old.aborted, ?_⟩
  split at same
  · rw [present, ← same]
    rfl
  · rw [present, ← same]

theorem Marked.stop (state : SessionState) : Marked state.forwarders state.stop.forwarders := by
  refine .same (List.length_mapIdx ..) fun index entry found => ?_
  simp only [SessionState.stop, List.getElem?_mapIdx] at found
  obtain ⟨old, present, same⟩ := Option.map_eq_some_iff.mp found
  refine ⟨old.aborted, ?_⟩
  split at same
  · rw [present, ← same]
    rfl
  · rw [present, ← same]

theorem Marked.ended_iff (marked : Marked old new) (party : Party) : ended new party ↔
    ended old party := by
  cases party with
  | task => exact Iff.rfl
  | forwarder index =>
    cases marked with
    | same length entries =>
      constructor
      · rintro ⟨entry, found, done⟩
        obtain ⟨mark, present⟩ := entries index entry found
        exact ⟨_, present, done⟩
      · rintro ⟨earlier, present, done⟩
        have bound : index < new.length := length ▸ (List.getElem?_eq_some_iff.mp present).1
        obtain ⟨mark, found⟩ := entries index new[index] (List.getElem?_eq_getElem bound)
        rw [found] at present
        cases present
        exact ⟨_, List.getElem?_eq_getElem bound, done⟩
    | joined sid added =>
      subst added
      constructor
      · rintro ⟨entry, found, done⟩
        rcases getElem?_concat_cases found with present | ⟨-, rfl⟩
        · exact ⟨entry, present, done⟩
        · cases done
      · rintro ⟨entry, found, done⟩
        have bound := (List.getElem?_eq_some_iff.mp found).1
        exact ⟨entry, by rw [List.getElem?_append_left bound, found], done⟩

theorem getElem?_set_cases {list : List Forwarder} {place index : Nat} {new entry : Forwarder}
    (found : (list.set place new)[index]? = some entry) :
    index = place ∧ entry = new ∨ index ≠ place ∧ list[index]? = some entry := by
  by_cases here : index = place
  · subst here
    have bound := (List.getElem?_eq_some_iff.mp found).1
    rw [List.length_set] at bound
    rw [List.getElem?_set_self bound] at found
    cases found
    exact .inl ⟨rfl, rfl⟩
  · rw [List.getElem?_set_ne (Ne.symm here)] at found
    exact .inr ⟨here, found⟩

theorem ended_set {list : List Forwarder} {place : Nat} {old new : Forwarder}
    (found : list[place]? = some old) (party : Party) : ended (list.set place new) party ↔
      party = .forwarder place ∧ new.stage = .ended ∨ party ≠ .forwarder place ∧
          ended list party := by
  cases party with
  | task => simp [ended]
  | forwarder index =>
    by_cases here : index = place
    · subst here
      have bound := (List.getElem?_eq_some_iff.mp found).1
      simp [ended, List.getElem?_set_self bound]
    · simp [ended, List.getElem?_set_ne (Ne.symm here), here]

/-- Whether a forwarder is done or not does not change. -/
theorem ended_set_same {list : List Forwarder} {place : Nat} {old new : Forwarder}
    (found : list[place]? = some old) (same : new.stage = .ended ↔ old.stage = .ended)
    (party : Party) : ended (list.set place new) party ↔ ended list party := by
  rw [ended_set found]
  by_cases here : party = .forwarder place
  · subst here
    simp [ended, found, same]
  · simp [here]

/-- A forwarder is done from now on. -/
theorem ended_set_over {list : List Forwarder} {place : Nat} {old new : Forwarder}
    (found : list[place]? = some old) (done : new.stage = .ended) (party : Party) :
    ended (list.set place new) party ↔ party = .forwarder place ∨ ended list party := by
  rw [ended_set found]
  by_cases here : party = .forwarder place
  · simp [here, done]
  · simp [here]

theorem modify_eq_set_of_found {list : List Forwarder} {place : Nat} {old : Forwarder}
    {change : Forwarder → Forwarder} (found : list[place]? = some old) : list.modify place change =
      list.set place (change old) := by
  apply List.ext_getElem?
  intro index
  rw [List.getElem?_modify]
  by_cases here : place = index
  · subst here
    rw [List.getElem?_set_self (List.getElem?_eq_some_iff.mp found).1, found]
    simp
  · rw [List.getElem?_set_ne here]
    simp [here]

theorem advance_cases {state : SessionState} {index : Nat} {change : Forwarder → Option Forwarder}
    (moved : state.advance index change = some after) :
    ∃ old new, state.forwarders[index]? = some old ∧ change old = some new ∧
      after = { state with forwarders := state.forwarders.set index new } := by
  rw [SessionState.advance] at moved
  split at moved
  · cases moved
  · rename_i new changed
    cases moved
    obtain ⟨old, found, changed⟩ := Option.bind_eq_some_iff.mp changed
    exact ⟨old, new, found, changed, rfl⟩

/-- A step in which nothing is sent, queued or delivered. -/
def Recorded.Quiet (state : SessionState) (event : Event) : Prop :=
  Recorded.sends state event = [] ∧ Recorded.enters state event = [] ∧
  Recorded.receives state event = [] ∧
    Recorded.delivers event = []

section Reads
variable {state : SessionState} {answers : Answers}

theorem out_read (message : Incoming) : (state.read crates session answers message).out =
    state.out := by
  cases message with
  | text text => exact SessionState.out_perform _
  | _ => rfl

theorem marked_read (message : Incoming) :
    Marked state.forwarders (state.read crates session answers message).forwarders := by
  have performed (effect : Effect) : Marked state.forwarders (state.perform effect).forwarders := by
    cases effect with
    | none | publish => exact .refl _
    | subscribe sid engineSub route => exact .joined sid rfl
    | unsubscribe sid live => exact .modify _ _
  cases message with
  | text text => exact performed _
  | close => exact .stop _
  | _ => exact .refl _

theorem unsent_read {message : Incoming} (selecting : state.task = .selecting) :
    (state.read crates session answers message).task.unsent =
      Task.selecting.unsent ++ state.replies crates session answers message := by
  cases message with
  | pong | frame =>
    simp [SessionState.read, SessionState.replies, SessionState.respond, selecting, Task.unsent]
  | _ => rfl

end Reads

namespace Recorded.Faithful

/-- Only the task moved, and the abort marks. -/
theorem mark (faithful : before.Faithful crates session) {event : Event}
    (quiet : Recorded.Quiet before.session event) (out : after.out = before.session.out)
    (marked : Marked before.session.forwarders after.forwarders)
    (unsent : after.task.unsent = before.session.task.unsent ++
      Recorded.answers crates session before.session event)
    (waits : after.task.waits = false → before.session.task.waits = false) :
    (before.next crates session event after).Faithful crates session := by
  obtain ⟨sends, enters, receives, delivers⟩ := quiet
  simp only [Recorded.next, sends, enters, receives, delivers, List.append_nil]
  refine ⟨?ledger, ?replies, ?free, ?forwarders, ?absent⟩
  case ledger =>
    simp only [out]
    exact faithful.ledger.congr marked.ended_iff
  case replies =>
    simp only [unsent]
    rw [← List.append_assoc, faithful.replies]
  case free =>
    intro idle
    simp only [out]
    exact faithful.free (waits idle)
  case forwarders =>
    intro index forwarder found
    simp only [out]
    cases marked with
    | same length entries =>
      obtain ⟨mark, present⟩ := entries index forwarder found
      exact (faithful.forwarders index _ present).mark rfl rfl rfl
    | joined sid added =>
      rw [added] at found
      rcases getElem?_concat_cases found with present | ⟨rfl, rfl⟩
      · exact faithful.forwarders index forwarder present
      · have absent := faithful.absent _ (Nat.le_refl before.session.forwarders.length)
        rw [absent.1, absent.2, faithful.inLine_absent (Nat.le_refl _)]
        exact .start sid
  case absent =>
    intro index beyond
    refine faithful.absent index (Nat.le_trans ?_ beyond)
    cases marked with
    | same length entries => exact Nat.le_of_eq length.symm
    | joined sid added => simp [added]

/-- One forwarder moved. -/
theorem move (faithful : before.Faithful crates session) {recorded : Recorded} {place : Nat}
    {new : Forwarder} (forwarders : recorded.session.forwarders =
      before.session.forwarders.set place new)
    (bound : place < before.session.forwarders.length)
    (task : recorded.session.task = before.session.task)
    (answered : recorded.answered = before.answered)
    (sent : ∀ party, party ≠ .forwarder place →
      messagesFor recorded.sent party = messagesFor before.sent party)
    (delivered : ∀ index, index ≠ place → messagesFor recorded.delivered index =
      messagesFor before.delivered index)
    (line : ∀ party, party ≠ .forwarder place →
      recorded.session.out.inLine party = before.session.out.inLine party)
    (ledger : Ledger recorded.session.out recorded.sent recorded.entered recorded.received
      (ended recorded.session.forwarders))
    (accounts : new.Accounts crates session (messagesFor recorded.delivered place)
      (messagesFor recorded.sent (.forwarder place))
        (recorded.session.out.inLine (.forwarder place))) :
    recorded.Faithful crates session := by
  refine ⟨ledger, ?replies, ?free, ?forwarders, ?absent⟩
  case replies =>
    rw [sent .task (by simp), task, answered]
    exact faithful.replies
  case free =>
    rw [task, line .task (by simp)]
    exact faithful.free
  case forwarders =>
    intro index forwarder found
    rw [forwarders] at found
    rcases getElem?_set_cases found with ⟨rfl, rfl⟩ | ⟨elsewhere, present⟩
    · exact accounts
    · rw [sent _ (by simpa using elsewhere), delivered index elsewhere,
        line _ (by simpa using elsewhere)]
      exact faithful.forwarders index forwarder present
  case absent =>
    intro index beyond
    rw [forwarders, List.length_set] at beyond
    have elsewhere : index ≠ place := by omega
    rw [sent _ (by simpa using elsewhere), delivered index elsewhere]
    exact faithful.absent index beyond

theorem advance (faithful : before.Faithful crates session) {event : Event} {index : Nat}
    {change : Forwarder → Option Forwarder}
    (moved : before.session.advance index change = some after)
    (sends : Recorded.sends before.session event = [])
    (enters : Recorded.enters before.session event = [])
    (receives : Recorded.receives before.session event = [])
    (answers : Recorded.answers crates session before.session event = [])
    (elsewhere : ∀ other, other ≠ index → messagesFor (Recorded.delivers event) other = [])
    (changed : ∀ old new line, change old = some new →
      old.Accounts crates session (messagesFor before.delivered index)
        (messagesFor before.sent (.forwarder index)) line →
      new.Accounts crates session (messagesFor (before.delivered ++ Recorded.delivers event) index)
        (messagesFor before.sent (.forwarder index)) line ∧
          (new.stage = .ended ↔ old.stage = .ended)) :
    (before.next crates session event after).Faithful crates session := by
  obtain ⟨old, new, found, altered, rfl⟩ := advance_cases moved
  obtain ⟨accounts, ending⟩ := changed old new _ altered (faithful.forwarders index old found)
  simp only [Recorded.next, sends, enters, receives, answers, List.append_nil]
  apply faithful.move
  case forwarders => rfl
  case bound => exact (List.getElem?_eq_some_iff.mp found).1
  case task => rfl
  case answered => rfl
  case sent => exact fun _ _ => rfl
  case delivered =>
    intro other apart
    simp only [messagesFor_append, elsewhere other apart, List.append_nil]
  case line => exact fun _ _ => rfl
  case ledger => exact faithful.ledger.congr (ended_set_same found ending)
  case accounts => exact accounts

theorem recv (faithful : before.Faithful crates session)
    (moved : before.session.step crates session .recv = some after) :
    (before.next crates session .recv after).Faithful crates session := by
  simp only [SessionState.step, SessionState.select_eq_some, Option.map_eq_some_iff] at moved
  obtain ⟨selecting, ⟨op, out⟩, taken, rfl⟩ := moved
  simp only [Recorded.next, Recorded.sends, Recorded.enters, Recorded.answers, Recorded.delivers,
    Recorded.receives, List.flatMap_nil, List.append_nil, taken, Option.map_some,
      Option.toList_some]
  have replies := faithful.replies
  have free := faithful.free
  simp only [selecting] at replies free
  refine ⟨faithful.ledger.receive taken, replies, fun _ => ?_, fun index forwarder found => ?_,
    faithful.absent⟩
  · rw [Mailbox.inLine_receive taken]
    exact free rfl
  · simp only [Mailbox.inLine_receive taken]
    exact faithful.forwarders index forwarder found

theorem reply (faithful : before.Faithful crates session)
    (moved : before.session.step crates session .reply = some after) :
    (before.next crates session .reply after).Faithful crates session := by
  simp only [SessionState.step, SessionState.reply] at moved
  split at moved
  · rename_i phase fatal task
    have quiet : Recorded.Quiet before.session .reply := by
      simp [Recorded.Quiet, Recorded.sends, Recorded.enters, Recorded.receives,
        Recorded.delivers, task]
    cases moved
    cases fatal with
    | true =>
      exact faithful.mark quiet rfl (.stop _) (by simp [task, Task.unsent, Recorded.answers]; rfl)
        (by simp [task, Task.waits])
    | false =>
      exact faithful.mark quiet rfl (.refl _) (by simp [task, Task.unsent, Recorded.answers])
        (by simp [task, Task.waits])
  · rename_i op ops phase fatal task
    cases moved
    have idle : before.session.out.inLine .task = [] := faithful.free (by rw [task]; rfl)
    have replies := faithful.replies
    simp only [task, Task.unsent] at replies
    simp only [Recorded.next, Recorded.sends, Recorded.enters, Recorded.answers, Recorded.delivers,
      Recorded.receives, task, List.flatMap_singleton, List.append_nil]
    have other {index : Nat} : messagesFor (before.sent ++ [(Party.task, op)]) (.forwarder index) =
        messagesFor before.sent (.forwarder index) := messagesFor_other op (by simp)
    refine ⟨?ledger, ?replies, ?free, ?forwarders, ?absent⟩
    case ledger =>
      have stays : ¬ ended before.session.forwarders .task := id
      exact faithful.ledger.send stays idle op
    case replies =>
      simp only [messagesFor_same]
      rw [← replies, List.append_assoc, List.singleton_append]
      split <;> rfl
    case free =>
      intro done
      rw [Mailbox.inLine_send, idle]
      split
      · rfl
      · rename_i full
        simp [full, Task.waits] at done
    case forwarders =>
      intro index forwarder found
      have same : (before.session.out.send .task op).inLine (.forwarder index) =
          before.session.out.inLine (.forwarder index) := Mailbox.inLine_send_ne (by simp)
      simp only [other, same]
      exact faithful.forwarders index forwarder found
    case absent =>
      intro index beyond
      rw [other]
      exact faithful.absent index beyond
  · cases moved

theorem queue (faithful : before.Faithful crates session)
    (moved : before.session.step crates session (.queue index) = some after) :
    (before.next crates session (.queue index) after).Faithful crates session := by
  simp only [SessionState.step, SessionState.queue] at moved
  split at moved
  · rename_i sid inbox op aborted found
    cases moved
    have accounts := faithful.forwarders index _ found
    have idle : before.session.out.inLine (.forwarder index) = [] := accounts.still (by simp)
    have stays : ¬ ended before.session.forwarders (.forwarder index) := by simp [ended, found]
    simp only [Recorded.next, Recorded.sends, Recorded.enters, Recorded.answers, Recorded.delivers,
      Recorded.receives, found, List.flatMap_singleton, List.append_nil]
    apply faithful.move
    case forwarders => rfl
    case bound => exact (List.getElem?_eq_some_iff.mp found).1
    case task => rfl
    case answered => rfl
    case sent => exact fun party apart => messagesFor_other op (Ne.symm apart)
    case delivered => exact fun _ _ => rfl
    case line => exact fun party apart => Mailbox.inLine_send_ne (Ne.symm apart)
    case ledger =>
      refine (faithful.ledger.send stays idle op).congr (ended_set_same found ?_)
      split <;> simp
    case accounts =>
      simp only [messagesFor_same, Mailbox.inLine_send]
      have queued := @accounts.queue _ _ _ _ _ _ op
        (decide (before.session.out.occupied < defaultChannelCapacity)) rfl
      by_cases room : before.session.out.occupied < defaultChannelCapacity
      · simpa [room] using queued
      · simpa [room, messagesFor_single] using queued
  · cases moved

theorem settle (faithful : before.Faithful crates session) {party : Party}
    (moved : before.session.step crates session (.settle party) = some after) :
    (before.next crates session (.settle party) after).Faithful crates session := by
  simp only [SessionState.step, SessionState.settle] at moved
  split at moved
  · cases moved
  · rename_i out settled
    have entered := Mailbox.inLine_settled settled (faithful.ledger.single party)
    have ledger := faithful.ledger.settle settled
    simp only [Recorded.next, Recorded.sends, Recorded.enters, Recorded.answers, Recorded.delivers,
      Recorded.receives, List.append_nil]
    cases party with
    | task =>
      simp only at moved
      split at moved
      · rename_i ops phase fatal task
        cases moved
        have replies := faithful.replies
        simp only [task, Task.unsent] at replies
        refine ⟨ledger, replies, fun _ => entered.2, fun index forwarder found => ?_,
          faithful.absent⟩
        have same : out.inLine (.forwarder index) = before.session.out.inLine (.forwarder index) :=
          Mailbox.inLine_settle_ne settled (by simp)
        simp only [same]
        exact faithful.forwarders index forwarder found
      · cases moved
    | forwarder index =>
      cases moved
      by_cases bound : index < before.session.forwarders.length
      · have found := List.getElem?_eq_getElem bound
        have accounts := faithful.forwarders index _ found
        have sending : before.session.forwarders[index].stage = .sending := by
          by_contra other
          exact entered.1 (accounts.still other)
        apply faithful.move
        case forwarders => exact modify_eq_set_of_found found
        case bound => exact bound
        case task => rfl
        case answered => rfl
        case sent => exact fun _ _ => rfl
        case delivered => exact fun _ _ => rfl
        case line => exact fun party apart => Mailbox.inLine_settle_ne settled (Ne.symm apart)
        case ledger =>
          refine ledger.congr fun party => ?_
          simp only [modify_eq_set_of_found found]
          exact ended_set_same found (by simp [sending]) party
        case accounts =>
          simp only [entered.2]
          exact accounts.settle sending
      · exact absurd (faithful.inLine_absent (Nat.le_of_not_lt bound)) entered.1

theorem finish (faithful : before.Faithful crates session)
    (moved : before.session.step crates session (.finish index) = some after) :
    (before.next crates session (.finish index) after).Faithful crates session := by
  obtain ⟨old, new, found, altered, rfl⟩ := advance_cases moved
  obtain ⟨accounts, done, idle⟩ := (faithful.forwarders index old found).finish altered
  simp only [Recorded.next, Recorded.sends, Recorded.enters, Recorded.answers, Recorded.delivers,
    Recorded.receives, List.flatMap_nil, List.append_nil]
  apply faithful.move
  case forwarders => rfl
  case bound => exact (List.getElem?_eq_some_iff.mp found).1
  case task => rfl
  case answered => rfl
  case sent => exact fun _ _ => rfl
  case delivered => exact fun _ _ => rfl
  case line => exact fun _ _ => rfl
  case ledger => exact (faithful.ledger.retire idle).congr (ended_set_over found done)
  case accounts => exact accounts

theorem drop (faithful : before.Faithful crates session)
    (moved : before.session.step crates session (.drop index) = some after) :
    (before.next crates session (.drop index) after).Faithful crates session := by
  simp only [SessionState.step, Option.map_eq_some_iff] at moved
  obtain ⟨middle, moved, rfl⟩ := moved
  obtain ⟨old, new, found, altered, rfl⟩ := advance_cases moved
  obtain ⟨accounts, done⟩ := (faithful.forwarders index old found).drop altered
  simp only [Recorded.next, Recorded.sends, Recorded.enters, Recorded.answers, Recorded.delivers,
    Recorded.receives, List.flatMap_nil, List.append_nil]
  apply faithful.move
  case forwarders => rfl
  case bound => exact (List.getElem?_eq_some_iff.mp found).1
  case task => rfl
  case answered => rfl
  case sent => exact fun _ _ => rfl
  case delivered => exact fun _ _ => rfl
  case line => exact fun party apart => Mailbox.inLine_cancel_ne (Ne.symm apart)
  case ledger => exact (faithful.ledger.cancel (.forwarder index)).congr (ended_set_over found done)
  case accounts =>
    simp only [Mailbox.inLine_cancel (faithful.ledger.single (.forwarder index))]
    exact accounts

theorem step (faithful : before.Faithful crates session) {event : Event} {recorded : Recorded}
    (moved : before.step crates session event = some recorded) :
    recorded.Faithful crates session := by
  rw [Recorded.step, Option.map_eq_some_iff] at moved
  obtain ⟨after, moved, rfl⟩ := moved
  cases event with
  | cancel =>
    cases moved
    exact faithful.mark ⟨rfl, rfl, rfl, rfl⟩ rfl (.refl _) (List.append_nil _).symm id
  | shutdown =>
    simp only [SessionState.step, SessionState.select_eq_some, Option.ite_none_right_eq_some,
      Option.some.injEq] at moved
    obtain ⟨selecting, -, rfl⟩ := moved
    exact faithful.mark ⟨rfl, rfl, rfl, rfl⟩ rfl (.stop _) (by rw [selecting]; rfl)
      (fun _ => by rw [selecting]; rfl)
  | timeout =>
    simp only [SessionState.step, SessionState.select_eq_some, Option.map_eq_some_iff] at moved
    obtain ⟨selecting, reason, -, rfl⟩ := moved
    exact faithful.mark ⟨rfl, rfl, rfl, rfl⟩ rfl (.refl _) (by rw [selecting]; rfl)
      (fun _ => by rw [selecting]; rfl)
  | recv => exact faithful.recv moved
  | hangup =>
    simp only [SessionState.step, SessionState.select_eq_some, Option.some.injEq] at moved
    obtain ⟨selecting, rfl⟩ := moved
    exact faithful.mark ⟨rfl, rfl, rfl, rfl⟩ rfl (.stop _) (by rw [selecting]; rfl)
      (fun _ => by rw [selecting]; rfl)
  | incoming message answers =>
    simp only [SessionState.step, SessionState.select_eq_some, Option.some.injEq] at moved
    obtain ⟨selecting, rfl⟩ := moved
    exact faithful.mark ⟨rfl, rfl, rfl, rfl⟩ (out_read _) (marked_read _)
      (by rw [selecting]; exact unsent_read selecting)
      (fun _ => by rw [selecting]; rfl)
  | written success =>
    simp only [SessionState.step] at moved
    split at moved
    · rename_i message task
      cases moved
      cases message with
      | op op =>
        cases success with
        | true =>
          exact faithful.mark ⟨rfl, rfl, rfl, rfl⟩ rfl (.refl _) (by rw [task]; rfl)
            (fun _ => by rw [task]; rfl)
        | false =>
          exact faithful.mark ⟨rfl, rfl, rfl, rfl⟩ rfl (.stop _) (by rw [task]; rfl)
            (fun _ => by rw [task]; rfl)
      | pong data =>
        exact faithful.mark ⟨rfl, rfl, rfl, rfl⟩ rfl (.refl _) (by rw [task]; rfl)
          (fun _ => by rw [task]; rfl)
      | close reason =>
        exact faithful.mark ⟨rfl, rfl, rfl, rfl⟩ rfl (.stop _) (by rw [task]; rfl)
          (fun _ => by rw [task]; rfl)
    · cases moved
  | reply => exact faithful.reply moved
  | settle party => exact faithful.settle moved
  | deliver index envelope =>
    refine faithful.advance moved rfl rfl rfl rfl (fun other apart => ?_)
      fun old new line changed accounts => ?_
    · simp [Recorded.delivers, messagesFor, Ne.symm apart]
    · rw [messagesFor_append]
      simpa [Recorded.delivers, messagesFor] using accounts.deliver changed
  | take index =>
    refine faithful.advance moved rfl rfl rfl rfl (fun _ _ => rfl)
      fun old new line changed accounts => ?_
    obtain ⟨kept, alive, still⟩ := accounts.take changed
    exact ⟨by simpa [Recorded.delivers] using kept, by simp [alive, still]⟩
  | queue index => exact faithful.queue moved
  | finish index => exact faithful.finish moved
  | drop index => exact faithful.drop moved

end Recorded.Faithful

theorem carried_read {state : SessionState} {message : Incoming} {answers : Answers}
    (selecting : state.task = .selecting) :
    (state.read crates session answers message).task.carried = [] := by
  cases message with
  | pong | frame => simp [SessionState.read, SessionState.respond, selecting, Task.carried]
  | _ => rfl

/-- Only a frame taken from the queue or written changes what the task carries. -/
theorem carried_step {state : SessionState} {event : Event}
    (moved : state.step crates session event = some after) (receives : event ≠ .recv)
    (writes : ∀ success, event ≠ .written success) :
    after.task.carried = state.task.carried := by
  cases event with
  | recv => exact absurd rfl receives
  | written success => exact absurd rfl (writes success)
  | cancel =>
    cases moved
    rfl
  | shutdown =>
    simp only [SessionState.step, SessionState.select_eq_some, Option.ite_none_right_eq_some,
      Option.some.injEq] at moved
    obtain ⟨selecting, -, rfl⟩ := moved
    rw [selecting]
    rfl
  | timeout =>
    simp only [SessionState.step, SessionState.select_eq_some, Option.map_eq_some_iff] at moved
    obtain ⟨selecting, reason, -, rfl⟩ := moved
    rw [selecting]
    rfl
  | hangup =>
    simp only [SessionState.step, SessionState.select_eq_some, Option.some.injEq] at moved
    obtain ⟨selecting, rfl⟩ := moved
    rw [selecting]
    rfl
  | incoming message answers =>
    simp only [SessionState.step, SessionState.select_eq_some, Option.some.injEq] at moved
    obtain ⟨selecting, rfl⟩ := moved
    rw [carried_read selecting, selecting]
    rfl
  | reply =>
    simp only [SessionState.step, SessionState.reply] at moved
    split at moved
    · rename_i phase fatal task
      cases moved
      rw [task]
      cases fatal <;> rfl
    · rename_i op ops phase fatal task
      cases moved
      rw [task]
      simp only
      split <;> rfl
    · cases moved
  | settle party =>
    simp only [SessionState.step, SessionState.settle] at moved
    split at moved
    · cases moved
    · cases party with
      | forwarder index =>
        cases moved
        rfl
      | task =>
        simp only at moved
        split at moved
        · rename_i ops phase fatal task
          cases moved
          rw [task]
          rfl
        · cases moved
  | queue index =>
    simp only [SessionState.step, SessionState.queue] at moved
    split at moved
    · cases moved
      rfl
    · cases moved
  | deliver index envelope | take index | finish index => rw [(SessionState.advance_frame moved).2]
  | drop index =>
    simp only [SessionState.step, Option.map_eq_some_iff] at moved
    obtain ⟨middle, moved, rfl⟩ := moved
    rw [← (SessionState.advance_frame moved).2]

namespace Recorded.Consumed

/-- Nothing is taken from the queue or written. -/
theorem keep (consumed : before.Consumed) {event : Event}
    (moved : before.session.step crates session event = some after)
    (receives : Recorded.receives before.session event = [])
    (writes : Observed.writes before.session event = [])
    (carried : after.task.carried = before.session.task.carried) :
    (before.next crates session event after).Consumed := by
  simp only [Recorded.Consumed, Recorded.next, receives, writes, List.append_nil, carried]
  rcases consumed with level | ⟨done, cut⟩
  · exact .inl level
  · exact .inr ⟨stopped_step done moved, cut⟩

theorem of_selecting (consumed : before.Consumed) (selecting : before.session.task = .selecting) :
    framesOf before.written = before.received := by
  rcases consumed with level | ⟨done, -⟩
  · rw [← level, selecting]
    exact (List.append_nil _).symm
  · rw [selecting] at done
    cases done

theorem recv (consumed : before.Consumed)
    (moved : before.session.step crates session .recv = some after) :
    (before.next crates session .recv after).Consumed := by
  simp only [SessionState.step, SessionState.select_eq_some, Option.map_eq_some_iff] at moved
  obtain ⟨selecting, ⟨op, out⟩, taken, rfl⟩ := moved
  left
  simp [Recorded.next, Recorded.receives, Observed.writes, taken, Task.carried,
    consumed.of_selecting selecting]

theorem written (consumed : before.Consumed) {success : Bool}
    (moved : before.session.step crates session (.written success) = some after) :
    (before.next crates session (.written success) after).Consumed := by
  simp only [SessionState.step] at moved
  split at moved
  · rename_i message task
    cases moved
    rcases consumed with level | ⟨done, -⟩
    · rw [task] at level
      simp only [Recorded.Consumed, Recorded.next, Recorded.receives, List.append_nil,
        ← level, framesOf, List.filterMap_append]
      cases message with
      | op op =>
        cases success with
        | true =>
          left
          simp [Observed.writes, task, SessionState.wrote, Task.carried]
        | false =>
          right
          exact ⟨rfl, by simp [Observed.writes]⟩
      | pong data | close reason =>
        left
        cases success <;> simp [Observed.writes, task, SessionState.wrote, SessionState.stop,
          Task.carried]
    · rw [task] at done
      cases done
  · cases moved

theorem step (consumed : before.Consumed) {event : Event} {recorded : Recorded}
    (moved : before.step crates session event = some recorded) : recorded.Consumed := by
  rw [Recorded.step, Option.map_eq_some_iff] at moved
  obtain ⟨after, moved, rfl⟩ := moved
  cases event with
  | recv => exact consumed.recv moved
  | written success => exact consumed.written moved
  | _ => exact consumed.keep moved rfl rfl (carried_step moved (by simp) (by simp))

end Recorded.Consumed

theorem recorded_faithful {recorded : Recorded}
    (reached : (recordedSystem crates session).Reachable recorded) :
    recorded.Faithful crates session := by
  refine reached.invariant ?_ fun before event after moved faithful => faithful.step moved
  rintro _ rfl
  exact .start

theorem recorded_consumed {recorded : Recorded}
    (reached : (recordedSystem crates session).Reachable recorded) :
    recorded.Consumed := by
  refine reached.invariant ?_ fun before event after moved consumed => consumed.step moved
  rintro _ rfl
  exact .inl rfl

end Steps

/-- What a client has read is a weave: its replies in the order of the frames it
sent, and for each subscription the frames of its deliveries in the order of the
deliveries. Nothing is missing once everything is read that was on its way. -/
theorem session_transcript (crates : OwpCrates) (session : Session) (recorded : Recorded)
    (reached : (recordedSystem crates session).Reachable recorded) :
    ∃ stream : List (Party × ServerOp), stream.map Prod.snd = framesOf recorded.written ∧
      messagesFor stream .task <+: recorded.answered ∧
      (∀ (index : Nat) (forwarder : Forwarder), recorded.session.forwarders[index]? =
        some forwarder → messagesFor stream (.forwarder index) <+:
          forwarded crates session forwarder.sid (messagesFor recorded.delivered index)) ∧
      (∀ index, recorded.session.forwarders.length ≤ index →
        messagesFor stream (.forwarder index) = []) ∧
      (recorded.session.task = .selecting → recorded.session.out.queue = [] →
        messagesFor stream .task = recorded.answered ∧
        ∀ (index : Nat) (forwarder : Forwarder), recorded.session.forwarders[index]? =
          some forwarder →
          forwarder.stage = .idle → forwarder.inbox = [] →
            messagesFor stream (.forwarder index) =
              forwarded crates session forwarder.sid (messagesFor recorded.delivered index)) := by
  have faithful := recorded_faithful reached
  have consumed := recorded_consumed reached
  have fifo := faithful.ledger.fifo
  have cut : framesOf recorded.written <+: recorded.entered.map Prod.snd := by
    rw [← fifo]
    refine List.IsPrefix.trans ?_ (List.prefix_append _ _)
    rcases consumed with level | ⟨-, cut⟩
    · rw [← level]
      exact List.prefix_append _ _
    · exact cut
  have first (party : Party) :
      messagesFor (recorded.entered.take (framesOf recorded.written).length) party <+: messagesFor
        recorded.sent party :=
    ((List.take_prefix _ _).filter _ |>.map _).trans (faithful.ledger.ordered party)
  refine ⟨recorded.entered.take (framesOf recorded.written).length, ?_, ?_, ?_, ?_, ?_⟩
  · rw [List.map_take]
    exact (List.prefix_iff_eq_take.mp cut).symm
  · refine (first .task).trans ?_
    rw [← faithful.replies]
    exact List.prefix_append _ _
  · intro index forwarder found
    exact (first _).trans (faithful.forwarders index forwarder found).ordered
  · intro index beyond
    have nothing := first (.forwarder index)
    rw [(faithful.absent index beyond).1] at nothing
    exact List.prefix_nil.mp nothing
  · intro selecting empty
    rw [empty, List.append_nil, ← consumed.of_selecting selecting] at fifo
    have all : recorded.entered.take (framesOf recorded.written).length = recorded.entered := by
      rw [fifo, List.length_map, List.take_length]
    rw [all]
    constructor
    · have replies := faithful.replies
      rw [selecting] at replies
      have kept := faithful.ledger.kept .task id
      rw [faithful.free (by rw [selecting]; rfl), List.append_nil] at kept
      rw [kept, ← replies]
      exact (List.append_nil _).symm
    · intro index forwarder found idle drained
      have accounts := faithful.forwarders index forwarder found
      have stays : ¬ ended recorded.session.forwarders (.forwarder index) := by
        simp [ended, found, idle]
      have kept := faithful.ledger.kept _ stays
      have whole := accounts.whole (by simp [idle])
      rw [accounts.still (by simp [idle]), List.append_nil] at kept
      rw [kept, ← whole, idle, drained]
      simp [Stage.held, forwarded]

section Samples

/-- A client that has read the answer to its `INIT` and one delivery. -/
theorem transcript_of_delivery :
    ∃ recorded, (recordedSystem initCrates plainSession).Reachable recorded ∧
    framesOf recorded.written =
      [.info ⟨"1.0", "oa-gateway-0", ⟨"", "", none⟩, "OA-Gateway Prototype"⟩, .msg "s1" pingText] ∧
    ∃ stream : List (Party × ServerOp), stream.map Prod.snd = framesOf recorded.written ∧
      messagesFor stream .task = recorded.answered := by
  have run : (recordedSystem initCrates plainSession).Run .start
      [.incoming (.text ("INIT " ++ initBody)) sampleAnswers, .reply, .reply, .recv, .written true,
        .incoming (.text "SUB s1 Ping demo") sampleAnswers, .reply, .deliver 0 pingEnvelope,
          .take 0, .queue 0,
        .recv, .written true] _ :=
    .cons rfl
      (.cons rfl
      (.cons rfl (.cons rfl (.cons rfl (.cons rfl (.cons rfl (.cons rfl (.cons rfl (.cons rfl
      (.cons rfl (.cons rfl (.nil _))))))))))))
  have reached : (recordedSystem initCrates plainSession).Reachable _ := ⟨_, _, rfl, run⟩
  obtain ⟨stream, written, -, -, -, complete⟩ :=
    session_transcript initCrates plainSession _ reached
  exact ⟨_, reached, rfl, stream, written, (complete rfl rfl).1⟩

end Samples

end OaGateway.Owp
