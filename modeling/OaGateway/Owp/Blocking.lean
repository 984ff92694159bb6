import OaGateway.Owp.Session

/-! Whether a session can wait for itself. The task that reads the queue of
outgoing frames also queues its replies there, and waits where there is no place. -/
namespace OaGateway.Owp

open Lib OaGateway.Core

/-- Replies the task has still to queue after the one it waits with. -/
def Task.pending : Task → Nat
  | replying ops _ _ => ops.length
  | waiting ops _ _ => ops.length
  | _ => 0

def Task.waits : Task → Bool
  | waiting _ _ _ => true
  | _ => false

namespace SessionState
variable {crates : OwpCrates} {session : Session} {state before after : SessionState}

/-- The task stands in line for a place in the full queue that it alone reads. -/
def Blocked (state : SessionState) : Prop :=
  state.task.waits = true ∧ (∃ op, (.task, op) ∈ state.out.waiting) ∧
    state.out.occupied = defaultChannelCapacity

/-- The session is over, or its task has a step to take. -/
def CanStep (crates : OwpCrates) (session : Session) (state : SessionState) : Prop :=
  state.task = .stopped ∨ ∃ event after, event.own = true ∧
    state.step crates session event = some after

/-- Whether a step leaves room for the replies it brings or the task still owes:
a frame is read only where its replies fit, and a forwarder queues nothing in a
place the task needs. -/
def LeavesRoom (crates : OwpCrates) (session : Session) (state : SessionState) : Event → Prop
  | .incoming message answers =>
    state.out.occupied + (state.replies crates session answers message).length ≤
      defaultChannelCapacity
  | .queue _ => state.task.pending = 0 ∨ state.out.occupied + state.task.pending <
    defaultChannelCapacity
  | _ => True

/-- What the task still owes fits into the queue. -/
def Fits (state : SessionState) : Prop :=
  state.task.waits = false ∧ state.out.occupied + state.task.pending ≤ defaultChannelCapacity

theorem fits_of_quiet (waits : state.task.waits = false) (quiet : state.task.pending = 0) :
    state.Fits := by
  refine ⟨waits, ?_⟩
  rw [quiet]
  exact state.out.occupied_le

/-- Less in the queue, and the same task. -/
theorem Fits.of_le (fits : before.Fits) (task : after.task = before.task)
    (out : after.out.occupied ≤ before.out.occupied) : after.Fits := by
  obtain ⟨waits, room⟩ := fits
  refine ⟨by rw [task, waits], ?_⟩
  rw [task]
  omega

theorem fits_of_selecting (selecting : state.task = .selecting) : state.Fits :=
  fits_of_quiet (by rw [selecting]; rfl) (by rw [selecting]; rfl)

theorem fits_stop : state.stop.Fits := fits_of_quiet rfl rfl

@[simp] theorem out_perform (effect : Effect) : (state.perform effect).out = state.out := by
  cases effect <;> rfl

@[simp] theorem select_eq_some {next : Option SessionState} :
    state.select next = some after ↔ state.task = .selecting ∧ next = some after := by
  rw [select]
  cases state.task <;> simp

/-- A step of one forwarder by itself leaves the queue and the task alone. -/
theorem advance_frame (moved : before.advance index change = some after) :
    after.out = before.out ∧ after.task = before.task := by
  rw [advance] at moved
  split at moved
  · cases moved
  · cases moved
    exact ⟨rfl, rfl⟩

theorem fits_replying {outcome : Outcome}
    (room : state.out.occupied + outcome.replies.length ≤ defaultChannelCapacity) :
    { state.perform outcome.effect with
      task := .replying outcome.replies outcome.phase outcome.fatal : SessionState }.Fits :=
  ⟨rfl, by simpa [Task.pending] using room⟩

theorem fits_read (selecting : state.task = .selecting) {message : Incoming} {answers : Answers}
    (room : state.LeavesRoom crates session (.incoming message answers)) :
    (state.read crates session answers message).Fits := by
  cases message with
  | text text => exact fits_replying room
  | binary => exact fits_replying room
  | ping data => exact fits_of_quiet rfl rfl
  | close => exact fits_stop
  | pong | frame => exact fits_of_selecting selecting

theorem fits_wrote (success : Bool) (message : Outgoing) : (state.wrote success message).Fits := by
  cases message with
  | op op => cases success <;> exact fits_of_quiet rfl rfl
  | pong data => exact fits_of_quiet rfl rfl
  | close reason => exact fits_of_quiet rfl rfl

theorem fits_reply (fits : before.Fits) (moved : before.reply = some after) : after.Fits := by
  obtain ⟨waits, room⟩ := fits
  rw [reply] at moved
  split at moved
  · cases moved
    split <;> exact fits_of_quiet rfl rfl
  · rename_i op ops phase fatal task
    cases moved
    rw [task, Task.pending, List.length_cons] at room
    have free : before.out.occupied < defaultChannelCapacity := by omega
    simp only [if_pos free, Fits, Mailbox.occupied_send free]
    exact ⟨rfl, by rw [Task.pending]; omega⟩
  · cases moved

theorem fits_settle (fits : before.Fits) {party : Party}
    (moved : before.settle party = some after) :
    after.Fits := by
  rw [settle] at moved
  split at moved
  · cases moved
  · rename_i out settled
    have same := Mailbox.occupied_settle settled
    cases party with
    | forwarder index =>
      cases moved
      exact fits.of_le rfl same.le
    | task =>
      -- A task that fits does not wait, so it holds no place to fill.
      obtain ⟨waits, -⟩ := fits
      cases task : before.task with
      | waiting ops phase fatal =>
        rw [task] at waits
        cases waits
      | _ => simp [task] at moved

theorem fits_queue (fits : before.Fits) {index : Nat}
    (room : before.LeavesRoom crates session (.queue index))
    (moved : before.queue index = some after) :
    after.Fits := by
  obtain ⟨waits, bounded⟩ := fits
  rw [queue] at moved
  split at moved
  · rename_i sid inbox op aborted found
    cases moved
    rcases room with quiet | room
    · exact fits_of_quiet waits quiet
    · have free : before.out.occupied < defaultChannelCapacity := by omega
      refine ⟨waits, ?_⟩
      simp only [Mailbox.occupied_send free]
      omega
  · cases moved

/-- A step that leaves room keeps what the task owes within the queue. -/
theorem fits_step {event : Event} (fits : before.Fits)
    (room : before.LeavesRoom crates session event)
    (moved : before.step crates session event = some after) : after.Fits := by
  cases event with
  | cancel =>
    cases moved
    exact fits.of_le rfl le_rfl
  | shutdown =>
    simp only [step, select_eq_some, Option.ite_none_right_eq_some, Option.some.injEq] at moved
    obtain ⟨-, -, rfl⟩ := moved
    exact fits_stop
  | timeout =>
    simp only [step, select_eq_some, Option.map_eq_some_iff] at moved
    obtain ⟨-, reason, -, rfl⟩ := moved
    exact fits_of_quiet rfl rfl
  | recv =>
    simp only [step, select_eq_some, Option.map_eq_some_iff] at moved
    obtain ⟨-, taken, -, rfl⟩ := moved
    exact fits_of_quiet rfl rfl
  | hangup =>
    simp only [step, select_eq_some, Option.some.injEq] at moved
    obtain ⟨-, rfl⟩ := moved
    exact fits_stop
  | incoming message answers =>
    simp only [step, select_eq_some, Option.some.injEq] at moved
    obtain ⟨selecting, rfl⟩ := moved
    exact fits_read selecting room
  | written success =>
    rw [step] at moved
    split at moved
    · cases moved
      exact fits_wrote success _
    · cases moved
  | reply => exact fits_reply fits moved
  | settle party => exact fits_settle fits moved
  | queue index => exact fits_queue fits room moved
  | deliver index envelope | take index | finish index =>
    obtain ⟨out, task⟩ := advance_frame moved
    exact fits.of_le task (by rw [out])
  | drop index =>
    simp only [step, Option.map_eq_some_iff] at moved
    obtain ⟨middle, moved, rfl⟩ := moved
    obtain ⟨out, task⟩ := advance_frame moved
    refine fits.of_le task ?_
    exact Mailbox.occupied_cancel.trans (by rw [out])

/-- A task that does not wait has a step to take. -/
theorem canStep_of_not_waits (waits : state.task.waits = false) : state.CanStep crates session := by
  cases task : state.task with
  | stopped => exact .inl task
  | selecting => exact .inr ⟨.hangup, state.stop, rfl, by simp [step, task]⟩
  | writing message => exact .inr ⟨.written true, state.wrote true message,
    rfl, by simp [step, task]⟩
  | replying ops phase fatal =>
    refine .inr ⟨.reply, ?_⟩
    cases ops with
    | nil => exact ⟨_, rfl, by rw [step, reply, task]⟩
    | cons op ops => exact ⟨_, rfl, by rw [step, reply, task]⟩
  | waiting ops phase fatal =>
    rw [task] at waits
    cases waits

theorem reply_cons {op : ServerOp} {ops : List ServerOp} {phase : Phase} {fatal : Bool}
    (task : state.task = .replying (op :: ops) phase fatal) :
    (sessionSystem crates session).step state .reply
      { state with
        out := state.out.send .task op
        task := if state.out.occupied < defaultChannelCapacity then .replying ops phase fatal
          else .waiting ops phase fatal } := by
  simp only [sessionSystem, step, reply, task]

/-- A task that owes more replies than there are places ends up waiting. -/
theorem blocks_of_overdrawn {ops : List ServerOp} {phase : Phase} {fatal : Bool}
    (task : state.task = .replying ops phase fatal)
    (overdrawn : defaultChannelCapacity < state.out.occupied + ops.length) :
    ∃ count blocked, (sessionSystem crates session).Run state (.replicate count .reply) blocked ∧
      blocked.Blocked := by
  induction ops generalizing state with
  | nil =>
    have := state.out.occupied_le
    simp only [List.length_nil] at overdrawn
    omega
  | cons op ops ih =>
    rw [List.length_cons] at overdrawn
    have moved := @reply_cons crates session state op ops phase fatal task
    by_cases free : state.out.occupied < defaultChannelCapacity
    · simp only [if_pos free] at moved
      obtain ⟨count, blocked, run, found⟩ :=
        @ih { state with out := state.out.send .task op, task := .replying ops phase fatal } rfl
          (by rw [Mailbox.occupied_send free]; omega)
      exact ⟨count + 1, blocked, .cons moved run, found⟩
    · simp only [if_neg free] at moved
      have inLine : (Party.task, op) ∈ (state.out.send .task op).waiting :=
        Mailbox.mem_waiting_send free
      exact ⟨1, _, .single moved, rfl, ⟨op, inLine⟩, Mailbox.occupied_eq_of_mem inLine⟩

/-- The first step that leaves no room leaves the task owing too much. -/
theorem overdrawn_of_step {event : Event} (fits : before.Fits)
    (moved : before.step crates session event = some after)
    (crowded : ¬ before.LeavesRoom crates session event) :
    ∃ ops phase fatal, after.task = .replying ops phase fatal ∧
      defaultChannelCapacity < after.out.occupied + ops.length := by
  cases event with
  | incoming message answers =>
    simp only [step, select_eq_some, Option.some.injEq] at moved
    obtain ⟨-, rfl⟩ := moved
    simp only [LeavesRoom, not_le] at crowded
    cases message with
    | text text => exact ⟨_, _, _, rfl, by simpa [read, replies, respond] using crowded⟩
    | binary => exact ⟨_, _, _, rfl, by simpa [read, replies, respond] using crowded⟩
    | ping data | pong | frame | close => exact absurd before.out.occupied_le (not_le.mpr crowded)
  | queue index =>
    simp only [LeavesRoom, not_or, not_lt] at crowded
    obtain ⟨owes, crowded⟩ := crowded
    obtain ⟨waits, -⟩ := fits
    simp only [step, queue] at moved
    split at moved
    · rename_i sid inbox op aborted found
      cases moved
      cases task : before.task with
      | replying ops phase fatal =>
        rw [task, Task.pending] at owes crowded
        refine ⟨ops, phase, fatal, rfl, ?_⟩
        have kept := @Mailbox.occupied_le_send _ _ _ before.out (.forwarder index) op
        by_cases free : before.out.occupied < defaultChannelCapacity
        · simp only [Mailbox.occupied_send free]
          omega
        · simp only
          omega
      | waiting ops phase fatal =>
        rw [task] at waits
        cases waits
      | _ => exact absurd (by rw [task]; rfl) owes
    · cases moved
  | _ => exact absurd trivial crowded

/-- Nothing but a place in the queue lets a waiting task go on. -/
theorem not_canStep_of_waiting (waits : state.task.waits = true)
    (unplaced : state.out.granted = []) :
    ¬ state.CanStep crates session := by
  have noPlace : state.out.settle .task = none := by
    rw [Mailbox.settle]
    split
    · rfl
    · rename_i entry held
      simp [unplaced] at held
  cases task : state.task with
  | waiting ops phase fatal =>
    rintro (stopped | ⟨event, after, own, moved⟩)
    · simp [task] at stopped
    · cases event with
      | settle party =>
        cases party with
        | task => simp [step, settle, noPlace] at moved
        | forwarder index => cases own
      | cancel | deliver | take | queue | finish | drop => cases own
      | _ => simp [step, select, reply, task] at moved
  | _ => simp [task, Task.waits] at waits

end SessionState

/-- Where every step leaves room for the replies the task owes, the task never
waits for itself and always has a step to take; the first step that leaves none
is one from which replies alone lead to a task that waits for itself. -/
theorem session_never_blocks (crates : OwpCrates) (session : Session) (state : SessionState)
    (reached : ((sessionSystem crates session).restrict
      (SessionState.LeavesRoom crates session)).Reachable state) :
    ¬ state.Blocked ∧ state.CanStep crates session ∧
      ∀ event after, (sessionSystem crates session).step state event after →
        ¬ state.LeavesRoom crates session event →
        ∃ count blocked, (sessionSystem crates session).Run after
          (.replicate count .reply) blocked ∧
          blocked.Blocked := by
  have fits : state.Fits := by
    refine reached.invariant ?_ ?_
    · rintro _ rfl
      exact SessionState.fits_of_selecting rfl
    · intro before event after moved fits
      exact SessionState.fits_step fits moved.1 moved.2
  refine ⟨?_, SessionState.canStep_of_not_waits fits.1, ?_⟩
  · intro blocked
    rw [SessionState.Blocked, fits.1] at blocked
    exact Bool.false_ne_true blocked.1
  · intro event after moved crowded
    obtain ⟨ops, phase, fatal, task, overdrawn⟩ := SessionState.overdrawn_of_step fits moved crowded
    exact SessionState.blocks_of_overdrawn task overdrawn

section Samples

def initBody : String :=
  "\x7b\"versions\":[\"1.0\"],\"schema\":\"002.5.0\",\"verbose\":false,\"service_id\":\"demo\"\x7d"

/-- A JSON parser that knows one `INIT`. -/
def initCrates : OwpCrates where
  jsonParse _ := .error "expected value"
  jsonPrint _ := ""
  floatPrint _ := ""
  floatDisplay _ := ""
  xmlParse _ := .error "unknown token"
  regex _ := none
  hexUpper := upperHex
  initParse text :=
    if text = initBody then .ok ⟨["1.0"], "002.5.0", some false, "demo"⟩
      else .error "expected value"
  uuidV5 _ := ""

def plainSession : Session where
  adapterId := ⟨"owp"⟩
  schema := none
  connId := 1
  config :=
    { serverId := "oa-gateway-0"
      systemLabel := "OA-Gateway Prototype"
      schema := some "002.5.0"
      systemUuid := ""
      unwrapMaPayloads := true
      xmlBaseline := false
      maxSubscriptions := 1024
      initTimeout := true
      idleTimeout := true
      validate := .warn }

def sampleAnswers : Answers := ⟨(⟨"1"⟩, ⟨"2"⟩), true⟩

/-- A client that has said `INIT` and `SUB`, and has read nothing yet. -/
def subscribed : SessionState where
  phase := .active false "demo"
  subs := [("s1", ⟨⟨"1:s1"⟩, 0⟩)]
  forwarders := [⟨"s1", [], .idle, false⟩]
  out := Mailbox.empty.send .task
    (.info ⟨"1.0", "oa-gateway-0", ⟨"", "", none⟩, "OA-Gateway Prototype"⟩)
  task := .selecting
  cancelled := false

private theorem run_subscribed :
    ((sessionSystem initCrates plainSession).restrict
      (SessionState.LeavesRoom initCrates plainSession)).Run
      .start
      [.incoming (.text ("INIT " ++ initBody)) sampleAnswers, .reply, .reply,
        .incoming (.text "SUB s1 Ping demo") sampleAnswers, .reply] subscribed := by
  refine .cons ⟨?_, rfl⟩ (.cons ⟨trivial, rfl⟩ (.cons ⟨trivial, rfl⟩
    (.cons ⟨?_, rfl⟩ (.cons ⟨trivial, rfl⟩ (.nil _)))))
  · exact Nat.le_of_ble_eq_true rfl
  · exact Nat.le_of_ble_eq_true rfl

theorem subscribed_never_blocks :
    ¬ subscribed.Blocked ∧ subscribed.CanStep initCrates plainSession := by
  obtain ⟨free, able, -⟩ := session_never_blocks initCrates plainSession subscribed
    ⟨_, _, rfl, run_subscribed⟩
  exact ⟨free, able⟩

def pingText : String := "\x7b\"Ping\":1\x7d"

def pingEnvelope : Envelope :=
  (Envelope.new ⟨"3"⟩ (.typed "demo" "Ping") (utf8 pingText)).withContentType .json

/-- Each delivery puts one more message into the queue. -/
private theorem run_forward (state : SessionState)
    (idle : state.forwarders = [⟨"s1", [], .idle, false⟩])
    (free : state.out.occupied < defaultChannelCapacity) :
    (sessionSystem initCrates plainSession).Run state [.deliver 0 pingEnvelope, .take 0, .queue 0]
      { state with out := state.out.send (.forwarder 0) (.msg "s1" pingText) } := by
  obtain ⟨phase, subs, forwarders, out, task, cancelled⟩ := state
  subst idle
  have queued : (sessionSystem initCrates plainSession).step
      ⟨phase, subs, [⟨"s1", [], .holding (.msg "s1" pingText), false⟩], out,
        task, cancelled⟩ (.queue 0)
      ⟨phase, subs, [⟨"s1", [], .idle, false⟩], out.send (.forwarder 0) (.msg "s1" pingText), task,
        cancelled⟩ := by
    simp [sessionSystem, SessionState.step, SessionState.queue, free]
  exact .cons rfl (.cons rfl (.single queued))

/-- The queue fills up while nothing is read from it. -/
private theorem run_fill (count : Nat) (state : SessionState)
    (idle : state.forwarders = [⟨"s1", [], .idle, false⟩])
    (left : state.out.occupied + count = defaultChannelCapacity) :
    ∃ labels out, (sessionSystem initCrates plainSession).Run state labels { state with out } ∧
      out.occupied = defaultChannelCapacity ∧ out.granted = state.out.granted := by
  induction count generalizing state with
  | zero => exact ⟨[], state.out, .nil _, left, rfl⟩
  | succ count ih =>
    have free : state.out.occupied < defaultChannelCapacity := by omega
    obtain ⟨labels, out, run, full, granted⟩ :=
      ih { state with out := state.out.send (.forwarder 0) (.msg "s1" pingText) } idle
        (by rw [Mailbox.occupied_send free]; omega)
    exact ⟨_, out, (run_forward state idle free).append run, full,
      granted.trans Mailbox.granted_send⟩

/-- With the queue full of deliveries, the next client frame stops the session
for good, and a shutdown does not reach it any more. -/
theorem session_blocks :
    ∃ state, (sessionSystem initCrates plainSession).Reachable state ∧ state.Blocked ∧
      state.out.queue.length = 64 ∧ state.cancelled = true ∧
      ¬ state.CanStep initCrates plainSession := by
  obtain ⟨labels, out, filled, full, granted⟩ := run_fill 63 subscribed rfl rfl
  let asked : SessionState :=
    { subscribed with
      out
      cancelled := true
      task := .replying [.err .illegalArgument (some "unknown sid")] (.active false "demo") false }
  have asks : (sessionSystem initCrates plainSession).Run { subscribed with out }
      [.cancel, .incoming (.text "UNSUB s2") sampleAnswers] asked := .cons rfl (.cons rfl (.nil _))
  have waits := @SessionState.reply_cons initCrates plainSession asked _ _ _ _ rfl
  have noRoom : ¬ out.occupied < defaultChannelCapacity := by omega
  simp only [asked, if_neg noRoom] at waits
  have inLine := @Mailbox.mem_waiting_send _ _ _ out .task
    (.err .illegalArgument (some "unknown sid")) noRoom
  have occupied := Mailbox.occupied_eq_of_mem inLine
  have unplaced {op : ServerOp} : (out.send .task op).granted = [] :=
    Mailbox.granted_send.trans granted
  refine ⟨_, ⟨_, _, rfl, run_subscribed.of_restrict.append (filled.append (asks.snoc waits))⟩,
    ⟨rfl, ⟨_, inLine⟩, occupied⟩, ?_, rfl, SessionState.not_canStep_of_waiting rfl unplaced⟩
  rw [Mailbox.occupied, unplaced] at occupied
  exact occupied

end Samples

end OaGateway.Owp
