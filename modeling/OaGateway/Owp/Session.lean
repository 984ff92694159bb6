import OaGateway.Core.Engine
import OaGateway.Lib.Mailbox
import OaGateway.Lib.Transition
import OaGateway.Owp.Publish

/-! One WebSocket session as a machine: the session task, the frames queued for
the client, and the tasks that forward deliveries. The socket, the engine and
the scheduler are free to do anything at any time. -/
namespace OaGateway.Owp

open Lib OaGateway.Core

def owpVersion : String := "1.0"

inductive Phase where
  | awaitingInit
  | active (verbose : Bool) (serviceId : String)

structure LiveSub where
  engineSub : SubId
  forwarder : Nat

/-- What handling a frame does to the engine and the subscriptions. -/
inductive Effect where
  | none
  | publish (envelopes : List Envelope)
  | subscribe (sid : String) (engineSub : SubId) (route : RouteKey)
  | unsubscribe (sid : String) (live : LiveSub)

/-- How a client frame is handled: its effect, then its replies, then the phase
the session goes on in, unless the frame is fatal. -/
structure Outcome where
  replies : List ServerOp
  effect : Effect
  phase : Phase
  fatal : Bool

/-- What comes from outside while a frame is handled: message ids, and whether
the engine takes a subscription. -/
structure Answers where
  ids : MessageId × MessageId
  subscribed : Bool

def negotiate (config : OwpConfig) (init : InitPayload) : Except OwpError Unit :=
  if !init.versions.contains owpVersion then .error .unsupportedVersion
  else match config.schema with
    | none => .ok ()
    | some expected => if init.schema ≠ expected then .error .unsupportedSchema else .ok ()

section
variable (crates : OwpCrates) (session : Session)

def infoPayload (init : InitPayload) : InfoPayload where
  version := owpVersion
  serverId := session.config.serverId
  uuids := ⟨session.config.systemUuid, crates.uuidV5 init.serviceId, none⟩
  systemLabel := session.config.systemLabel

def acknowledge (verbose : Bool) : List ServerOp := if verbose then [.ok] else []

/-- A rejected `INIT` is fatal. -/
def handleInit (init : InitPayload) : Outcome :=
  match negotiate session.config init with
  | .ok () =>
    let verbose := init.verbose.getD true
    ⟨acknowledge verbose ++ [.info (infoPayload crates session init)], .none,
      .active verbose init.serviceId, false⟩
  | .error error => ⟨[.err error none], .none, .awaitingInit, true⟩

def handlePub (answers : Answers) (verbose : Bool) (serviceId topic payload : String) : Outcome :=
  match publishOwp crates session serviceId answers.ids topic payload with
  | .ok envelopes => ⟨acknowledge verbose, .publish envelopes, .active verbose serviceId, false⟩
  | .error error => ⟨[.err .invalidMessage (some error)], .none, .active verbose serviceId, false⟩

def findSub (subs : List (String × LiveSub)) (sid : String) : Option LiveSub :=
  (subs.find? fun sub => sub.1 == sid).map Prod.snd

/-- The `group` of a `SUB` is not read. -/
def handleSub (answers : Answers) (subs : List (String × LiveSub)) (verbose : Bool)
    (serviceId sid messageName topic : String) : Outcome :=
  let refuse (error : OwpError) (details : String) : Outcome :=
    ⟨[.err error (some details)], .none, .active verbose serviceId, false⟩
  if (findSub subs sid).isSome then refuse .illegalArgument "duplicate sid"
  else if subs.length ≥ session.config.maxSubscriptions then
    refuse .illegalState "subscription limit reached"
  else if !answers.subscribed then refuse .internalError "subscribe failed"
  else
    let engineSub : SubId := ⟨toString session.connId ++ ":" ++ sid⟩
    ⟨acknowledge verbose, .subscribe sid engineSub (.typed topic messageName),
      .active verbose serviceId, false⟩

def handleUnsub (subs : List (String × LiveSub)) (verbose : Bool)
    (serviceId sid : String) : Outcome :=
  match findSub subs sid with
  | some live => ⟨acknowledge verbose, .unsubscribe sid live, .active verbose serviceId, false⟩
  | none => ⟨[.err .illegalArgument (some "unknown sid")], .none, .active verbose serviceId, false⟩

/-- Dispatch one client text frame. Only a frame in the wrong phase and a
rejected `INIT` are fatal. -/
def handleText (answers : Answers) (phase : Phase) (subs : List (String × LiveSub))
    (text : String) : Outcome :=
  match parseClient crates text with
  | .error error => ⟨[.err .illegalArgument (some error.display)], .none, phase, false⟩
  | .ok op =>
    match phase with
    | .awaitingInit =>
      match op with
      | .init init => handleInit crates session init
      | _ => ⟨[.err .illegalState (some "INIT must be the first operation")], .none, phase, true⟩
    | .active verbose serviceId =>
      match op with
      | .init _ => ⟨[.err .illegalState (some "duplicate INIT")], .none, phase, true⟩
      | .pub topic payload => handlePub crates session answers verbose serviceId topic payload
      | .sub sid messageName topic _ =>
        handleSub session answers subs verbose serviceId sid messageName topic
      | .unsub sid => handleUnsub subs verbose serviceId sid

end

inductive Incoming where
  | text (text : String)
  | ping (data : Bytes)
  | pong
  | frame
  | binary
  | close

inductive Outgoing where
  | op (op : ServerOp)
  | pong (data : Bytes)
  | close (reason : String)

inductive Task where
  | selecting
  | writing (message : Outgoing)
  /-- Handling a client frame, with these replies still to queue. -/
  | replying (ops : List ServerOp) (phase : Phase) (fatal : Bool)
  /-- Waiting to queue a reply, with more of them after it. -/
  | waiting (ops : List ServerOp) (phase : Phase) (fatal : Bool)
  | stopped

inductive Stage where
  | idle
  | holding (op : ServerOp)
  /-- In line for a place in the queue, or about to fill the one it was given. -/
  | sending
  | ended

structure Forwarder where
  sid : String
  inbox : List Envelope
  stage : Stage
  aborted : Bool

inductive Party where
  | task
  | forwarder (index : Nat)
deriving DecidableEq, Repr

/-- One session while it runs. A forwarder is known by its place in the list. -/
structure SessionState where
  phase : Phase
  subs : List (String × LiveSub)
  forwarders : List Forwarder
  out : Mailbox defaultChannelCapacity Party ServerOp
  task : Task
  cancelled : Bool

namespace SessionState

def start : SessionState := ⟨.awaitingInit, [], [], .empty, .selecting, false⟩

def abort (forwarder : Forwarder) : Forwarder := { forwarder with aborted := true }

/-- Leave the loop: every forwarder with a live subscription is aborted. -/
def stop (state : SessionState) : SessionState :=
  { state with
    task := .stopped
    subs := []
    forwarders := state.forwarders.mapIdx fun index forwarder =>
      if state.subs.any fun sub => sub.2.forwarder == index then abort forwarder else forwarder }

def perform (state : SessionState) : Effect → SessionState
  | .none => state
  | .publish _ => state
  | .subscribe sid engineSub _ =>
    { state with
      forwarders := state.forwarders ++ [⟨sid, [], .idle, false⟩]
      subs := state.subs ++ [(sid, ⟨engineSub, state.forwarders.length⟩)] }
  | .unsubscribe sid live =>
    { state with
      forwarders := state.forwarders.modify live.forwarder abort
      subs := state.subs.filter fun sub => sub.1 != sid }

def deadline (config : OwpConfig) : Phase → Option String
  | .awaitingInit => if config.initTimeout then some "no INIT before the init timeout" else none
  | .active _ _ => if config.idleTimeout then some "no frames before the idle timeout" else none

section
variable (crates : OwpCrates) (session : Session)

def respond (state : SessionState) (answers : Answers) : Incoming → Option Outcome
  | .text text => some (handleText crates session answers state.phase state.subs text)
  | .binary =>
    some ⟨[.err .illegalOperation (some "binary frames are not allowed")], .none, state.phase, true⟩
  | _ => none

def replies (state : SessionState) (answers : Answers) (message : Incoming) : List ServerOp :=
  ((respond crates session state answers message).map Outcome.replies).getD []

def read (state : SessionState) (answers : Answers) (message : Incoming) : SessionState :=
  match respond crates session state answers message with
  | some outcome =>
    { state.perform outcome.effect with
      task := .replying outcome.replies outcome.phase outcome.fatal }
  | none =>
    match message with
    | .ping data => { state with task := .writing (.pong data) }
    | .close => state.stop
    | _ => state

end

/-- A failed write ends the session, except that of a pong. -/
def wrote (state : SessionState) (success : Bool) : Outgoing → SessionState
  | .op _ => if success then { state with task := .selecting } else state.stop
  | .pong _ => { state with task := .selecting }
  | .close _ => state.stop

def select (state : SessionState) (next : Option SessionState) : Option SessionState :=
  match state.task with
  | .selecting => next
  | _ => none

end SessionState

/-- One step of a session, by whoever takes it. -/
inductive Event where
  | cancel
  | shutdown
  | timeout
  | recv
  /-- The socket fails or ends. -/
  | hangup
  | incoming (message : Incoming) (answers : Answers)
  | written (success : Bool)
  | reply
  /-- A sender fills the place it was given. -/
  | settle (party : Party)
  | deliver (index : Nat) (envelope : Envelope)
  | take (index : Nat)
  | queue (index : Nat)
  /-- The engine's side of the channel is gone. -/
  | finish (index : Nat)
  /-- An abort takes effect. -/
  | drop (index : Nat)

def Event.own : Event → Bool
  | shutdown | timeout | recv | hangup | incoming _ _ | written _ | reply | settle .task => true
  | _ => false

namespace SessionState
variable (crates : OwpCrates) (session : Session)

/-- Queue the next reply, or go on once there is none left. -/
def reply (state : SessionState) : Option SessionState :=
  match state.task with
  | .replying [] phase fatal =>
    some (if fatal then stop { state with phase } else { state with phase, task := .selecting })
  | .replying (op :: ops) phase fatal =>
    some
      { state with
        out := state.out.send .task op
        task := if state.out.occupied < defaultChannelCapacity then .replying ops phase fatal
          else .waiting ops phase fatal }
  | _ => none

def settle (state : SessionState) (party : Party) : Option SessionState :=
  match state.out.settle party with
  | none => none
  | some out =>
    match party with
    | .forwarder index =>
      some { state with out, forwarders := state.forwarders.modify index fun forwarder =>
        { forwarder with stage := .idle } }
    | .task =>
      match state.task with
      | .waiting ops phase fatal => some { state with out, task := .replying ops phase fatal }
      | _ => none

/-- Change one forwarder, where the change applies to it. -/
def advance (state : SessionState) (index : Nat) (change : Forwarder → Option Forwarder) :
    Option SessionState :=
  match state.forwarders[index]?.bind change with
  | none => none
  | some forwarder => some { state with forwarders := state.forwarders.set index forwarder }

def deliver (envelope : Envelope) (forwarder : Forwarder) : Option Forwarder :=
  match forwarder.stage with
  | .ended => none
  | _ =>
    if forwarder.inbox.length < defaultChannelCapacity then
      some { forwarder with inbox := forwarder.inbox ++ [envelope] }
    else none

def take (forwarder : Forwarder) : Option Forwarder :=
  match forwarder.stage, forwarder.inbox with
  | .idle, envelope :: inbox =>
    match forwardFrame crates session forwarder.sid envelope with
    | none => some { forwarder with inbox }
    | some op => some { forwarder with inbox, stage := .holding op }
  | _, _ => none

def queue (state : SessionState) (index : Nat) : Option SessionState :=
  match state.forwarders[index]? with
  | some ⟨sid, inbox, .holding op, aborted⟩ =>
    let stage : Stage := if state.out.occupied < defaultChannelCapacity then .idle else .sending
    some
      { state with
        out := state.out.send (.forwarder index) op
        forwarders := state.forwarders.set index ⟨sid, inbox, stage, aborted⟩ }
  | _ => none

def finish (forwarder : Forwarder) : Option Forwarder :=
  match forwarder.stage, forwarder.inbox with
  | .idle, [] => some { forwarder with stage := .ended }
  | _, _ => none

def drop (forwarder : Forwarder) : Option Forwarder :=
  match forwarder.stage with
  | .ended => none
  | _ => if forwarder.aborted then some { forwarder with stage := .ended } else none

def step (state : SessionState) : Event → Option SessionState
  | .cancel => some { state with cancelled := true }
  | .shutdown => state.select (if state.cancelled then some state.stop else none)
  | .timeout =>
    state.select ((deadline session.config state.phase).map fun reason =>
      { state with task := .writing (.close reason) })
  | .recv =>
    state.select (state.out.receive.map fun taken =>
      { state with out := taken.2, task := .writing (.op taken.1) })
  | .hangup => state.select (some state.stop)
  | .incoming message answers => state.select (some (state.read crates session answers message))
  | .written success =>
    match state.task with
    | .writing message => some (state.wrote success message)
    | _ => none
  | .reply => state.reply
  | .settle party => state.settle party
  | .deliver index envelope => state.advance index (deliver envelope)
  | .take index => state.advance index (take crates session)
  | .queue index => state.queue index
  | .finish index => state.advance index finish
  | .drop index =>
    (state.advance index drop).map fun after =>
      { after with out := after.out.cancel (.forwarder index) }

end SessionState

/-- A session from the handshake on, in any order of steps. -/
def sessionSystem (crates : OwpCrates) (session : Session) : System SessionState Event where
  initial state := state = .start
  step before event after := before.step crates session event = some after

end OaGateway.Owp
