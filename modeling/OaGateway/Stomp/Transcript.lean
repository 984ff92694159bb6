import OaGateway.Stomp.Chunks
import OaGateway.Stomp.Lifecycle

/-! One STOMP session with what it says and hears: the frames it writes, the
bytes that arrive from the broker, and what they come to on the engine. -/
namespace OaGateway.Stomp

open Lib Lib.Framing OaGateway.Core

def CodecError.display : CodecError → String
  | .notUtf8 => "STOMP frame is not valid UTF-8 in command or headers"
  | .missingCommand => "STOMP frame missing command"
  | .badHeader => "STOMP header is missing ':'"
  | .badEscape => "STOMP header has invalid escape"
  | .badContentLength => "STOMP content-length is not a number"
  | .nulInHeaders => "STOMP header block contains a NUL byte"
  | .frameTooLarge max => "STOMP frame exceeds the " ++ toString max ++ " byte limit"
  | .missingNull => "STOMP frame missing NUL terminator"

/-- What a session needs to know besides the life of its adapter. -/
structure Client where
  life : Lifetime
  host : String
  login : Option String
  passcode : Option String
  maxFrameSize : UInt64

namespace Client

/-- The `CONNECT` of `connect`. A passcode goes with a login only. -/
def connectFrame (client : Client) : Frame :=
  let connect :=
    (((Frame.new "CONNECT").withHeader "accept-version" "1.2").withHeader
    "host" client.host).withHeader
    "heart-beat" "0,0"
  match client.login with
  | none => connect
  | some login =>
    let connect := connect.withHeader "login" login
    match client.passcode with
    | none => connect
    | some passcode => connect.withHeader "passcode" passcode

end Client

def disconnectFrame : Frame := .new "DISCONNECT"

/-- The rest of `connect`, once the first frame is read. -/
def greet (frame : Frame) : Except String Unit :=
  if frame.command = "CONNECTED" then .ok ()
  else if frame.command = "ERROR" then
    .error ("I/O error: STOMP ERROR: " ++ (frame.header "message").getD
      ((fromUtf8 frame.body).getD "ERROR"))
  else .error ("I/O error: expected CONNECTED, got " ++ frame.command)

/-- A session with its two halves of the socket. -/
structure Talk where
  run : SessionRun
  /-- Frames written whole. -/
  written : List Frame
  /-- `FrameReader::buf`. -/
  buffer : Bytes
  /-- Every byte read from the socket. -/
  arrived : Bytes
  read : List Frame
  /-- Deliveries the session is through with. -/
  forwarded : List Delivery
  published : List Envelope

inductive TalkEvent where
  /-- The socket is open and `CONNECT` written. -/
  | opened
  | arrived (chunk : Bytes)
  /-- A frame is handled, with the ids its envelopes get. -/
  | handled (ids : MessageId × MessageId) (frame : Frame)
  | moved (event : SessionEvent)

/-- The steps that neither read nor write the socket. -/
def SessionEvent.Aside : SessionEvent → Prop
  | .cleared _ | .writeFailed _ _ | .subscribed _ | .shutdown | .drained | .left _ | .cancel
  | .other _ =>
    True
  | _ => False

section
variable (crates : Crates) (client : Client)

/-- `decode_one_with_limit` on the buffer of a session. -/
def Client.decode (buffer : Bytes) : Except CodecError (Option Frame) × Bytes :=
  decodeOneWithLimit client.maxFrameSize buffer

/-- A `recv` of the session is going on. -/
def Talk.Listening (talk : Talk) : Prop :=
  talk.run.stage = .connecting ∧ talk.written ≠ [] ∨ talk.run.stage = .driving

/-- What a frame comes to on the engine. One that cannot be handled is dropped. -/
def Client.envelopes (ids : MessageId × MessageId) (frame : Frame) : List Envelope :=
  match handleFrame crates client.life.adapter ids frame with
  | .ok envelopes => envelopes
  | .error _ => []

/-- A step of the session with its reads and writes. A `recv` that another arm
of `select!` cuts off loses nothing: what it read is in the buffer. -/
inductive TalkStep (talk : Talk) : TalkEvent → Talk → Prop where
  | opened (here : talk.run.stage = .connecting) (fresh : talk.written = []) :
      TalkStep talk .opened { talk with written := [client.connectFrame] }
  | arrived (listening : talk.Listening) (waits : client.decode talk.buffer = (.ok none, kept))
      (more : chunk ≠ []) :
      TalkStep talk (.arrived chunk)
        { talk with buffer := kept ++ chunk, arrived := talk.arrived ++ chunk }
  | greeted (moved : SessionStep client.life talk.run .connected run) (asked : talk.written ≠ [])
      (decoded : client.decode talk.buffer = (.ok (some frame), rest))
        (welcome : greet frame = .ok ()) :
      TalkStep talk (.moved .connected) { talk with
        run, buffer := rest, read := talk.read ++ [frame] }
  | rejected (moved : SessionStep client.life talk.run (.connectFailed error) run)
      (asked : talk.written ≠ []) (decoded : client.decode talk.buffer = (.ok (some frame), rest))
        (answer : greet frame = .error error) :
      TalkStep talk (.moved (.connectFailed error))
        { talk with run, buffer := rest, read := talk.read ++ [frame] }
  -- no socket, no bytes in time, or none that can be read
  | unreachable (moved : SessionStep client.life talk.run (.connectFailed error) run) :
      TalkStep talk (.moved (.connectFailed error)) { talk with run }
  | wrote (moved : SessionStep client.life talk.run (.written index) run)
      (named : client.life.adapter.config.topics[index]? = some topic) :
      TalkStep talk (.moved (.written index))
        { talk with
          run
          written := talk.written ++
            [subscribeFrame ("sub-" ++ toString index) (client.life.adapter.map.toStomp topic)] }
  | handled (moved : SessionStep client.life talk.run (.frame frame) run)
      (decoded : client.decode talk.buffer = (.ok (some frame), rest)) :
      TalkStep talk (.handled ids frame)
        { talk with
          run
          buffer := rest
          read := talk.read ++ [frame]
          published := talk.published ++ client.envelopes crates ids frame }
  | hangup (moved : SessionStep client.life talk.run .hangup run)
      (waits : client.decode talk.buffer = (.ok none, kept)) :
      TalkStep talk (.moved .hangup) { talk with run, buffer := kept }
  | misread (moved : SessionStep client.life talk.run (.readFailed error.display) run)
      (decoded : client.decode talk.buffer = (.error error, rest)) :
      TalkStep talk (.moved (.readFailed error.display)) { talk with run, buffer := rest }
  | readFailed (moved : SessionStep client.life talk.run (.readFailed error) run)
      (waits : client.decode talk.buffer = (.ok none, kept)) :
      TalkStep talk (.moved (.readFailed error)) { talk with run, buffer := kept }
  | forwarded (moved : SessionStep client.life talk.run (.forwarded delivery) run) :
      TalkStep talk (.moved (.forwarded delivery))
        { talk with
          run
          forwarded := talk.forwarded ++ [delivery]
          written := talk.written ++
            (forwardOutbound client.life.adapter delivery.envelope).toList }
  | sendFailed (moved : SessionStep client.life talk.run (.sendFailed delivery error) run)
      (sends : forwardOutbound client.life.adapter delivery.envelope = some frame) :
      TalkStep talk (.moved (.sendFailed delivery error)) { talk with run }
  | disconnected (moved : SessionStep client.life talk.run (.disconnected success) run) :
      TalkStep talk (.moved (.disconnected success))
        { talk with run, written := talk.written ++ if success then [disconnectFrame] else [] }
  | aside (moved : SessionStep client.life talk.run event run) (aside : event.Aside) :
      TalkStep talk (.moved event) { talk with run }

/-- A session from its start, in any order of steps. -/
def talkSystem : System Talk TalkEvent where
  initial talk := (sessionSystem client.life).initial talk.run ∧ talk.written = [] ∧
    talk.buffer = [] ∧
    talk.arrived = [] ∧ talk.read = [] ∧ talk.forwarded = [] ∧ talk.published = []
  step := TalkStep crates client

end

section Speaking
variable {crates : Crates} {client : Client} {talk after : Talk}

/-- The `SEND`s of some deliveries. -/
def Client.sends (client : Client) (deliveries : List Delivery) : List Frame :=
  deliveries.filterMap fun delivery => forwardOutbound client.life.adapter delivery.envelope

/-- `CONNECT`, and the `SUBSCRIBE`s for the first topics. -/
def Client.lead (client : Client) (count : Nat) : List Frame :=
  client.connectFrame :: (subscribeFrames client.life.adapter).take count

/-- All that a session says before it disconnects. -/
def Client.speech (client : Client) (deliveries : List Delivery) : List Frame :=
  client.connectFrame :: (subscribeFrames client.life.adapter ++ client.sends deliveries)

/-- What a session has written, by the point it has got to. -/
def Talk.Spoke (client : Client) (talk : Talk) : SessionStage → Prop
  | .connecting => (talk.written = [] ∨ talk.written = client.lead 0) ∧ talk.forwarded = []
  | .clearing => talk.written = client.lead 0 ∧ talk.forwarded = []
  | .writing index => talk.written = client.lead index ∧ talk.forwarded = []
  | .subscribing index => talk.written = client.lead (index + 1) ∧ talk.forwarded = []
  | .driving | .disconnecting _ => talk.written = client.speech talk.forwarded
  | .leaving _ | .ended _ => talk.written <+: client.speech talk.forwarded ++ [disconnectFrame]

theorem length_subscribeFrames (adapter : StompAdapter) :
    (subscribeFrames adapter).length = adapter.config.topics.length := by
  simp [subscribeFrames]

theorem getElem?_subscribeFrames {adapter : StompAdapter} {index : Nat} {topic : String}
    (named : adapter.config.topics[index]? = some topic) :
    (subscribeFrames adapter)[index]? =
      some (subscribeFrame ("sub-" ++ toString index) (adapter.map.toStomp topic)) := by
  simp [subscribeFrames, List.getElem?_zipIdx, named]

theorem Client.lead_succ {index : Nat} {topic : String}
    (named : client.life.adapter.config.topics[index]? = some topic) :
    client.lead (index + 1) = client.lead index ++
      [subscribeFrame ("sub-" ++ toString index) (client.life.adapter.map.toStomp topic)] := by
  rw [lead, lead, List.take_add_one, getElem?_subscribeFrames named]
  rfl

theorem Client.lead_all {count : Nat} (all : client.life.adapter.config.topics.length ≤ count) :
    client.lead count = client.speech [] := by
  rw [lead, speech, List.take_of_length_le (by rwa [length_subscribeFrames])]
  simp [sends]

theorem Client.lead_cut (client : Client) (count : Nat) :
    client.lead count <+: client.speech [] ++ [disconnectFrame] := by
  rw [← client.lead_all (Nat.le_refl _)]
  refine List.IsPrefix.trans ?_ (List.prefix_append _ _)
  refine List.prefix_cons_inj _ |>.mpr ?_
  rw [List.take_of_length_le (Nat.le_of_eq (length_subscribeFrames _))]
  exact List.take_prefix _ _

theorem Client.speech_snoc (client : Client) (deliveries : List Delivery) (delivery : Delivery) :
    client.speech (deliveries ++ [delivery]) =
      client.speech deliveries ++
          (forwardOutbound client.life.adapter delivery.envelope).toList := by
  cases sent : forwardOutbound client.life.adapter delivery.envelope <;> simp [speech, sends, sent]

/-- The loop over the topics goes on, or all are written. -/
theorem Talk.Spoke.next {index : Nat} (written : talk.written = client.lead index)
    (none : talk.forwarded = []) :
    talk.Spoke client (client.life.next index) := by
  rw [Lifetime.next]
  split
  · exact ⟨written, none⟩
  · rename_i all
    rw [Spoke, none, written, client.lead_all (Nat.not_lt.mp all)]

/-- Whatever has been written so far is a first part of it all. -/
theorem Talk.Spoke.cut {stage : SessionStage} (spoke : talk.Spoke client stage) :
    talk.written <+: client.speech talk.forwarded ++ [disconnectFrame] := by
  cases stage with
  | connecting =>
    obtain ⟨nothing | asked, none⟩ := spoke
    · rw [nothing]
      exact List.nil_prefix
    · rw [asked, none]
      exact client.lead_cut 0
  | clearing | writing | subscribing =>
    rw [spoke.1, spoke.2]
    exact client.lead_cut _
  | driving | disconnecting =>
    rw [show talk.written = _ from spoke]
    exact List.prefix_append _ _
  | leaving | ended => exact spoke

theorem Talk.Spoke.driven (spoke : talk.Spoke client talk.run.stage)
    (here : talk.run.stage = .driving) :
    talk.written = client.speech talk.forwarded := by
  rw [here] at spoke
  exact spoke

theorem Talk.Spoke.step (spoke : talk.Spoke client talk.run.stage) {event : TalkEvent}
    (step : TalkStep crates client talk event after) : after.Spoke client after.run.stage := by
  cases step with
  | opened here fresh =>
    rw [here] at spoke ⊢
    exact ⟨.inr rfl, spoke.2⟩
  | arrived => exact spoke
  | greeted moved asked =>
    cases moved with
    | connected here =>
      rw [here] at spoke
      exact ⟨spoke.1.resolve_left asked, spoke.2⟩
  | rejected moved | unreachable moved =>
    cases moved with
    | connectFailed here => exact spoke.cut
  | wrote moved named =>
    cases moved with
    | written here =>
      rw [here] at spoke
      exact ⟨by rw [spoke.1, client.lead_succ named], spoke.2⟩
  | handled moved =>
    cases moved with
    | frame here => exact spoke
  | hangup moved =>
    cases moved with
    | hangup here => exact spoke.driven here
  | misread moved | readFailed moved =>
    cases moved with
    | readFailed here => exact spoke.driven here
  | sendFailed moved =>
    cases moved with
    | sendFailed here => exact spoke.driven here
  | forwarded moved =>
    cases moved with
    | forwarded here =>
      rw [here, Spoke, client.speech_snoc, spoke.driven here]
  | @disconnected success _ moved =>
    cases moved with
    | disconnected here =>
      rw [here] at spoke
      rw [Spoke, show talk.written = _ from spoke]
      cases success
      · simp
      · exact List.prefix_refl _
  | aside moved aside =>
    cases moved with
    | cleared here =>
      rw [here] at spoke
      exact .next spoke.1 spoke.2
    | writeFailed here | refused here => exact spoke.cut
    | subscribed here =>
      rw [here] at spoke
      exact .next spoke.1 spoke.2
    | shutdown here | drained here => exact spoke.driven here
    | left here => exact spoke.cut
    | cancel | other => exact spoke
    | _ => cases aside

theorem spoke_of_reachable (reached : (talkSystem crates client).Reachable talk) :
    talk.Spoke client talk.run.stage := by
  refine reached.invariant (motive := fun talk => talk.Spoke client talk.run.stage) ?start ?step
  case start =>
    rintro talk ⟨⟨stage, -⟩, written, -, -, -, forwarded, -⟩
    rw [stage]
    exact ⟨.inl written, forwarded⟩
  case step => exact fun _ _ _ step spoke => spoke.step step

/-- Frames written one after the other are a stream of what they are read as. -/
theorem framed_written {limit : UInt64} {frames : List Frame}
    (clean : ∀ frame ∈ frames, frame.Writable ∧ frame.NulFree ∧ frame.encode.length ≤ limit.toNat) :
    Framed (fun b => heartbeat b = true) (Accepted limit)
      (frames.map fun frame => { frame with headers := frame.wireHeaders })
          (frames.flatMap Frame.encode) := by
  induction frames with
  | nil => exact .done (by simp)
  | cons frame rest ih =>
    obtain ⟨⟨writable, free, fits⟩, others⟩ := List.forall_mem_cons.mp clean
    exact .next (show ∀ b ∈ [], _ from by simp) (writable.accepted fits free) (ih others)

/-- A session says what its config and its deliveries make it say, as far as it
gets: `CONNECT`, a `SUBSCRIBE` for each topic, a `SEND` for each delivery that is
no echo, `DISCONNECT`. Whoever reads its bytes, in whatever pieces, reads these
frames. -/
theorem session_speaks (crates : Crates) (client : Client) (talk : Talk)
    (reached : (talkSystem crates client).Reachable talk) :
    talk.written <+: client.speech talk.forwarded ++ [disconnectFrame] ∧
      (talk.run.stage = .driving → talk.written = client.speech talk.forwarded) ∧
      ∀ peer : FrameReader,
        (∀ frame ∈ talk.written, frame.Writable ∧ frame.NulFree ∧
          frame.encode.length ≤ peer.maxFrameSize.toNat) →
          (∀ chunk ∈ peer.reader.chunks, chunk ≠ []) →
            peer.reader.stream = talk.written.flatMap Frame.encode →
            (peer.recvMany talk.written.length).1 =
              talk.written.map fun frame =>
                  .ok (some { frame with headers := frame.wireHeaders }) := by
  have spoke := spoke_of_reachable reached
  refine ⟨spoke.cut, spoke.driven, fun peer clean alive bytes => ?_⟩
  obtain ⟨after, received, -⟩ := recvMany_chunks (framed_written clean) rfl alive bytes 0
  simpa [List.map_map, Function.comp_def] using congrArg Prod.fst received

end Speaking

section Hearing
variable {crates : Crates} {client : Client} {talk after : Talk} {frames : List Frame}
  {stream : Bytes}

/-- What has been read of a stream, and what is left of it in the buffer and on
the way. -/
def Talk.Heard (client : Client) (frames : List Frame) (stream : Bytes) (talk : Talk) : Prop :=
  ∀ later, talk.arrived ++ later = stream → ∃ unread, frames = talk.read ++ unread ∧
    Framed (fun b => heartbeat b = true) (Begins client.maxFrameSize) unread (talk.buffer ++ later)

theorem Talk.Heard.waits (heard : talk.Heard client frames stream) {kept : Bytes}
    (decoded : client.decode talk.buffer = (.ok none, kept)) {later : Bytes}
    (split : talk.arrived ++ later = stream) :
    ∃ unread, frames = talk.read ++ unread ∧
      Framed (fun b => heartbeat b = true) (Begins client.maxFrameSize) unread (kept ++ later) ∧
      (later = [] → unread = []) := by
  obtain ⟨unread, rfl, framed⟩ := heard later split
  rcases (decodes_frames client.maxFrameSize).advance framed with ⟨_, _, _, -, given, -⟩ | ⟨again,
    waited, left, last⟩
  · rw [Client.decode, given] at decoded
    cases decoded
  · rw [Client.decode, waited] at decoded
    cases decoded
    exact ⟨unread, rfl, left, last⟩

theorem Talk.Heard.gives (heard : talk.Heard client frames stream) {frame : Frame} {kept : Bytes}
    (decoded : client.decode talk.buffer = (.ok (some frame), kept)) {later : Bytes}
    (split : talk.arrived ++ later = stream) :
    ∃ unread, frames = talk.read ++ [frame] ++ unread ∧
      Framed (fun b => heartbeat b = true) (Begins client.maxFrameSize) unread (kept ++ later) := by
  obtain ⟨unread, rfl, framed⟩ := heard later split
  rcases (decodes_frames client.maxFrameSize).advance
    framed with ⟨value, rest, again, rfl, given, left⟩ | ⟨_, waited, -⟩
  · rw [Client.decode, given] at decoded
    cases decoded
    exact ⟨rest, by simp, left⟩
  · rw [Client.decode, waited] at decoded
    cases decoded

/-- Frames that came whole are never taken for something else. -/
theorem Talk.Heard.no_error (heard : talk.Heard client frames stream)
    (cut : talk.arrived <+: stream) {error : CodecError} {kept : Bytes} :
    client.decode talk.buffer ≠ (.error error, kept) := by
  intro decoded
  obtain ⟨later, split⟩ := cut
  obtain ⟨unread, -, framed⟩ := heard later split
  rcases (decodes_frames client.maxFrameSize).advance
    framed with ⟨_, _, _, -, given, -⟩ | ⟨_, waited, -⟩
  · rw [Client.decode, given] at decoded
    cases decoded
  · rw [Client.decode, waited] at decoded
    cases decoded

theorem Talk.Heard.step (heard : talk.Heard client frames stream) (cut : after.arrived <+: stream)
    {event : TalkEvent} (step : TalkStep crates client talk event after) :
    after.Heard client frames stream := by
  cases step with
  | opened | unreachable | wrote | forwarded | sendFailed | disconnected | aside => exact heard
  | @arrived _ chunk _ waits =>
    intro later split
    rw [List.append_assoc] at split
    obtain ⟨unread, same, framed, -⟩ := heard.waits waits split
    exact ⟨unread, same, by rwa [List.append_assoc]⟩
  | greeted _ _ decoded | rejected _ _ decoded | handled _ decoded =>
    intro later split
    exact heard.gives decoded split
  | hangup _ waits | readFailed _ waits =>
    intro later split
    obtain ⟨unread, same, framed, -⟩ := heard.waits waits split
    exact ⟨unread, same, framed⟩
  | misread _ decoded => exact absurd decoded (heard.no_error cut)

theorem arrived_step {event : TalkEvent} (step : TalkStep crates client talk event after) :
    talk.arrived <+: after.arrived := by
  cases step with
  | arrived => exact List.prefix_append _ _
  | _ => exact List.prefix_refl _

theorem heard_of_reachable (reached : (talkSystem crates client).Reachable talk)
    (sent : Framed (fun b => heartbeat b = true) (Accepted client.maxFrameSize) frames stream)
    (cut : talk.arrived <+: stream) : talk.Heard client frames stream := by
  refine reached.invariant (motive := fun talk => talk.arrived <+: stream →
    talk.Heard client frames stream)
    ?start ?step cut
  case start =>
    rintro talk ⟨-, -, buffer, arrived, read, -, -⟩ - later split
    rw [arrived, List.nil_append] at split
    rw [buffer, read, split]
    exact ⟨frames, rfl, begun_stream sent⟩
  case step =>
    intro before event after step heard cut
    exact (heard ((arrived_step step).trans cut)).step cut step

/-- A session that has been let in by the broker. -/
def SessionStage.Inside : SessionStage → Prop
  | .connecting | .ended _ => False
  | _ => True

/-- What a session has published: the frames after the broker's `CONNECTED`,
each handled with some ids. -/
structure Talk.Passed (crates : Crates) (client : Client) (talk : Talk) : Prop where
  silent : talk.run.stage = .connecting → talk.read = []
  welcomed : talk.run.stage.Inside ∨ talk.published ≠ [] →
    ∃ first ∈ talk.read.head?, greet first = .ok ()
  handled : ∃ ids : List (MessageId × MessageId), ids.length = talk.read.tail.length ∧
    talk.published = (List.zipWith (client.envelopes crates) ids talk.read.tail).flatten

theorem SessionStep.inside {run next : SessionRun} {event : SessionEvent}
    (step : SessionStep client.life run event next) :
    (next.stage.Inside → event = .connected ∨ run.stage.Inside) ∧
      (next.stage = .connecting → run.stage = .connecting) := by
  have around (index : Nat) : client.life.next index ≠ .connecting := by
    rw [Lifetime.next]
    split <;> simp
  cases step with
  | connected here => exact ⟨fun _ => .inl rfl, fun same => by cases same⟩
  | connectFailed here | writeFailed here | refused here | left here =>
    exact ⟨fun inside => inside.elim, fun same => by cases same⟩
  | cleared here | subscribed here =>
    exact ⟨fun _ => .inr (by rw [here]; trivial), fun same => absurd same (around _)⟩
  | frame | forwarded | cancel | other => exact ⟨.inr, id⟩
  | written here | shutdown here | hangup here | readFailed here | sendFailed here | drained here
  | disconnected here =>
    exact ⟨fun _ => .inr (by rw [here]; trivial), fun same => by cases same⟩

/-- Steps that read no frame. -/
theorem Talk.Passed.still (passed : talk.Passed crates client) {event : SessionEvent}
    (moved : SessionStep client.life talk.run event after.run) (quiet : event ≠ .connected)
    (read : after.read = talk.read) (published : after.published = talk.published) :
    after.Passed crates client where
  silent here := by
    rw [read]
    exact passed.silent (moved.inside.2 here)
  welcomed either := by
    rw [read]
    rw [published] at either
    exact passed.welcomed (either.imp_left fun inside => (moved.inside.1 inside).resolve_left quiet)
  handled := by
    rw [read, published]
    exact passed.handled

theorem Talk.Passed.step (passed : talk.Passed crates client) {event : TalkEvent}
    (step : TalkStep crates client talk event after) : after.Passed crates client := by
  cases step with
  | opened => exact ⟨passed.silent, passed.welcomed, passed.handled⟩
  | arrived => exact ⟨passed.silent, passed.welcomed, passed.handled⟩
  | greeted moved asked decoded welcome =>
    cases moved with
    | connected here =>
      have none := passed.silent here
      refine ⟨fun same => ?_, fun _ => ?_, ?_⟩
      · cases same
      · simp [none, welcome]
      · simpa [none] using passed.handled
  | rejected moved asked decoded answer =>
    cases moved with
    | connectFailed here =>
      have none := passed.silent here
      refine ⟨fun same => ?_, fun either => ?_, ?_⟩
      · cases same
      · rcases either with inside | told
        · exact inside.elim
        · obtain ⟨first, member, -⟩ := passed.welcomed (.inr told)
          simp [none] at member
      · simpa [none] using passed.handled
  | @handled frame _ rest ids moved decoded =>
    cases moved with
    | frame here =>
      obtain ⟨first, member, welcome⟩ := passed.welcomed (.inl (by rw [here]; trivial))
      obtain ⟨others, split⟩ : ∃ others, talk.read = first :: others :=
        List.head?_eq_some_iff.mp member
      obtain ⟨drawn, length, published⟩ := passed.handled
      simp only [split, List.tail_cons] at length published
      refine ⟨fun same => ?_, fun _ => ⟨first, by simp [split], welcome⟩, drawn ++ [ids], ?_, ?_⟩
      · rw [here] at same
        cases same
      · simpa [split] using length
      · simp only [split, List.cons_append, List.tail_cons]
        rw [List.zipWith_append length, List.flatten_append, published]
        simp
  | unreachable moved => exact passed.still moved (by simp) rfl rfl
  | wrote moved => exact passed.still moved (by simp) rfl rfl
  | hangup moved => exact passed.still moved (by simp) rfl rfl
  | misread moved => exact passed.still moved (by simp) rfl rfl
  | readFailed moved => exact passed.still moved (by simp) rfl rfl
  | forwarded moved => exact passed.still moved (by simp) rfl rfl
  | sendFailed moved => exact passed.still moved (by simp) rfl rfl
  | disconnected moved => exact passed.still moved (by simp) rfl rfl
  | aside moved aside =>
    refine passed.still moved ?_ rfl rfl
    rintro rfl
    exact aside

theorem passed_of_reachable (reached : (talkSystem crates client).Reachable talk) :
    talk.Passed crates client := by
  refine reached.invariant (motive := fun talk => talk.Passed crates client) ?start ?step
  case start =>
    rintro talk ⟨⟨stage, -⟩, -, -, -, read, -, published⟩
    refine ⟨fun _ => read, fun either => ?_, [], by simp [read], by simp [read, published]⟩
    rcases either with inside | told
    · rw [stage] at inside
      exact inside.elim
    · exact absurd published told
  case step => exact fun _ _ _ step passed => passed.step step

/-- A broker's frames are read in order, however they are cut up and whatever the
session does in between; none is mistaken for an error, and none is missed. What
is published is what the frames after `CONNECTED` come to, in their order. -/
theorem session_hears (crates : Crates) (client : Client) (talk : Talk)
    (reached : (talkSystem crates client).Reachable talk) (frames : List Frame) (stream : Bytes)
    (sent : Framed (fun b => heartbeat b = true) (Accepted client.maxFrameSize) frames stream)
    (cut : talk.arrived <+: stream) :
    talk.read <+: frames ∧
      (talk.arrived = stream → (client.decode talk.buffer).1 = .ok none → talk.read = frames) ∧
      (∀ error, (client.decode talk.buffer).1 ≠ .error error) ∧
      (talk.published ≠ [] → ∃ first ∈ frames.head?, greet first = .ok ()) ∧
      ∃ ids : List (MessageId × MessageId), ids.length = talk.read.tail.length ∧
        talk.published = (List.zipWith (client.envelopes crates) ids talk.read.tail).flatten := by
  have heard := heard_of_reachable reached sent cut
  have passed := passed_of_reachable reached
  have front : talk.read <+: frames := by
    obtain ⟨later, split⟩ := cut
    obtain ⟨unread, rfl, -⟩ := heard later split
    exact List.prefix_append _ _
  refine ⟨front, fun all idle => ?_, fun error failed => ?_, fun told => ?_, passed.handled⟩
  · obtain ⟨unread, same, -, last⟩ := heard.waits (Prod.ext idle rfl) (by rw [List.append_nil, all])
    rw [same, last rfl, List.append_nil]
  · exact heard.no_error cut (Prod.ext failed rfl)
  · obtain ⟨first, member, welcome⟩ := passed.welcomed (.inr told)
    obtain ⟨unread, rfl⟩ := front
    refine ⟨first, ?_, welcome⟩
    rw [List.head?_append]
    simp [show talk.read.head? = some first from member]

end Hearing

section Samples

/-- One topic, a login without a passcode. -/
def visitor : Client where
  life := ⟨⟨⟨"stomp"⟩, ⟨"/topic/", ["demo"], false, true⟩⟩, "127.0.0.1:61613", true, .abort, ⟨1⟩⟩
  host := "/"
  login := some "guest"
  passcode := none
  maxFrameSize := 1024

def welcome : Frame := ⟨"CONNECTED", [("version", "1.2")], []⟩

def pinged : Frame := ⟨"MESSAGE", [("destination", "/topic/demo"), ("oag.type_hint", "Ping")], []⟩

theorem clean_replies : ∀ frame ∈ [welcome, pinged],
    frame.Writable ∧ frame.NulFree ∧ frame.encode.length ≤ (1024 : UInt64).toNat := by
  simp only [List.forall_mem_cons, List.not_mem_nil, false_implies, implies_true, and_true]
  refine ⟨⟨⟨by decide, Frame.single_of_all (by decide), by decide⟩, ?_, by decide +kernel⟩,
    ⟨⟨by decide, Frame.single_of_all (by decide), by decide⟩, ?_, by decide +kernel⟩⟩
  · unfold Frame.NulFree
    decide
  · unfold Frame.NulFree
    decide

def silence : Talk := ⟨⟨.default, .connecting, false⟩, [], [], [], [], [], []⟩

/-- The session is up, and a message of the broker is in the buffer. -/
theorem visitor_drives (crates : Crates) : ∃ engine, (talkSystem crates visitor).Reachable
    ⟨⟨engine, .driving, false⟩, visitor.speech [], pinged.encode,
      [welcome, pinged].flatMap Frame.encode, [⟨"CONNECTED", welcome.wireHeaders, []⟩],
          [], []⟩ := by
  obtain ⟨⟨writable, free, fits⟩, -⟩ := List.forall_mem_cons.mp clean_replies
  have decoded := (writable.decode_iff fits pinged.encode).mpr free
  obtain ⟨key, engine, answer⟩ :
    ∃ key engine, (State.default.dropAdapter .unspecified visitor.life.adapter.id).2.subscribe
      visitor.life.adapter.id (outSubId "stomp-out-" 0) (.wildcard "demo") ⟨1⟩ =
        (.ok key, engine) := ⟨_, _, rfl⟩
  have nothing : visitor.decode [] = (.ok none, []) := rfl
  have bytes : [welcome, pinged].flatMap Frame.encode = welcome.encode ++ pinged.encode := by simp
  have some_bytes : [welcome, pinged].flatMap Frame.encode ≠ [] := by
    rw [bytes]
    exact List.append_ne_nil_of_left_ne_nil (List.ne_nil_of_length_pos (by decide +kernel)) _
  have run : (talkSystem crates visitor).Run silence
      [.opened, .arrived ([welcome, pinged].flatMap Frame.encode), .moved .connected,
        .moved (.cleared .unspecified), .moved (.written 0), .moved (.subscribed 0)] _ :=
    .cons (.opened rfl rfl) (.cons (.arrived (.inl ⟨rfl, by simp⟩) nothing some_bytes)
      (.cons (.greeted (.connected rfl) (by simp)
        (by rw [List.nil_append, bytes]; exact decoded) rfl)
        (.cons (.aside (.cleared rfl) trivial) (.cons (.wrote (.written rfl) rfl)
          (.single (.aside (.subscribed rfl rfl answer) trivial))))))
  exact ⟨engine, silence, _, ⟨⟨rfl, reachable_default⟩, rfl, rfl, rfl, rfl, rfl, rfl⟩, run⟩

theorem clean_speech : ∀ frame ∈ visitor.speech [],
    frame.Writable ∧ frame.NulFree ∧ frame.encode.length ≤ (1024 : UInt64).toNat := by
  have said : visitor.speech [] = [visitor.connectFrame, subscribeFrame "sub-0" "/topic/demo"] :=
    rfl
  rw [said]
  simp only [List.forall_mem_cons, List.not_mem_nil, false_implies, implies_true, and_true]
  refine ⟨⟨⟨by decide, Frame.single_of_all (by decide), by decide⟩, ?_, by decide +kernel⟩,
    ⟨⟨by decide, Frame.single_of_all (by decide), by decide⟩, ?_, by decide +kernel⟩⟩
  · unfold Frame.NulFree
    decide
  · unfold Frame.NulFree
    decide

/-- The broker reads the two frames of a session that is up. -/
theorem visitor_speaks : ∃ talk, (talkSystem Uci.bareCrates visitor).Reachable talk ∧
    talk.run.stage = .driving ∧
    (FrameReader.recvMany 2 ⟨⟨[], [talk.written.flatMap Frame.encode]⟩, 1024⟩).1 =
      talk.written.map fun frame => .ok (some { frame with headers := frame.wireHeaders }) := by
  obtain ⟨engine, reached⟩ := visitor_drives Uci.bareCrates
  obtain ⟨-, -, reads⟩ := session_speaks Uci.bareCrates visitor _ reached
  have some_bytes : (visitor.speech []).flatMap Frame.encode ≠ [] :=
    List.ne_nil_of_length_pos (by decide +kernel)
  refine ⟨_, reached, rfl, reads ⟨⟨[], [_]⟩, 1024⟩ clean_speech ?_ ?_⟩
  · simpa using some_bytes
  · simp [Reader.stream]

/-- The message is read and published. -/
theorem visitor_hears : ∃ talk, (talkSystem Uci.bareCrates visitor).Reachable talk ∧
    talk.arrived = [welcome, pinged].flatMap Frame.encode ∧
    talk.read = [welcome, pinged].map fun frame => { frame with headers := frame.wireHeaders } := by
  obtain ⟨engine, reached⟩ := visitor_drives Uci.bareCrates
  obtain ⟨-, last⟩ := List.forall_mem_cons.mp clean_replies
  obtain ⟨⟨writable, free, fits⟩, -⟩ := List.forall_mem_cons.mp last
  have decoded := (writable.decode_iff fits []).mpr free
  rw [List.append_nil] at decoded
  have handled := reached.step (@TalkStep.handled _ _ _ _ _ _ (⟨"1"⟩, ⟨"2"⟩) (.frame rfl) decoded)
  obtain ⟨-, complete, -⟩ := session_hears Uci.bareCrates visitor _ handled _ _
    (framed_written clean_replies)
    (List.prefix_refl _)
  exact ⟨_, handled, rfl, complete rfl rfl⟩

end Samples

end OaGateway.Stomp
