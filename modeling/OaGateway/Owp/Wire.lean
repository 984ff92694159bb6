import OaGateway.Owp.Grammar
import OaGateway.Owp.ServerFrames
import OaGateway.Owp.Transcript

/-! What a client makes of the frames a session writes. -/
namespace OaGateway.Owp

open Lib OaGateway.Core

/-- A text as it is read behind another field: without the delimiters before it. -/
def unledText (text : String) : String := .ofList (text.toList.dropWhile isDelim)

/-- What a written operation is read as. Only a delivery of nothing but
delimiters cannot be read. -/
def ServerOp.reread : ServerOp → Except ParseError ServerOp
  | err error (some details) =>
    .ok (.err error (if unledText details = "" then none else some (unledText details)))
  | msg sid payload =>
    if unledText payload = "" then .error (.missingField "MSG" "payload")
      else .ok (.msg sid (unledText payload))
  | op => .ok op

/-- The subscription a delivery names. -/
def ServerOp.sid : ServerOp → Option String
  | msg sid _ => some sid
  | _ => none

section Reading
variable {crates : InfoCrates}

theorem split_field {token : List Char} (field : Token token) (rest : List Char) :
    splitFirstToken (token ++ ' ' :: rest) = some (token, rest.dropWhile isDelim) := by
  apply splitFirstToken_eq_some.mpr
  refine ⟨field, unled_dropWhile rest, [], ' ' :: rest.takeWhile isDelim, ?lead, ?gap,
    fun _ => List.cons_ne_nil _ _, ?spelled⟩
  case lead => exact fun c inside => absurd inside List.not_mem_nil
  case gap =>
    intro c member
    rcases List.mem_cons.mp member with rfl | inside
    · rfl
    · exact List.mem_takeWhile_imp inside
  case spelled => simp [List.takeWhile_append_dropWhile]

theorem ofList_dropWhile_isEmpty (text : String) :
    (text.toList.dropWhile isDelim).isEmpty = true ↔ unledText text = "" := by
  rw [List.isEmpty_iff, unledText]
  constructor
  · intro empty
    rw [empty]
  · intro empty
    simpa using congrArg String.toList empty

theorem parseErr_reread (error : OwpError) (details : String) :
    parseErr (error.display.toList ++ ' ' :: details.toList) =
      (ServerOp.err error (some details)).reread := by
  have named := isIdentifier_token error.display_identifier
  simp only [parseErr, split_field named, String.ofList_toList, OwpError.fromStr_display,
    ServerOp.reread]
  by_cases empty : unledText details = ""
  · rw [if_pos empty, if_pos ((ofList_dropWhile_isEmpty details).mpr empty)]
  · rw [if_neg empty, if_neg (mt (ofList_dropWhile_isEmpty details).mp empty), unledText]

theorem parseMsg_reread {sid : String} (identifier : isIdentifier sid = true) (payload : String) :
    parseMsg (sid.toList ++ ' ' :: payload.toList) = (ServerOp.msg sid payload).reread := by
  simp only [parseMsg, split_field (isIdentifier_token identifier), String.ofList_toList,
    identifier, ServerOp.reread]
  by_cases empty : unledText payload = ""
  · simp [empty, (ofList_dropWhile_isEmpty payload).mpr empty]
  · have given : ¬ (payload.toList.dropWhile isDelim).isEmpty = true :=
      mt (ofList_dropWhile_isEmpty payload).mp empty
    rw [if_neg empty, if_neg (by simp), if_neg given, unledText]

/-- Reading what an operation is written as. -/
theorem parseServer_reread (op : ServerOp) (named : ∀ sid ∈ op.sid, isIdentifier sid = true)
    (rereads : ∀ payload, op = .info payload → ∃ json, crates.Rereads payload json) :
    ∃ frame, op.display crates = some frame ∧ parseServer crates frame = op.reread := by
  cases op with
  | ok => exact parseServer_display crates .ok trivial rereads
  | info payload => exact parseServer_display crates (.info payload) trivial rereads
  | err error details =>
    cases details with
    | none => exact parseServer_display crates (.err error none) (by simp [ServerOp.Wire]) rereads
    | some details =>
      refine ⟨_, rfl, ?_⟩
      have unled : Unled (error.display.toList ++ ' ' :: details.toList) :=
        (isIdentifier_token error.display_identifier).unled _
      rw [parseServer_err (by simp) unled, parseErr_reread]
  | msg sid payload =>
    have identifier := named sid rfl
    refine ⟨_, rfl, ?_⟩
    have unled : Unled (sid.toList ++ ' ' :: payload.toList) :=
      (isIdentifier_token identifier).unled _
    rw [parseServer_msg (by simp) unled, parseMsg_reread identifier]

end Reading

section Sessions
variable {crates : OwpCrates} {session : Session}

/-- No reply names a subscription. -/
theorem acknowledge_sid {verbose : Bool} {op : ServerOp} (member : op ∈ acknowledge verbose) :
    op.sid = none := by
  cases verbose with
  | false => cases member
  | true => 
    rw [List.mem_singleton.mp member]
    rfl

theorem handleText_sid {op : ServerOp}
    (member : op ∈ (handleText crates session answers phase subs text).replies) :
    op.sid = none := by
  have refusal {error : OwpError} {details : Option String}
      (alone : op ∈ [ServerOp.err error details]) : op.sid = none := by
    rw [List.mem_singleton.mp alone]
    rfl
  rw [handleText] at member
  split at member
  · exact refusal member
  · split at member
    · split at member
      · rw [handleInit] at member
        split at member
        · rcases List.mem_append.mp member with acknowledged | info
          · exact acknowledge_sid acknowledged
          · rw [List.mem_singleton.mp info]
            rfl
        · exact refusal member
      · exact refusal member
    · split at member
      · exact refusal member
      · rw [handlePub] at member
        split at member
        · exact acknowledge_sid member
        · exact refusal member
      · simp only [handleSub] at member
        split at member
        · exact refusal member
        · split at member
          · exact refusal member
          · split at member
            · exact refusal member
            · exact acknowledge_sid member
      · rw [handleUnsub] at member
        split at member
        · exact acknowledge_sid member
        · exact refusal member

theorem answers_sid {state : SessionState} {event : Event} {op : ServerOp}
    (member : op ∈ Recorded.answers crates session state event) : op.sid = none := by
  cases event with
  | incoming message answers =>
    rw [Recorded.answers, SessionState.replies] at member
    cases message with
    | text text => exact handleText_sid member
    | binary => 
      rw [List.mem_singleton.mp member]
      rfl
    | ping | pong | frame | close => cases member
  | _ => cases member

/-- A delivery goes out under the sid of its subscription. -/
theorem forwardFrame_sid {sid : String} {envelope : Envelope} {op : ServerOp}
    (made : forwardFrame crates session sid envelope = some op) :
    ∀ other ∈ op.sid, other = sid := by
  have refusal {violations : List Uci.Violation} {detail : String}
      (refused : handleViolations session violations sid detail = some op) : op.sid = none := by
    rw [handleViolations] at refused
    split at refused
    · cases refused
      rfl
    · cases refused
  have own {payload : String} : ∀ other ∈ (ServerOp.msg sid payload).sid, other = sid := by
    intro other named
    exact (Option.some.inj named).symm
  rw [forwardFrame] at made
  split at made
  · cases made
  · simp only at made
    split at made
    · rename_i refused
      cases made
      simp [refusal refused]
    · split at made
      · split at made
        · cases made
          simp [ServerOp.sid]
        · split at made
          · rename_i refused
            cases made
            split at refused
            · simp [refusal refused]
            · cases refused
          · cases made
            exact own
      · cases made
        exact own

/-- Every forwarder serves a sid the grammar allows. -/
def SessionState.Named (state : SessionState) : Prop :=
  ∀ forwarder ∈ state.forwarders, isIdentifier forwarder.sid = true

theorem handleText_named {engineSub : SubId} {route : RouteKey}
    (subscribes : (handleText crates session answers phase subs text).effect =
      .subscribe sid engineSub route) :
    isIdentifier sid = true := by
  rw [handleText] at subscribes
  split at subscribes
  · cases subscribes
  · rename_i op parsed
    split at subscribes
    · split at subscribes
      · rw [handleInit] at subscribes
        split at subscribes <;> cases subscribes
      · cases subscribes
    · split at subscribes
      · cases subscribes
      · rw [handlePub] at subscribes
        split at subscribes <;> cases subscribes
      · simp only [handleSub] at subscribes
        split at subscribes
        · cases subscribes
        · split at subscribes
          · cases subscribes
          · split at subscribes
            · cases subscribes
            · cases subscribes
              cases parseClient_sound parsed with
              | sub fields numbered named grouped => exact numbered
      · rw [handleUnsub] at subscribes
        split at subscribes <;> cases subscribes

namespace SessionState.Named
variable {before after : SessionState}

/-- Only abort marks and stages changed. -/
theorem of_sids (named : before.Named)
    (same : ∀ forwarder ∈ after.forwarders, ∃ old ∈ before.forwarders, old.sid = forwarder.sid) :
    after.Named := by
  intro forwarder member
  obtain ⟨old, present, sid⟩ := same forwarder member
  rw [← sid]
  exact named old present

theorem of_eq (named : before.Named) (same : after.forwarders = before.forwarders) : after.Named :=
  named.of_sids fun forwarder member => ⟨forwarder, same ▸ member, rfl⟩

theorem modify (named : before.Named) {change : Forwarder → Forwarder}
    (forwarders : after.forwarders = before.forwarders.modify index change)
    (sid : ∀ old, (change old).sid = old.sid) :
    after.Named := by
  refine named.of_sids fun forwarder member => ?_
  rw [forwarders] at member
  obtain ⟨old, present, rfl | rfl⟩ := mem_modify member
  · exact ⟨_, present, rfl⟩
  · exact ⟨old, present, (sid old).symm⟩

theorem set (named : before.Named) {old new : Forwarder}
    (found : before.forwarders[index]? = some old)
    (forwarders : after.forwarders = before.forwarders.set index new) (sid : new.sid = old.sid) :
    after.Named := by
  refine named.of_sids fun forwarder member => ?_
  rw [forwarders] at member
  rcases List.mem_or_eq_of_mem_set member with kept | rfl
  · exact ⟨forwarder, kept, rfl⟩
  · exact ⟨old, List.mem_of_getElem? found, sid.symm⟩

theorem stop (named : before.Named) : before.stop.Named := by
  refine named.of_sids fun forwarder member => ?_
  obtain ⟨index, bound, rfl⟩ := List.mem_mapIdx.mp member
  refine ⟨_, List.getElem_mem bound, ?_⟩
  split <;> rfl

theorem advance (named : before.Named) {change : Forwarder → Option Forwarder} (kept : Keeps change)
    (moved : before.advance index change = some after) : after.Named := by
  obtain ⟨old, new, found, altered, rfl⟩ := advance_cases moved
  exact named.set found rfl (kept old new altered).1

theorem read (named : before.Named) (message : Incoming) :
    (before.read crates session answers message).Named := by
  cases message with
  | text text =>
    simp only [SessionState.read, SessionState.respond]
    cases effect : (handleText crates session answers before.phase before.subs text).effect with
    | none | publish => exact named.of_eq rfl
    | subscribe sid engineSub route =>
      intro forwarder member
      rcases List.mem_append.mp member with old | new
      · exact named forwarder old
      · rw [List.mem_singleton.mp new]
        exact handleText_named effect
    | unsubscribe sid live => exact named.modify rfl fun _ => rfl
  | close => exact named.stop
  | _ => exact named.of_eq rfl

theorem step (named : before.Named) {event : Event}
    (moved : before.step crates session event = some after) :
    after.Named := by
  cases event with
  | cancel =>
    cases moved
    exact named.of_eq rfl
  | shutdown =>
    simp only [SessionState.step, SessionState.select_eq_some, Option.ite_none_right_eq_some,
      Option.some.injEq] at moved
    obtain ⟨-, -, rfl⟩ := moved
    exact named.stop
  | timeout =>
    simp only [SessionState.step, SessionState.select_eq_some, Option.map_eq_some_iff] at moved
    obtain ⟨-, reason, -, rfl⟩ := moved
    exact named.of_eq rfl
  | recv =>
    simp only [SessionState.step, SessionState.select_eq_some, Option.map_eq_some_iff] at moved
    obtain ⟨-, taken, -, rfl⟩ := moved
    exact named.of_eq rfl
  | hangup =>
    simp only [SessionState.step, SessionState.select_eq_some, Option.some.injEq] at moved
    obtain ⟨-, rfl⟩ := moved
    exact named.stop
  | incoming message answers =>
    simp only [SessionState.step, SessionState.select_eq_some, Option.some.injEq] at moved
    obtain ⟨-, rfl⟩ := moved
    exact named.read message
  | written success =>
    simp only [SessionState.step] at moved
    split at moved
    · rename_i message task
      cases moved
      cases message with
      | op op =>
        cases success with
        | true => exact named.of_eq rfl
        | false => exact named.stop
      | pong data => exact named.of_eq rfl
      | close reason => exact named.stop
    · cases moved
  | reply =>
    simp only [SessionState.step, SessionState.reply] at moved
    split at moved
    · rename_i phase fatal task
      cases moved
      cases fatal with
      | true => exact stop (named.of_eq rfl)
      | false => exact named.of_eq rfl
    · cases moved
      exact named.of_eq rfl
    · cases moved
  | settle party =>
    simp only [SessionState.step, SessionState.settle] at moved
    split at moved
    · cases moved
    · cases party with
      | forwarder index =>
        cases moved
        exact named.modify rfl fun _ => rfl
      | task =>
        simp only at moved
        split at moved
        · cases moved
          exact named.of_eq rfl
        · cases moved
  | queue index =>
    simp only [SessionState.step, SessionState.queue] at moved
    split at moved
    · rename_i sid inbox op aborted found
      cases moved
      exact named.set found rfl rfl
    · cases moved
  | deliver index envelope => exact named.advance (deliver_keeps envelope) moved
  | take index => exact named.advance take_keeps moved
  | finish index => exact named.advance finish_keeps moved
  | drop index =>
    simp only [SessionState.step, Option.map_eq_some_iff] at moved
    obtain ⟨middle, moved, rfl⟩ := moved
    exact (named.advance drop_keeps moved).of_eq rfl

end SessionState.Named

/-- What is written was a reply, or a frame of a delivery. -/
theorem written_origin {recorded : Recorded} (faithful : recorded.Faithful crates session)
    (consumed : recorded.Consumed) {op : ServerOp} (written : op ∈ framesOf recorded.written) :
    op ∈ recorded.answered ∨ ∃ forwarder ∈ recorded.session.forwarders, ∃ envelope,
      forwardFrame crates session forwarder.sid envelope = some op := by
  have received : op ∈ recorded.received := by
    rcases consumed with level | ⟨-, cut⟩
    · rw [← level]
      exact List.mem_append_left _ written
    · exact cut.subset written
  have entered : op ∈ recorded.entered.map Prod.snd := by
    rw [← faithful.ledger.fifo]
    exact List.mem_append_left _ received
  obtain ⟨⟨party, op⟩, member, rfl⟩ := List.mem_map.mp entered
  have sent : op ∈ messagesFor recorded.sent party :=
    (faithful.ledger.ordered party).subset (mem_messagesFor.mpr member)
  cases party with
  | task =>
    left
    rw [← faithful.replies]
    exact List.mem_append_left _ sent
  | forwarder index =>
    right
    by_cases bound : index < recorded.session.forwarders.length
    · have accounts := faithful.forwarders index _ (List.getElem?_eq_getElem bound)
      obtain ⟨envelope, -, made⟩ := List.mem_filterMap.mp (accounts.ordered.subset sent)
      exact ⟨_, List.getElem_mem bound, envelope, made⟩
    · rw [(faithful.absent index (Nat.le_of_not_lt bound)).1] at sent
      cases sent

theorem recorded_answers {recorded : Recorded}
    (reached : (recordedSystem crates session).Reachable recorded) :
    ∀ op ∈ recorded.answered, op.sid = none := by
  refine reached.invariant (motive := fun recorded => ∀ op ∈ recorded.answered, op.sid = none)
    ?start fun before event after moved quiet => ?step
  case start =>
    rintro _ rfl op member
    cases member
  case step =>
    obtain ⟨state, -, rfl⟩ := Option.map_eq_some_iff.mp moved
    intro op member
    rcases List.mem_append.mp member with early | now
    · exact quiet op early
    · exact answers_sid now

theorem recorded_named {recorded : Recorded}
    (reached : (recordedSystem crates session).Reachable recorded) :
    recorded.session.Named := by
  refine reached.invariant (motive := fun recorded => recorded.session.Named)
    ?start fun before event after moved named => ?step
  case start =>
    rintro _ rfl forwarder member
    cases member
  case step =>
    obtain ⟨state, stepped, rfl⟩ := Option.map_eq_some_iff.mp moved
    exact named.step stepped

/-- Whatever a session writes to the socket in any run, a client reads the same
operation again, but for delimiters that lead its last field; only a delivery of
nothing but delimiters is not read at all. Deliveries name subscriptions the
client has made. -/
theorem written_frames_reread (crates : OwpCrates) (session : Session) (client : InfoCrates)
    (recorded : Recorded) (reached : (recordedSystem crates session).Reachable recorded)
    (rereads : ∀ payload, .op (.info payload) ∈ recorded.written →
      ∃ json, client.Rereads payload json)
    (op : ServerOp) (written : .op op ∈ recorded.written) :
    (∃ frame, op.display client = some frame ∧ parseServer client frame = op.reread) ∧
      ∀ sid ∈ op.sid, ∃ forwarder ∈ recorded.session.forwarders, forwarder.sid = sid := by
  have frame : op ∈ framesOf recorded.written := List.mem_filterMap.mpr ⟨.op op, written, rfl⟩
  have known : ∀ sid ∈ op.sid, ∃ forwarder ∈ recorded.session.forwarders, forwarder.sid = sid := by
    intro sid names
    rcases written_origin (recorded_faithful reached) (recorded_consumed reached) frame with
      answered | ⟨forwarder, member, envelope, made⟩
    · rw [recorded_answers reached op answered] at names
      cases names
    · exact ⟨forwarder, member, (forwardFrame_sid made sid names).symm⟩
  refine ⟨parseServer_reread op ?named ?rereads, known⟩
  case named =>
    intro sid names
    obtain ⟨forwarder, member, rfl⟩ := known sid names
    exact recorded_named reached forwarder member
  case rereads =>
    rintro payload rfl
    exact rereads payload written

end Sessions

section Samples

def demoInfo : InfoPayload := ⟨"1.0", "oa-gateway-0", ⟨"", "", none⟩, "OA-Gateway Prototype"⟩

def demoJson : String :=
  "\x7b\"version\":\"1.0\",\"server_id\":\"oa-gateway-0\"," ++
    "\"uuids\":\x7b\"system\":\"\",\"service\":\"\"\x7d," ++
    "\"system_label\":\"OA-Gateway Prototype\"\x7d"

/-- `serde_json` on that body alone. -/
def demoCrates : InfoCrates where
  infoPrint payload := if payload = demoInfo then some demoJson else none
  infoParse text := if text = demoJson then .ok demoInfo else .error "expected value"

theorem demoInfo_rereads : demoCrates.Rereads demoInfo demoJson := by
  refine ⟨?printed, by decide +kernel, ?parsed⟩
  case printed => simp only [demoCrates, ↓reduceIte]
  case parsed => simp only [demoCrates, ↓reduceIte]

/-- A client reads the one delivery it got. -/
theorem written_delivery_reread :
    ∃ frame, (ServerOp.msg "s1" pingText).display demoCrates = some frame ∧
    parseServer demoCrates frame = (ServerOp.msg "s1" pingText).reread := by
  have run : (recordedSystem initCrates plainSession).Run .start
      [.incoming (.text ("INIT " ++ initBody)) sampleAnswers, .reply, .reply, .recv, .written true,
        .incoming (.text "SUB s1 Ping demo") sampleAnswers, .reply, .deliver 0 pingEnvelope,
          .take 0, .queue 0,
        .recv, .written true] _ :=
    .cons rfl
      (.cons rfl
      (.cons rfl (.cons rfl (.cons rfl (.cons rfl (.cons rfl (.cons rfl (.cons rfl (.cons rfl
      (.cons rfl (.cons rfl (.nil _))))))))))))
  have reached : (recordedSystem initCrates plainSession).Reachable _ := ⟨_, _, rfl, run⟩
  refine (written_frames_reread initCrates plainSession demoCrates _ reached ?_
    (.msg "s1" pingText) ?_).1
  · intro payload member
    obtain rfl : payload = demoInfo := by
      rcases List.mem_cons.mp member with same | late
      · cases same
        rfl
      · cases late with
        | tail _ none => cases none
    exact ⟨demoJson, demoInfo_rereads⟩
  · exact List.mem_cons_of_mem _ (List.mem_singleton.mpr rfl)

end Samples

end OaGateway.Owp
