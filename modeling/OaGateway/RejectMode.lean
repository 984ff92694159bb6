import OaGateway.Dds.Adapter
import OaGateway.Owp.Publish

/-! What reject mode lets through at each edge. A payload that does not parse is
reported by no check, so it passes every one of them. -/
namespace OaGateway

open Lib OaGateway.Core

/-- The reader accepts the payload and the schema does not. -/
def Uci.Departs (crates : Crates) (schema : Uci.Schema) (payload : Bytes) : Prop :=
  Uci.Accepted crates schema payload ∧ ¬ Uci.Valid crates schema payload

theorem Uci.quiet_iff_not_departs {crates : Crates} {schema : Uci.Schema} {payload : Bytes} :
    Uci.payloadViolations crates payload (some schema) .reject = [] ↔
      ¬ Uci.Departs crates schema payload := by
  rw [Uci.payloadViolations_eq_nil_iff rfl, Uci.Departs]
  tauto

namespace Owp
variable {crates : OwpCrates} {session : Session} {schema : Uci.Schema}

/-- What a publish comes to before anything is checked. -/
def converted (crates : OwpCrates) (session : Session) (ids : MessageId × MessageId)
    (topic payload : String) :
    Except String (List Envelope) :=
  match outgoing crates session ids topic payload with
  | .error error => .error error
  | .ok envelopes => collect (convert crates session) envelopes

/-- The text a forwarder would queue if nothing were checked. -/
def forwardText (crates : OwpCrates) (session : Session) (raw : String) : Except String String :=
  if session.config.xmlBaseline then xmlToOmsJson crates.toCrates raw session.schema else .ok raw

theorem prepare_eq_ok_iff (loaded : session.schema = some schema)
    (strict : session.config.validate = .reject) {serviceId : String} {envelope handed : Envelope} :
    prepare crates session serviceId envelope = .ok handed ↔
      ∃ envelope', convert crates session envelope = .ok envelope' ∧
        ¬ Uci.Departs crates.toCrates schema envelope'.payload ∧
        handed = stamp session serviceId envelope' := by
  rw [prepare]
  cases convert crates session envelope with
  | error error => simp
  | ok envelope' =>
    simp only [violationsOf, loaded, strict, and_true, ← Uci.quiet_iff_not_departs, Except.ok.injEq,
      exists_eq_left']
    split
    · rename_i reported
      simp [reported]
    · rename_i quiet
      simp only [Except.ok.injEq, not_not.mp quiet, true_and]
      exact eq_comm

/-- A publish hands over its converted envelopes when none departs from the schema. -/
theorem publishOwp_eq_ok_iff (loaded : session.schema = some schema)
    (strict : session.config.validate = .reject) {serviceId topic payload : String}
    {ids : MessageId × MessageId} {handed : List Envelope} :
    publishOwp crates session serviceId ids topic payload = .ok handed ↔
      ∃ envelopes, converted crates session ids topic payload = .ok envelopes ∧
        (∀ envelope ∈ envelopes, ¬ Uci.Departs crates.toCrates schema envelope.payload) ∧
        handed = envelopes.map (stamp session serviceId) := by
  rw [publishOwp, converted]
  cases outgoing crates session ids topic payload with
  | error error => simp
  | ok source =>
    simp only [collect_eq_ok, prepare_eq_ok_iff loaded strict]
    constructor
    · intro each
      induction each with
      | nil => exact ⟨[], .nil, by simp, rfl⟩
      | cons here _ ih =>
        obtain ⟨envelope, run, quiet, rfl⟩ := here
        obtain ⟨envelopes, runs, kept, rfl⟩ := ih
        exact ⟨envelope :: envelopes, .cons run runs, List.forall_mem_cons.mpr ⟨quiet, kept⟩, rfl⟩
    · rintro ⟨envelopes, each, kept, rfl⟩
      induction each with
      | nil => exact .nil
      | cons run _ ih =>
        obtain ⟨quiet, later⟩ := List.forall_mem_cons.mp kept
        exact .cons ⟨_, run, quiet, rfl⟩ (ih later)

/-- Each publish that is not refused hands over valid payloads only, exactly when
one of its payloads departs from the schema or all are accepted. -/
theorem publishOwp_valid_iff (loaded : session.schema = some schema)
    (strict : session.config.validate = .reject) {serviceId topic payload : String}
    {ids : MessageId × MessageId} :
    (∀ handed, publishOwp crates session serviceId ids topic payload = .ok handed →
        ∀ envelope ∈ handed, Uci.Valid crates.toCrates schema envelope.payload) ↔
      ∀ envelopes, converted crates session ids topic payload = .ok envelopes →
        (∃ envelope ∈ envelopes, Uci.Departs crates.toCrates schema envelope.payload) ∨
          ∀ envelope ∈ envelopes, Uci.Accepted crates.toCrates schema envelope.payload := by
  constructor
  · intro holds envelopes ready
    by_cases departs : ∃ envelope ∈ envelopes, Uci.Departs crates.toCrates schema envelope.payload
    · exact .inl departs
    · right
      intro envelope member
      have quiet : ∀ envelope ∈ envelopes, ¬ Uci.Departs crates.toCrates schema envelope.payload :=
        fun other inside found => departs ⟨other, inside, found⟩
      have handed : publishOwp crates session serviceId ids topic payload =
          .ok (envelopes.map (stamp session serviceId)) :=
        (publishOwp_eq_ok_iff loaded strict).mpr ⟨envelopes, ready, quiet, rfl⟩
      exact (holds _ handed _ (List.mem_map_of_mem member)).accepted
  · intro condition handed published envelope member
    obtain ⟨envelopes, ready, quiet, rfl⟩ := (publishOwp_eq_ok_iff loaded strict).mp published
    obtain ⟨source, inside, rfl⟩ := List.mem_map.mp member
    rcases condition envelopes ready with ⟨other, present, departs⟩ | accepted
    · exact absurd departs (quiet other present)
    · exact not_not.mp fun invalid => quiet source inside ⟨accepted source inside, invalid⟩

/-- A delivery is refused when its payload departs, and never with a message. -/
theorem handleViolations_cases (strict : session.config.validate = .reject) (payload : Bytes)
    (sid detail : String) :
    (handleViolations session (violationsOf crates.toCrates payload (some schema) .reject) sid
      detail = none ∧
        ¬ Uci.Departs crates.toCrates schema payload) ∨
      ∃ details, handleViolations session
        (violationsOf crates.toCrates payload (some schema) .reject) sid detail =
          some (.err .invalidMessage (some details)) ∧
        Uci.Departs crates.toCrates schema payload := by
  simp only [handleViolations, strict, and_true, violationsOf]
  split
  · rename_i reported
    rw [ne_eq, Uci.quiet_iff_not_departs, not_not] at reported
    exact .inr ⟨_, rfl, reported⟩
  · rename_i quiet
    rw [ne_eq, not_not, Uci.quiet_iff_not_departs] at quiet
    exact .inl ⟨rfl, quiet⟩

/-- A forwarder queues a text when neither it nor the delivery departs. -/
theorem forwardFrame_eq_msg_iff (loaded : session.schema = some schema)
    (strict : session.config.validate = .reject) {sid sid' text : String} {envelope : Envelope} :
    forwardFrame crates session sid envelope = some (.msg sid' text) ↔
      sid = sid' ∧ ∃ raw, fromUtf8 envelope.payload = some raw ∧
        ¬ Uci.Departs crates.toCrates schema (utf8 raw) ∧
        forwardText crates session raw = .ok text ∧
        ¬ Uci.Departs crates.toCrates schema (utf8 text) := by
  rw [forwardFrame]
  cases decoded : fromUtf8 envelope.payload with
  | none => simp
  | some raw =>
    simp only [loaded, strict, Option.some.injEq, exists_eq_left', forwardText]
    rcases @handleViolations_cases crates session schema strict (utf8 raw) sid producerDetail with
      ⟨passed, quiet⟩ | ⟨details, refused, departs⟩
    · have queued {json : String} (kept : ¬ Uci.Departs crates.toCrates schema (utf8 json)) :
          some (ServerOp.msg sid json) = some (.msg sid' text) ↔
            sid = sid' ∧ ¬ Uci.Departs crates.toCrates schema (utf8 raw) ∧
              (Except.ok json : Except String String) = .ok text ∧
              ¬ Uci.Departs crates.toCrates schema (utf8 text) := by
        simp only [Option.some.injEq, ServerOp.msg.injEq, Except.ok.injEq]
        constructor
        · rintro ⟨same, rfl⟩
          exact ⟨same, quiet, rfl, kept⟩
        · rintro ⟨same, -, rfl, -⟩
          exact ⟨same, rfl⟩
      rw [passed]
      cases baseline : session.config.xmlBaseline with
      | false => exact queued quiet
      | true =>
        simp only [↓reduceIte]
        cases ran : xmlToOmsJson crates.toCrates raw (some schema) with
        | error error => simp
        | ok json =>
          by_cases xml : Uci.looksLikeXml (utf8 raw) = true
          · simp only [if_pos xml]
            rcases @handleViolations_cases crates session schema strict (utf8 json) sid
                conversionDetail with
              ⟨passed, kept⟩ | ⟨details, refused, departs⟩
            · rw [passed]
              exact queued kept
            · simp only [refused, Option.some.injEq, reduceCtorEq, Except.ok.injEq,
                false_iff, not_and]
              rintro - - rfl
              exact not_not.mpr departs
          · -- What is not XML is carried as it came and not checked again.
            rw [xmlToOmsJson, if_pos (by simpa using xml)] at ran
            cases ran
            simp only [if_neg xml]
            exact queued quiet
    · simp [refused, departs]

/-- The messages a forwarder queues for a delivery are valid exactly when the
delivery departs from the schema or its text, once converted, is accepted. -/
theorem forwardFrame_valid_iff (loaded : session.schema = some schema)
    (strict : session.config.validate = .reject) {sid : String} {envelope : Envelope} :
    (∀ sid' text, forwardFrame crates session sid envelope = some (.msg sid' text) →
        Uci.Valid crates.toCrates schema (utf8 text)) ↔
      ∀ raw text, fromUtf8 envelope.payload = some raw → forwardText crates session raw = .ok text →
        Uci.Departs crates.toCrates schema (utf8 raw) ∨
            Uci.Accepted crates.toCrates schema (utf8 text) := by
  constructor
  · intro holds raw text decoded converted
    by_contra neither
    obtain ⟨quiet, unread⟩ := not_or.mp neither
    have queued : forwardFrame crates session sid envelope = some (.msg sid text) :=
      (forwardFrame_eq_msg_iff loaded strict).mpr
        ⟨rfl, raw, decoded, quiet, converted, fun departs => unread departs.1⟩
    exact unread (holds sid text queued).accepted
  · intro condition sid' text queued
    obtain ⟨-, raw, decoded, quiet, converted, kept⟩ :=
      (forwardFrame_eq_msg_iff loaded strict).mp queued
    rcases condition raw text decoded converted with departs | accepted
    · exact absurd departs quiet
    · exact not_not.mp fun invalid => kept ⟨accepted, invalid⟩

end Owp

namespace Dds
variable {crates : Crates} {adapter : DdsAdapter} {schema : Uci.Schema}

/-- What `publish_checked` hands over is valid exactly when the payload parses. -/
theorem publishChecked_valid_iff (loaded : adapter.config.schema = some schema)
    (strict : adapter.config.validate = .reject) {envelope : Envelope} :
    (∀ handed, publishChecked crates adapter envelope = some handed →
        Uci.Valid crates schema handed.payload) ↔
      Uci.Accepted crates schema envelope.payload := by
  simp only [publishChecked, violationsOf, loaded, strict, and_true]
  split
  · rename_i reported
    rw [ne_eq, Uci.quiet_iff_not_departs, not_not] at reported
    simp [reported.1]
  · rename_i quiet
    rw [ne_eq, not_not] at quiet
    simp [Uci.valid_iff_accepted rfl quiet]

end Dds

/-- Reject mode lets nothing invalid through at an edge exactly where a payload
that does not parse never gets as far as the hand-over: by itself each check
passes such a payload. -/
theorem rejectMode_iff {crates : Owp.OwpCrates} {schema : Uci.Schema} {session : Owp.Session}
    {adapter : Dds.DdsAdapter} (loaded : session.schema = some schema)
    (strict : session.config.validate = .reject) (loadedDds : adapter.config.schema = some schema)
    (strictDds : adapter.config.validate = .reject) (serviceId topic sid payload : String)
    (ids : MessageId × MessageId) (delivered sample : Envelope) :
    ((∀ handed, Owp.publishOwp crates session serviceId ids topic payload = .ok handed →
        ∀ envelope ∈ handed, Uci.Valid crates.toCrates schema envelope.payload) ↔
      ∀ envelopes, Owp.converted crates session ids topic payload = .ok envelopes →
        (∃ envelope ∈ envelopes, Uci.Departs crates.toCrates schema envelope.payload) ∨
          ∀ envelope ∈ envelopes, Uci.Accepted crates.toCrates schema envelope.payload) ∧
    ((∀ handed, Dds.publishChecked crates.toCrates adapter sample = some handed →
        Uci.Valid crates.toCrates schema handed.payload) ↔
      Uci.Accepted crates.toCrates schema sample.payload) ∧
    ((∀ sid' text, Owp.forwardFrame crates session sid delivered = some (.msg sid' text) →
        Uci.Valid crates.toCrates schema (utf8 text)) ↔
      ∀ raw text, fromUtf8 delivered.payload = some raw →
      Owp.forwardText crates session raw = .ok text →
        Uci.Departs crates.toCrates schema (utf8 raw) ∨
          Uci.Accepted crates.toCrates schema (utf8 text)) :=
  ⟨Owp.publishOwp_valid_iff loaded strict, Dds.publishChecked_valid_iff loadedDds strictDds,
    Owp.forwardFrame_valid_iff loaded strict⟩

section Samples

/-- One global element that holds a number. -/
def counterSchema : Uci.Schema := ⟨Finmap.insert "Count" "xs:int" ∅, ∅, ∅⟩

def counterText (name : String) : String := "\x7b\"" ++ name ++ "\":4\x7d"

/-- A JSON parser that knows the number 4 under two names. -/
def counterCrates : Owp.OwpCrates where
  jsonParse text :=
    if text = counterText "Count" then .ok (.object [("Count", .number (.posInt 4))])
    else if text = counterText "Other" then .ok (.object [("Other", .number (.posInt 4))])
    else .error "expected value"
  jsonPrint _ := ""
  floatPrint _ := ""
  floatDisplay _ := ""
  xmlParse _ := .error "unknown token"
  regex _ := none
  hexUpper := upperHex
  initParse _ := .error "expected value"
  uuidV5 _ := ""

def strictSession : Owp.Session where
  adapterId := ⟨"owp"⟩
  schema := some counterSchema
  connId := 1
  config :=
    { serverId := "oa-gateway-0"
      systemLabel := "OA-Gateway Prototype"
      schema := some "002.5.0"
      systemUuid := ""
      unwrapMaPayloads := true
      xmlBaseline := false
      maxSubscriptions := 1024
      initTimeout := true
      idleTimeout := true
      validate := .reject }

def strictAdapter : Dds.DdsAdapter := ⟨⟨"dds"⟩, ⟨true, 1024, some counterSchema, .reject⟩⟩

def counterEnvelope (name : String) : Envelope :=
  (Envelope.new ⟨"1"⟩ (.typed "demo" name) (utf8 (counterText name))).withContentType .json

private theorem readText_counter :
    Uci.readText counterCrates.toCrates counterSchema (counterText "Count") =
      .ok ⟨"Count", .simple (.number (.posInt 4))⟩ := by
  rfl

private theorem readText_stray :
    Uci.readText counterCrates.toCrates counterSchema (counterText "Other") =
      .error (.unknownElement "Other") := by
  rfl

private theorem accepted_counter :
    Uci.Accepted counterCrates.toCrates counterSchema (utf8 (counterText "Count")) :=
  ⟨_, _, fromUtf8_utf8 _, readText_counter⟩

private theorem not_valid_stray :
    ¬ Uci.Valid counterCrates.toCrates counterSchema (utf8 (counterText "Other")) := by
  rintro ⟨text, message, decoded, read, -⟩
  rw [fromUtf8_utf8, Option.some.injEq] at decoded
  subst decoded
  rw [readText_stray] at read
  cases read

theorem converted_counter :
    Owp.converted counterCrates strictSession (⟨"1"⟩, ⟨"2"⟩) "demo" (counterText "Count") =
      .ok [counterEnvelope "Count"] := by
  rfl

theorem rejectMode_counter :
    (∀ handed, Owp.publishOwp counterCrates strictSession "svc" (⟨"1"⟩, ⟨"2"⟩) "demo"
      (counterText "Count") =
        .ok handed →
        ∀ envelope ∈ handed, Uci.Valid counterCrates.toCrates counterSchema envelope.payload) ∧
    (∀ handed, Dds.publishChecked counterCrates.toCrates strictAdapter (counterEnvelope "Count") =
      some handed →
        Uci.Valid counterCrates.toCrates counterSchema handed.payload) ∧
    ∀ sid text, Owp.forwardFrame counterCrates strictSession "s1" (counterEnvelope "Count") =
        some (.msg sid text) → Uci.Valid counterCrates.toCrates counterSchema (utf8 text) := by
  obtain ⟨published, sampled, forwarded⟩ :=
    @rejectMode_iff counterCrates counterSchema strictSession
    strictAdapter rfl rfl rfl rfl "svc" "demo" "s1" (counterText "Count") (⟨"1"⟩, ⟨"2"⟩)
    (counterEnvelope "Count") (counterEnvelope "Count")
  refine ⟨published.mpr ?_, sampled.mpr accepted_counter, forwarded.mpr ?_⟩
  · intro envelopes ready
    obtain rfl : [counterEnvelope "Count"] = envelopes :=
      Except.ok.inj (converted_counter.symm.trans ready)
    exact .inr (List.forall_mem_singleton.mpr accepted_counter)
  · intro raw text decoded carried
    obtain rfl : counterText "Count" = raw := Option.some.inj ((fromUtf8_utf8 _).symm.trans decoded)
    obtain rfl : counterText "Count" = text := Except.ok.inj carried
    exact .inr accepted_counter

/-- An element the schema does not know goes through every edge. -/
theorem rejectMode_stray :
    (∃ envelope, Owp.publishOwp counterCrates strictSession "svc" (⟨"1"⟩, ⟨"2"⟩) "demo"
      (counterText "Other") =
        .ok [envelope] ∧ ¬ Uci.Valid counterCrates.toCrates counterSchema envelope.payload) ∧
    (∃ envelope, Dds.publishChecked counterCrates.toCrates strictAdapter (counterEnvelope "Other") =
        some envelope ∧ ¬ Uci.Valid counterCrates.toCrates counterSchema envelope.payload) ∧
    ∃ text, Owp.forwardFrame counterCrates strictSession "s1" (counterEnvelope "Other") =
        some (.msg "s1" text) ∧ ¬ Uci.Valid counterCrates.toCrates counterSchema (utf8 text) :=
  ⟨⟨Owp.stamp strictSession "svc" (counterEnvelope "Other"), rfl, not_valid_stray⟩,
    ⟨counterEnvelope "Other", rfl, not_valid_stray⟩,
    ⟨counterText "Other", rfl, not_valid_stray⟩⟩

end Samples

end OaGateway
