import OaGateway.Core.Concurrent
import OaGateway.Owp.Publish

/-! One `PUB` with everything it does on the way: the warnings it logs and the
calls it makes on the engine, failures included. -/
namespace OaGateway.Owp

open Lib OaGateway.Core

/-- Whether a route is worth reporting yet. -/
inductive Report where
  | new
  | final
  | skip
deriving DecidableEq

/-- Routes a connection has already been warned about. -/
structure SeenRoutes where
  seen : List RouteKey := []

namespace SeenRoutes

/-- Distinct routes named before a tracker goes quiet. -/
def cap : Nat := 64

/-- Record a route if it is new and under the cap. -/
def report (tracker : SeenRoutes) (route : RouteKey) : Report × SeenRoutes :=
  if tracker.seen.length ≥ cap ∨ route ∈ tracker.seen then (.skip, tracker)
  else
    let seen := tracker.seen ++ [route]
    (if seen.length = cap then .final else .new, ⟨seen⟩)

end SeenRoutes

structure RouteWarnings where
  unroutable : SeenRoutes := {}
  invalid : SeenRoutes := {}

/-- What a publish does besides answering. -/
inductive PubEffect where
  /-- `Engine::publish` is called. -/
  | publish (envelope : Envelope)
  /-- A payload against the schema is carried anyway. -/
  | invalid (route : RouteKey) (summary : String)
  | dropped (route : RouteKey) (outcome : PublishOutcome)
  | unroutable (route : RouteKey)
  /-- A tracker has stopped naming routes. -/
  | capNotice

/-- The envelope an effect hands to the engine. -/
def PubEffect.handed : PubEffect → Option Envelope
  | publish envelope => some envelope
  | _ => none

/-- How far a publish has come: the trackers, and its effects in order. -/
structure Progress where
  warnings : RouteWarnings
  effects : List PubEffect := []

namespace Progress

/-- The calls of `Engine::publish` made so far. -/
def published (progress : Progress) : List Envelope := progress.effects.filterMap PubEffect.handed

/-- The log entries of one report. -/
def notices (report : Report) (warning : PubEffect) : List PubEffect :=
  match report with
  | .skip => []
  | .new => [warning]
  | .final => [warning, .capNotice]

def warnInvalid (progress : Progress) (route : RouteKey) (summary : String) : Progress :=
  let (report, invalid) := progress.warnings.invalid.report route
  ⟨{ progress.warnings with invalid }, progress.effects ++ notices report (.invalid route summary)⟩

def warnUnroutable (progress : Progress) (route : RouteKey) : Progress :=
  let (report, unroutable) := progress.warnings.unroutable.report route
  ⟨{ progress.warnings with unroutable }, progress.effects ++ notices report (.unroutable route)⟩

def warnDropped (progress : Progress) (route : RouteKey) (outcome : PublishOutcome) : Progress :=
  { progress with effects := progress.effects ++ [.dropped route outcome] }

/-- One call of `Engine::publish`, and what is said about its outcome. -/
def publish (progress : Progress) (envelope : Envelope) (outcome : PublishOutcome) : Progress :=
  let called := { progress with effects := progress.effects ++ [.publish envelope] }
  let told := if outcome.dropped > 0 then called.warnDropped envelope.route outcome else called
  if outcome.matched = 0 then told.warnUnroutable envelope.route else told

end Progress

section
variable (crates : OwpCrates) (session : Session) (serviceId : String)

/-- The loop that converts, checks and stamps: what is ready, or the error it
stops with. -/
def makeReady : List Envelope → List Envelope → Progress → Except String (List Envelope) × Progress
  | [], ready, progress => (.ok ready, progress)
  | envelope :: rest, ready, progress =>
    match convert crates session envelope with
    | .error error => (.error error, progress)
    | .ok envelope =>
      let violations := violationsOf crates.toCrates envelope.payload session.schema
        session.config.validate
      if violations ≠ [] then
        if session.config.validate = .reject then
          (.error ("payload does not follow the UCI schema: " ++ Uci.summarize violations),
            progress)
        else
          makeReady rest (ready ++ [stamp session serviceId envelope])
            (progress.warnInvalid envelope.route (Uci.summarize violations))
      else makeReady rest (ready ++ [stamp session serviceId envelope]) progress

/-- The loop that publishes, whatever the engine answers to each call. -/
def publishReady (answer : Nat → PublishOutcome) (ready : List Envelope)
    (progress : Progress) : Progress :=
  ready.zipIdx.foldl (fun progress entry => progress.publish entry.1 (answer entry.2)) progress

/-- `publish_owp` with its effects, from the trackers of its connection. -/
def runPublish (ids : MessageId × MessageId) (topic payload : String) (warnings : RouteWarnings)
    (answer : Nat → PublishOutcome) : Except String Unit × Progress :=
  match outgoing crates session ids topic payload with
  | .error error => (.error error, ⟨warnings, []⟩)
  | .ok envelopes =>
    match makeReady crates session serviceId envelopes [] ⟨warnings, []⟩ with
    | (.error error, progress) => (.error error, progress)
    | (.ok ready, progress) => (.ok (), publishReady answer ready progress)

end

namespace Progress

@[simp] theorem published_start (warnings : RouteWarnings) :
    (⟨warnings, []⟩ : Progress).published = [] := rfl

theorem handed_notices (report : Report) {warning : PubEffect} (silent : warning.handed = none) :
    (notices report warning).filterMap PubEffect.handed = [] := by
  have limit : PubEffect.capNotice.handed = none := rfl
  cases report <;> simp [notices, silent, limit]

@[simp] theorem published_warnInvalid (progress : Progress) (route : RouteKey) (summary : String) :
    (progress.warnInvalid route summary).published = progress.published := by
  simp only [published, warnInvalid, List.filterMap_append]
  rw [handed_notices _ rfl, List.append_nil]

@[simp] theorem published_warnUnroutable (progress : Progress) (route : RouteKey) :
    (progress.warnUnroutable route).published = progress.published := by
  simp only [published, warnUnroutable, List.filterMap_append]
  rw [handed_notices _ rfl, List.append_nil]

@[simp] theorem published_warnDropped (progress : Progress) (route : RouteKey)
    (outcome : PublishOutcome) : (progress.warnDropped route outcome).published =
      progress.published := by
  simp [published, warnDropped, PubEffect.handed]

/-- One call hands over one envelope, whatever comes of it. -/
@[simp] theorem published_publish (progress : Progress) (envelope : Envelope)
    (outcome : PublishOutcome) : (progress.publish envelope outcome).published =
      progress.published ++ [envelope] := by
  have called :
      (⟨progress.warnings, progress.effects ++ [.publish envelope]⟩ : Progress).published =
        progress.published ++ [envelope] := by
    simp [published, PubEffect.handed]
  rw [publish, ← called]
  split <;> split <;> simp

end Progress

theorem published_publishReady (answer : Nat → PublishOutcome) (ready : List Envelope)
    (progress : Progress) : (publishReady answer ready progress).published =
      progress.published ++ ready := by
  have run (start : Nat) : ((ready.zipIdx start).foldl
      (fun progress entry => progress.publish entry.1 (answer entry.2)) progress).published =
        progress.published ++ ready := by
    induction ready generalizing progress start with
    | nil => simp
    | cons envelope rest ih => simp [ih]
  exact run 0

section
variable {crates : OwpCrates} {session : Session} {serviceId : String}

/-- The loop stops where `collect` does, and calls the engine for nothing. -/
theorem makeReady_spec (envelopes ready : List Envelope) (progress : Progress) :
    (makeReady crates session serviceId envelopes ready progress).1 =
        (collect (prepare crates session serviceId) envelopes).map (ready ++ ·) ∧
      (makeReady crates session serviceId envelopes ready progress).2.published =
          progress.published := by
  induction envelopes generalizing ready progress with
  | nil => simp [makeReady, collect, Except.map]
  | cons envelope rest ih =>
    rw [makeReady, collect, prepare]
    cases convert crates session envelope with
    | error error => exact ⟨rfl, rfl⟩
    | ok envelope =>
      simp only
      by_cases reported : violationsOf crates.toCrates envelope.payload session.schema
        session.config.validate ≠ []
      · by_cases strict : session.config.validate = .reject
        · rw [if_pos reported, if_pos strict, if_pos ⟨reported, strict⟩]
          exact ⟨rfl, rfl⟩
        · rw [if_pos reported, if_neg strict, if_neg fun both => strict both.2]
          obtain ⟨result, calls⟩ := ih (ready ++ [stamp session serviceId envelope])
            (progress.warnInvalid envelope.route (Uci.summarize
              (violationsOf crates.toCrates envelope.payload session.schema
                session.config.validate)))
          rw [result, calls, Progress.published_warnInvalid]
          refine ⟨?_, rfl⟩
          cases collect (prepare crates session serviceId) rest <;> simp [Except.map]
      · rw [if_neg reported, if_neg fun both => reported both.1]
        obtain ⟨result, calls⟩ := ih (ready ++ [stamp session serviceId envelope]) progress
        rw [result, calls]
        refine ⟨?_, rfl⟩
        cases collect (prepare crates session serviceId) rest <;> simp [Except.map]

/-- A run answers as `publishOwp` does, and calls the engine for what that hands
over. -/
theorem runPublish_spec (ids : MessageId × MessageId) (topic payload : String)
    (warnings : RouteWarnings) (answer : Nat → PublishOutcome) :
    (∃ error, publishOwp crates session serviceId ids topic payload = .error error ∧
        (runPublish crates session serviceId ids topic payload warnings answer).1 = .error error ∧
        (runPublish crates session serviceId ids topic payload warnings answer).2.published = []) ∨
      ∃ handed, publishOwp crates session serviceId ids topic payload = .ok handed ∧
        (runPublish crates session serviceId ids topic payload warnings answer).1 = .ok () ∧
        (runPublish crates session serviceId ids topic payload warnings answer).2.published
            = handed := by
  rw [publishOwp, runPublish]
  cases outgoing crates session ids topic payload with
  | error error => exact .inl ⟨error, rfl, rfl, rfl⟩
  | ok envelopes =>
    obtain ⟨result, calls⟩ := @makeReady_spec crates session serviceId envelopes [] ⟨warnings, []⟩
    rw [Progress.published_start] at calls
    simp only
    cases collected : collect (prepare crates session serviceId) envelopes with
    | error error =>
      rw [collected] at result
      refine .inl ⟨error, rfl, ?_⟩
      split
      · rename_i other progress ended
        rw [ended] at result calls
        cases result
        exact ⟨rfl, calls⟩
      · rename_i ready progress ended
        rw [ended] at result
        cases result
    | ok handed =>
      rw [collected] at result
      refine .inr ⟨handed, rfl, ?_⟩
      split
      · rename_i error progress ended
        rw [ended] at result
        cases result
      · rename_i ready progress ended
        rw [ended] at result calls
        cases result
        exact ⟨rfl, by simp [published_publishReady, calls]⟩

end

section
variable (crates : OwpCrates) (session : Session)

/-- The envelopes a payload stands for: a wrapper and then the message inside it
where payloads are unwrapped, else the payload alone. -/
inductive Derived (ids : MessageId × MessageId) (topic payload : String) :
    List Envelope → Prop where
  | unwrapped (asked : session.config.unwrapMaPayloads = true)
      (wrapped : (Agra.wrapperKind crates.toCrates (utf8 payload)).isSome = true)
      (peeled : Agra.unwrap crates.toCrates ids topic (utf8 payload) = .ok parts) :
      Derived ids topic payload [parts.wrapper, parts.inner]
  | ordinary (whole : session.config.unwrapMaPayloads = false ∨
        Agra.wrapperKind crates.toCrates (utf8 payload) = none)
      (hint : String) (contentType : ContentType) :
      Derived ids topic payload
        [(Envelope.new ids.1 (.typed topic hint) (utf8 payload)).withContentType contentType]

/-- What the engine gets for one derived envelope. -/
structure Carries (serviceId : String) (source handed : Envelope) : Prop where
  converted : session.config.xmlBaseline = true → ∃ schema xml, session.schema = some schema ∧
    towardXml crates.toCrates source schema = .ok xml ∧ handed = stamp session serviceId xml
  plain : session.config.xmlBaseline = false → handed = stamp session serviceId source
  service : handed.headers.get? "owp.service_id" = some serviceId
  connection : handed.headers.get? "owp.conn_id" = some (toString session.connId)
  quiet : session.config.validate = .reject →
    violationsOf crates.toCrates handed.payload session.schema .reject = []

end

section
variable {crates : OwpCrates} {session : Session}

theorem derived_of_outgoing {ids : MessageId × MessageId} {topic payload : String}
    {envelopes : List Envelope} (made : outgoing crates session ids topic payload = .ok envelopes) :
    Derived crates session ids topic payload envelopes := by
  rw [outgoing] at made
  split at made
  · rename_i peels
    rw [Bool.and_eq_true] at peels
    split at made
    · rename_i parts peeled
      cases made
      exact .unwrapped peels.1 peels.2 peeled
    · cases made
  · rename_i whole
    have alone : session.config.unwrapMaPayloads = false ∨
        Agra.wrapperKind crates.toCrates (utf8 payload) = none := by
      simpa [imp_iff_not_or] using whole
    split at made
    · split at made
      · cases made
        exact .ordinary alone _ _
      · cases made
    · split at made
      · cases made
        exact .ordinary alone _ _
      · cases made

theorem stamp_service (serviceId : String) (envelope : Envelope) :
    (stamp session serviceId envelope).headers.get? "owp.service_id" = some serviceId := by
  simp [stamp, Envelope.withHeader]

theorem stamp_connection (serviceId : String) (envelope : Envelope) :
    (stamp session serviceId envelope).headers.get? "owp.conn_id" =
      some (toString session.connId) := by
  simp [stamp, Envelope.withHeader]

theorem carries_of_prepare {serviceId : String} {source handed : Envelope}
    (prepared : prepare crates session serviceId source = .ok handed) :
    Carries crates session serviceId source handed := by
  rw [prepare] at prepared
  split at prepared
  · cases prepared
  · rename_i envelope changed
    simp only at prepared
    split at prepared
    · cases prepared
    · rename_i accepted
      cases prepared
      refine ⟨fun baseline => ?_, fun baseline => ?_, stamp_service _ _, stamp_connection _ _,
        fun strict => ?_⟩
      · rw [convert, if_pos baseline] at changed
        split at changed
        · cases changed
        · rename_i schema loaded
          exact ⟨schema, envelope, loaded, changed, rfl⟩
      · rw [convert, if_neg (by simp [baseline])] at changed
        cases changed
        rfl
      · by_contra reported
        exact accepted ⟨by rwa [strict], strict⟩

/-- A publish fails and calls the engine for nothing, or succeeds and calls it
for every envelope of its payload in order, whatever the engine answers. -/
theorem runPublish_all_or_nothing (crates : OwpCrates) (session : Session) (serviceId : String)
    (ids : MessageId × MessageId) (topic payload : String) (warnings : RouteWarnings)
    (answer : Nat → PublishOutcome) :
    (∃ error, (runPublish crates session serviceId ids topic payload warnings answer).1 =
      .error error ∧
        (runPublish crates session serviceId ids topic payload warnings answer).2.published = []) ∨
      (runPublish crates session serviceId ids topic payload warnings answer).1 = .ok () ∧
        ∃ envelopes, Derived crates session ids topic payload envelopes ∧
          List.Forall₂ (Carries crates session serviceId) envelopes
            (runPublish crates session serviceId ids topic payload
                warnings answer).2.published := by
  rcases @runPublish_spec crates session serviceId ids topic payload warnings answer with
    ⟨error, -, failed, silent⟩ | ⟨handed, made, ended, calls⟩
  · exact .inl ⟨error, failed, silent⟩
  · rw [publishOwp] at made
    split at made
    · cases made
    · rename_i envelopes derived
      refine .inr ⟨ended, envelopes, derived_of_outgoing derived, ?_⟩
      rw [calls]
      exact (collect_eq_ok.mp made).imp fun _ _ prepared => carries_of_prepare prepared

end

end OaGateway.Owp
