import OaGateway.Lib.Capped
import OaGateway.Owp.AllOrNothing

/-! What the log of a connection says about its publishes: which routes it
names, how often, and when it stops. -/
namespace OaGateway.Owp

open Lib OaGateway.Core

/-- One `PUB`, with the ids it draws and the engine's answers. -/
structure Attempt where
  ids : MessageId × MessageId
  topic : String
  payload : String
  answer : Nat → PublishOutcome

namespace PubEffect

/-- The route a warning about nobody listening names. -/
def unroutable? : PubEffect → Option RouteKey
  | unroutable route => some route
  | _ => none

/-- The route a warning about a payload against the schema names. -/
def invalid? : PubEffect → Option RouteKey
  | invalid route _ => some route
  | _ => none

def isNotice : PubEffect → Bool
  | capNotice => true
  | _ => false

end PubEffect

section
variable (crates : OwpCrates) (session : Session) (serviceId : String)

/-- The publishes of a connection, one after the other, with the trackers that
go through them and what they do. -/
def runPublishes (attempts : List Attempt) : Progress :=
  attempts.foldl (fun progress attempt =>
    let after := (runPublish crates session serviceId attempt.ids attempt.topic attempt.payload
      progress.warnings
      attempt.answer).2
    ⟨after.warnings, progress.effects ++ after.effects⟩) ⟨{}, []⟩

/-- The routes of some envelopes on which nobody listens. -/
def unheard (answer : Nat → PublishOutcome) (handed : List (Envelope × Nat)) : List RouteKey :=
  handed.filterMap fun entry => if (answer entry.2).matched = 0 then some entry.1.route else none

/-- The routes a publish goes out on without a subscriber. -/
def Attempt.unheard (attempt : Attempt) : List RouteKey :=
  match publishOwp crates session serviceId attempt.ids attempt.topic attempt.payload with
  | .error _ => []
  | .ok handed => Owp.unheard attempt.answer handed.zipIdx

/-- The routes of envelopes against the schema, up to the first that cannot be
converted. -/
def complaints : List Envelope → List RouteKey
  | [] => []
  | envelope :: rest =>
    match convert crates session envelope with
    | .error _ => []
    | .ok envelope =>
      if violationsOf crates.toCrates envelope.payload session.schema
        session.config.validate ≠ [] then
        envelope.route :: complaints rest
      else complaints rest

/-- The routes a publish is carried on although it is against the schema. -/
def Attempt.complaints (attempt : Attempt) : List RouteKey :=
  if session.config.validate = .reject then []
  else
    match outgoing crates session attempt.ids attempt.topic attempt.payload with
    | .error _ => []
    | .ok envelopes => Owp.complaints crates session envelopes

end

/-- What a log says, where `silent` had no subscriber and `against` was against
the schema. -/
structure Logged (silent against : List RouteKey) (effects : List PubEffect)
    (warnings : RouteWarnings) : Prop where
  unroutable : warnings.unroutable.seen = firstFew SeenRoutes.cap silent
  invalid : warnings.invalid.seen = firstFew SeenRoutes.cap against
  lost : effects.filterMap PubEffect.unroutable? = firstFew SeenRoutes.cap silent
  wrong : effects.filterMap PubEffect.invalid? = firstFew SeenRoutes.cap against
  notices : effects.countP PubEffect.isNotice = filled SeenRoutes.cap silent +
    filled SeenRoutes.cap against

section Trackers
variable {tracker : SeenRoutes} {asked : List RouteKey} {route : RouteKey}

theorem report_spec (tracks : tracker.seen = firstFew SeenRoutes.cap asked) (route : RouteKey) :
    (tracker.report route).2.seen = firstFew SeenRoutes.cap (asked ++ [route]) ∧
      ((tracker.report route).1 = .skip ∧
          firstFew SeenRoutes.cap (asked ++ [route]) = firstFew SeenRoutes.cap asked ∨
        firstFew SeenRoutes.cap (asked ++ [route]) = firstFew SeenRoutes.cap asked ++ [route] ∧
          (firstFew SeenRoutes.cap asked).length < SeenRoutes.cap ∧
          (tracker.report route).1 =
            if (firstFew SeenRoutes.cap (asked ++ [route])).length = SeenRoutes.cap then .final
                else .new) := by
  rw [SeenRoutes.report, tracks]
  split
  · rename_i known
    have same : firstFew SeenRoutes.cap (asked ++ [route]) = firstFew SeenRoutes.cap asked := by
      by_cases full : SeenRoutes.cap ≤ (firstFew SeenRoutes.cap asked).length
      · exact firstFew_full full route
      · exact firstFew_old (Nat.lt_of_not_le full) (known.resolve_left full)
    exact ⟨by rw [tracks, same], .inl ⟨rfl, same⟩⟩
  · rename_i fresh
    rw [not_or, Nat.not_le] at fresh
    have grown := firstFew_new fresh.1 fresh.2
    exact ⟨grown.symm, .inr ⟨grown, fresh.1, by rw [grown]⟩⟩

/-- The log entries of a report are one name, or none, and a notice for the last. -/
theorem notices_spec (warning : PubEffect) (named : PubEffect → Option RouteKey)
    (tracks : tracker.seen = firstFew SeenRoutes.cap asked) (names : named warning = some route)
    (plain : warning.isNotice = false) (nameless : named .capNotice = none) :
    firstFew SeenRoutes.cap asked ++
      (Progress.notices (tracker.report route).1 warning).filterMap named =
        firstFew SeenRoutes.cap (asked ++ [route]) ∧
      filled SeenRoutes.cap asked + (Progress.notices (tracker.report route).1 warning).countP
        PubEffect.isNotice =
        filled SeenRoutes.cap (asked ++ [route]) := by
  have notice : PubEffect.capNotice.isNotice = true := rfl
  rcases (report_spec tracks route).2 with ⟨skip, same⟩ | ⟨grown, room, report⟩
  · rw [skip, filled, filled, same]
    exact ⟨List.append_nil _, rfl⟩
  · rw [report, filled, filled, if_neg room.ne]
    split
    · simp [Progress.notices, names, nameless, plain, notice, grown]
    · simp [Progress.notices, names, plain, grown]

/-- A warning of one kind does not count as one of the other. -/
theorem notices_other {report : Report} {warning : PubEffect} {named : PubEffect → Option RouteKey}
    (other : named warning = none) (nameless : named .capNotice = none) :
    (Progress.notices report warning).filterMap named = [] := by
  cases report <;> simp [Progress.notices, other, nameless]

end Trackers

section Log
variable {silent against : List RouteKey} {earlier : List PubEffect} {progress : Progress}

theorem Logged.warnInvalid
    (logged : Logged silent against (earlier ++ progress.effects) progress.warnings)
    (route : RouteKey) (summary : String) :
    Logged silent (against ++ [route]) (earlier ++ (progress.warnInvalid route summary).effects)
      (progress.warnInvalid route summary).warnings := by
  obtain ⟨named, notices⟩ := notices_spec (.invalid route summary) PubEffect.invalid?
    logged.invalid rfl rfl rfl
  have other : (Progress.notices (progress.warnings.invalid.report route).1
    (.invalid route summary)).filterMap
      PubEffect.unroutable? = [] := notices_other rfl rfl
  simp only [Progress.warnInvalid, ← List.append_assoc]
  refine ⟨logged.unroutable, (report_spec logged.invalid route).1, ?_, ?_, ?_⟩
  · rw [List.filterMap_append, logged.lost, other, List.append_nil]
  · rw [List.filterMap_append, logged.wrong, named]
  · rw [List.countP_append, logged.notices, Nat.add_assoc, notices]

theorem Logged.warnUnroutable
    (logged : Logged silent against (earlier ++ progress.effects) progress.warnings)
    (route : RouteKey) :
    Logged (silent ++ [route]) against (earlier ++ (progress.warnUnroutable route).effects)
      (progress.warnUnroutable route).warnings := by
  obtain ⟨named, notices⟩ := notices_spec (.unroutable route) PubEffect.unroutable?
    logged.unroutable rfl rfl rfl
  have other : (Progress.notices (progress.warnings.unroutable.report route).1
    (.unroutable route)).filterMap
      PubEffect.invalid? = [] := notices_other rfl rfl
  simp only [Progress.warnUnroutable, ← List.append_assoc]
  refine ⟨(report_spec logged.unroutable route).1, logged.invalid, ?_, ?_, ?_⟩
  · rw [List.filterMap_append, logged.lost, named]
  · rw [List.filterMap_append, logged.wrong, other, List.append_nil]
  · rw [List.countP_append, logged.notices, ← notices]
    omega

theorem Logged.plain
    (logged : Logged silent against (earlier ++ progress.effects) progress.warnings)
    (effect : PubEffect) (heard : effect.unroutable? = none) (fine : effect.invalid? = none)
    (quiet : effect.isNotice = false) :
    Logged silent against
      (earlier ++ ({ progress with effects := progress.effects ++ [effect] } : Progress).effects)
      ({ progress with effects := progress.effects ++ [effect] } : Progress).warnings := by
  simp only [← List.append_assoc]
  refine ⟨logged.unroutable, logged.invalid, ?_, ?_, ?_⟩
  · rw [List.filterMap_append, logged.lost]
    simp [heard]
  · rw [List.filterMap_append, logged.wrong]
    simp [fine]
  · rw [List.countP_append, logged.notices]
    simp [quiet]

theorem Logged.publish
    (logged : Logged silent against (earlier ++ progress.effects) progress.warnings)
    (envelope : Envelope) (outcome : PublishOutcome) :
    Logged (silent ++ if outcome.matched = 0 then [envelope.route] else []) against
      (earlier ++ (progress.publish envelope outcome).effects)
          (progress.publish envelope outcome).warnings := by
  have called := logged.plain (.publish envelope) rfl rfl rfl
  simp only [Progress.publish]
  split <;> split
  · exact (called.plain (.dropped envelope.route outcome) rfl rfl rfl).warnUnroutable envelope.route
  · exact called.warnUnroutable envelope.route
  · rw [List.append_nil]
    exact called.plain (.dropped envelope.route outcome) rfl rfl rfl
  · rw [List.append_nil]
    exact called

theorem Logged.publishReady (answer : Nat → PublishOutcome) (handed : List (Envelope × Nat))
    (logged : Logged silent against (earlier ++ progress.effects) progress.warnings) :
    Logged (silent ++ Owp.unheard answer handed) against
      (earlier ++ (handed.foldl (fun progress entry => progress.publish entry.1 (answer entry.2))
        progress).effects)
      (handed.foldl (fun progress entry => progress.publish entry.1 (answer entry.2))
          progress).warnings := by
  induction handed generalizing silent progress with
  | nil => simpa [Owp.unheard] using logged
  | cons entry rest ih =>
    have onward := ih (logged.publish entry.1 (answer entry.2))
    have routes : (if (answer entry.2).matched = 0 then [entry.1.route] else []) ++
      Owp.unheard answer rest =
        Owp.unheard answer (entry :: rest) := by
      by_cases none : (answer entry.2).matched = 0 <;> simp [Owp.unheard, none]
    rwa [List.append_assoc, routes] at onward

theorem Logged.makeReady (crates : OwpCrates) (session : Session) (serviceId : String)
    (envelopes ready : List Envelope)
    (logged : Logged silent against (earlier ++ progress.effects) progress.warnings) :
    Logged silent (against ++ if session.config.validate = .reject then []
      else Owp.complaints crates session envelopes)
      (earlier ++ (makeReady crates session serviceId envelopes ready progress).2.effects)
      (makeReady crates session serviceId envelopes ready progress).2.warnings := by
  induction envelopes generalizing against ready progress with
  | nil => simpa [makeReady, Owp.complaints] using logged
  | cons envelope rest ih =>
    rw [Owp.makeReady, Owp.complaints]
    cases convert crates session envelope with
    | error error => simpa using logged
    | ok envelope =>
      simp only
      by_cases reported : violationsOf crates.toCrates envelope.payload session.schema
        session.config.validate ≠ []
      · rw [if_pos reported, if_pos reported]
        by_cases strict : session.config.validate = .reject
        · rw [if_pos strict, if_pos strict, List.append_nil]
          exact logged
        · rw [if_neg strict, if_neg strict]
          have onward := ih (ready ++ [stamp session serviceId envelope])
            (logged.warnInvalid envelope.route
            (Uci.summarize (violationsOf crates.toCrates envelope.payload session.schema
              session.config.validate)))
          rwa [if_neg strict, List.append_assoc, List.singleton_append] at onward
      · rw [if_neg reported, if_neg reported]
        exact ih _ logged

variable {crates : OwpCrates} {session : Session} {serviceId : String}

/-- One publish, whether it succeeds or not. -/
theorem Logged.runPublish {warnings : RouteWarnings}
    (logged : Logged silent against earlier warnings) (attempt : Attempt) :
    Logged (silent ++ attempt.unheard crates session serviceId)
      (against ++ attempt.complaints crates session)
      (earlier ++ (Owp.runPublish crates session serviceId attempt.ids attempt.topic
        attempt.payload warnings
        attempt.answer).2.effects)
      (Owp.runPublish crates session serviceId attempt.ids attempt.topic attempt.payload warnings
          attempt.answer).2.warnings := by
  rw [Owp.runPublish, Attempt.unheard, Attempt.complaints, publishOwp]
  cases made : outgoing crates session attempt.ids attempt.topic attempt.payload with
  | error error => simpa using logged
  | ok envelopes =>
    have start : Logged silent against (earlier ++ (⟨warnings, []⟩ : Progress).effects)
        (⟨warnings, []⟩ : Progress).warnings := by
      simpa using logged
    have prepared := start.makeReady crates session serviceId envelopes []
    obtain ⟨result, -⟩ := @makeReady_spec crates session serviceId envelopes [] ⟨warnings, []⟩
    rcases ended : Owp.makeReady crates session serviceId envelopes []
      ⟨warnings, []⟩ with ⟨answer, progress⟩
    rw [ended] at prepared result
    simp only [ended] at prepared result ⊢
    cases collected : collect (prepare crates session serviceId) envelopes with
    | error error =>
      obtain rfl : answer = .error error := by rw [result, collected, Except.map]
      simpa using prepared
    | ok handed =>
      obtain rfl : answer = .ok handed := by
        rw [result, collected, Except.map]
        simp
      exact prepared.publishReady attempt.answer handed.zipIdx

theorem runPublishes_concat (attempts : List Attempt) (last : Attempt) :
    let before := runPublishes crates session serviceId attempts
    let after :=
      (runPublish crates session serviceId last.ids last.topic last.payload
      before.warnings last.answer).2
    runPublishes crates session serviceId (attempts ++ [last]) =
        ⟨after.warnings, before.effects ++ after.effects⟩ := by
  simp [runPublishes]

theorem logged_publishes (attempts : List Attempt) :
    Logged (attempts.flatMap fun attempt => attempt.unheard crates session serviceId)
      (attempts.flatMap fun attempt => attempt.complaints crates session)
      (runPublishes crates session serviceId attempts).effects
          (runPublishes crates session serviceId attempts).warnings := by
  induction attempts using List.reverseRecOn with
  | nil => exact ⟨rfl, rfl, rfl, rfl, rfl⟩
  | append_singleton attempts last ih =>
    rw [runPublishes_concat, List.flatMap_append, List.flatMap_singleton, List.flatMap_append,
      List.flatMap_singleton]
    exact ih.runPublish last

end Log

/-- Through all the publishes of a connection, failed ones included: the routes
that nobody listens to are named once each, in the order they come up, until
there are 64 of them; so are those whose payloads are against the schema; and
whichever of the two has filled up has said so once. -/
theorem connection_warnings (crates : OwpCrates) (session : Session) (serviceId : String)
    (attempts : List Attempt) :
    let effects := (runPublishes crates session serviceId attempts).effects
    let silent := attempts.flatMap fun attempt => attempt.unheard crates session serviceId
    let against := attempts.flatMap fun attempt => attempt.complaints crates session
    effects.filterMap PubEffect.unroutable? = silent.eraseDups.take 64 ∧
      effects.filterMap PubEffect.invalid? = against.eraseDups.take 64 ∧
      effects.countP PubEffect.isNotice =
        (if 64 ≤ silent.eraseDups.length then 1 else 0) +
          if 64 ≤ against.eraseDups.length then 1 else 0 := by
  have logged : Logged _ _ _ _ := @logged_publishes crates session serviceId attempts
  exact ⟨logged.lost, logged.wrong, by rw [logged.notices, filled_eq, filled_eq]; rfl⟩

end OaGateway.Owp
