import OaGateway.Owp.Codec
import OaGateway.Owp.Convert

/-! The payload paths of one session: a client's publish onto the engine, and a
delivery off the engine toward the client. -/
namespace OaGateway.Owp

open Lib OaGateway.Core

structure OwpConfig where
  serverId : String
  systemLabel : String
  /-- When set, `INIT.schema` must match. -/
  schema : Option String
  systemUuid : String
  unwrapMaPayloads : Bool
  xmlBaseline : Bool
  maxSubscriptions : Nat
  /-- Whether the session closes without an `INIT` in time. -/
  initTimeout : Bool
  idleTimeout : Bool
  validate : Uci.Mode

structure Session where
  adapterId : AdapterId
  config : OwpConfig
  schema : Option Uci.Schema
  connId : Nat

section
variable (crates : OwpCrates) (session : Session)

/-- The envelopes of a publish before conversion: one, or a wrapper and the
message inside it. The ids the code draws at random are arguments. -/
def outgoing (ids : MessageId × MessageId) (topic payload : String) :
    Except String (List Envelope) :=
  if session.config.unwrapMaPayloads &&
    (Agra.wrapperKind crates.toCrates (utf8 payload)).isSome then
    match Agra.unwrap crates.toCrates ids topic (utf8 payload) with
    | .ok peeled => .ok [peeled.wrapper, peeled.inner]
    | .error error => .error error.display
  else if Uci.looksLikeXml (utf8 payload) then
    match Agra.xmlRootLocalName crates.toCrates payload with
    | some hint =>
      .ok [(Envelope.new ids.1 (.typed topic hint) (utf8 payload)).withContentType .xml]
    | none => .error "XML payload has no element to take a type from"
  else match typeHintFromJson crates payload with
    | .ok hint =>
      .ok [(Envelope.new ids.1 (.typed topic hint) (utf8 payload)).withContentType .json]
    | .error error => .error error.display

/-- With the XML baseline on, everything toward the engine is XML. -/
def convert (envelope : Envelope) : Except String Envelope :=
  if session.config.xmlBaseline then
    match session.schema with
    | none => .error "owp.xml_baseline is enabled but no UCI schema is loaded"
    | some schema => towardXml crates.toCrates envelope schema
  else .ok envelope

def stamp (serviceId : String) (envelope : Envelope) : Envelope :=
  (envelope.withHeader "owp.service_id" serviceId).withHeader "owp.conn_id"
    (toString session.connId)

/-- Convert, check and stamp one envelope. -/
def prepare (serviceId : String) (envelope : Envelope) : Except String Envelope :=
  match convert crates session envelope with
  | .error error => .error error
  | .ok envelope =>
    let violations := violationsOf crates.toCrates envelope.payload session.schema
      session.config.validate
    if violations ≠ [] ∧ session.config.validate = .reject then
      .error ("payload does not follow the UCI schema: " ++ Uci.summarize violations)
    else .ok (stamp session serviceId envelope)

/-- What one publish hands to the engine, in order. Everything is converted and
checked before anything is published. -/
def publishOwp (serviceId : String) (ids : MessageId × MessageId) (topic payload : String) :
    Except String (List Envelope) :=
  match outgoing crates session ids topic payload with
  | .error error => .error error
  | .ok envelopes => collect (prepare crates session serviceId) envelopes

/-- The frame that reports violations on a delivery, in reject mode. -/
def handleViolations (violations : List Uci.Violation) (sid detail : String) : Option ServerOp :=
  if violations ≠ [] ∧ session.config.validate = .reject then
    some (.err .invalidMessage
      (some ("delivery on " ++ sid ++ " " ++ detail ++ ": " ++ Uci.summarize violations)))
  else none

def producerDetail : String := "does not follow the UCI schema"

def conversionDetail : String := "converted to a payload that does not follow the UCI schema"

/-- What a forwarder queues for one delivery. A payload that is not UTF-8 is
dropped without a frame. -/
def forwardFrame (sid : String) (envelope : Envelope) : Option ServerOp :=
  match fromUtf8 envelope.payload with
  | none => none
  | some raw =>
    let violations (text : String) : List Uci.Violation :=
      violationsOf crates.toCrates (utf8 text) session.schema session.config.validate
    match handleViolations session (violations raw) sid producerDetail with
    | some refusal => some refusal
    | none =>
      if session.config.xmlBaseline then
        match xmlToOmsJson crates.toCrates raw session.schema with
        | .error error =>
          some (.err .invalidMessage
            (some ("delivery on " ++ sid ++ " could not be converted: " ++ error)))
        | .ok json =>
          let refusal := if Uci.looksLikeXml (utf8 raw) then
              handleViolations session (violations json) sid conversionDetail
            else none
          match refusal with
          | some refusal => some refusal
          | none => some (.msg sid json)
      else some (.msg sid raw)

end

section
variable {crates : OwpCrates} {session : Session}

theorem prepare_inv {envelope handed : Envelope}
    (run : prepare crates session serviceId envelope = .ok handed) :
    ∃ ready, convert crates session envelope = .ok ready ∧
      handed = stamp session serviceId ready := by
  rw [prepare] at run
  split at run
  · cases run
  · rename_i ready changed
    simp only at run
    split at run
    · cases run
    · exact ⟨ready, changed, (Except.ok.inj run).symm⟩

end

end OaGateway.Owp
