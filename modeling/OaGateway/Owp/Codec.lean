import OaGateway.Crates
import OaGateway.Lib.Text

/-! Client and server frames of the WebSocket edge: a keyword and fields
between spaces or tabs. -/
namespace OaGateway.Owp

open Lib Lib.Json

/-- Protocol error carried on `-ERR`. -/
inductive OwpError where
  | unsupportedVersion
  | unsupportedSchema
  | unsupportedService
  | illegalOperation
  | illegalArgument
  | illegalState
  | internalError
  | invalidMessage
deriving DecidableEq, Repr

def OwpError.display : OwpError → String
  | unsupportedVersion => "Unsupported-Version"
  | unsupportedSchema => "Unsupported-Schema"
  | unsupportedService => "Unsupported-Service"
  | illegalOperation => "Illegal-Operation"
  | illegalArgument => "Illegal-Argument"
  | illegalState => "Illegal-State"
  | internalError => "Internal-Error"
  | invalidMessage => "Invalid-Message"

structure InitPayload where
  versions : List String
  schema : String
  verbose : Option Bool
  serviceId : String
deriving DecidableEq, Repr

structure Identifiers where
  system : String
  service : String
  subsystem : Option String
deriving DecidableEq, Repr

structure InfoPayload where
  version : String
  serverId : String
  uuids : Identifiers
  systemLabel : String
deriving DecidableEq, Repr

inductive ClientOp where
  | init (payload : InitPayload)
  | pub (topic payload : String)
  | sub (sid messageName topic : String) (group : Option String)
  | unsub (sid : String)
deriving DecidableEq, Repr

inductive ServerOp where
  | ok
  | err (error : OwpError) (details : Option String)
  | info (payload : InfoPayload)
  | msg (sid payload : String)
deriving DecidableEq, Repr

/-- Why a frame could not be parsed. -/
inductive ParseError where
  | emptyFrame
  | unknownOp (op : String)
  | missingField (op field : String)
  | extraFields (op : String)
  | invalidIdentifier (op field value : String)
  | invalidJson (op message : String)
deriving DecidableEq, Repr

def ParseError.display : ParseError → String
  | emptyFrame => "empty frame"
  | unknownOp op => "unknown operation '" ++ op ++ "'"
  | missingField op field => op ++ ": missing '" ++ field ++ "'"
  | extraFields op => op ++ ": unexpected extra fields"
  | invalidIdentifier op field value =>
    op ++ ": '" ++ field ++ "' value '" ++ value ++ "' is not an OWP identifier"
  | invalidJson op message => op ++ ": invalid JSON: " ++ message

/-- What this edge takes from other crates besides the shared ones. -/
structure OwpCrates extends Crates where
  /-- `serde_json::from_str` into the body of an `INIT`. -/
  initParse : String → Except String InitPayload
  /-- The version 5 UUID of a name. -/
  uuidV5 : String → String

/-- Letters, digits, `_`, `-` and `.`, at least one. -/
def isIdentifier (text : String) : Bool :=
  !text.toList.isEmpty && text.toList.all fun c => c.isAlphanum || c == '_' || c == '-' || c == '.'

def isDelim (c : Char) : Bool := c == ' ' || c == '\t'

/-- The first run of other characters, and what follows the delimiters after it. -/
def splitFirstToken (text : List Char) : Option (List Char × List Char) :=
  match text.dropWhile isDelim with
  | [] => none
  | start =>
    some (start.takeWhile fun c => !isDelim c,
      (start.dropWhile fun c => !isDelim c).dropWhile isDelim)

/-- Up to `max` tokens; what is left after them is dropped. -/
def tokenize : Nat → List Char → List String
  | 0, _ => []
  | max + 1, text =>
    match splitFirstToken text with
    | none => []
    | some (token, rest) => .ofList token :: tokenize max rest

section
variable (crates : OwpCrates)

def parseInit (rest : List Char) : Except ParseError ClientOp :=
  if rest.isEmpty then .error (.missingField "INIT" "payload")
  else match crates.initParse (.ofList rest) with
    | .error message => .error (.invalidJson "INIT" message)
    | .ok payload =>
      if payload.versions.isEmpty then .error (.missingField "INIT" "versions")
      else if !isIdentifier payload.serviceId then
        .error (.invalidIdentifier "INIT" "service_id" payload.serviceId)
      else .ok (.init payload)

def parsePub (rest : List Char) : Except ParseError ClientOp :=
  match splitFirstToken rest with
  | none => .error (.missingField "PUB" "topic")
  | some (topic, payload) =>
    if !isIdentifier (.ofList topic) then .error (.invalidIdentifier "PUB" "topic" (.ofList topic))
    else if payload.isEmpty then .error (.missingField "PUB" "payload")
    else .ok (.pub (.ofList topic) (.ofList payload))

/-- The first of some named values that is no identifier. -/
def refuseIdentifier (op : String) (fields : List (String × String)) : Option ParseError :=
  (fields.find? fun field => !isIdentifier field.2).map fun field =>
    .invalidIdentifier op field.1 field.2

def parseSub (rest : List Char) : Except ParseError ClientOp :=
  match tokenize 5 rest with
  | [] => .error (.missingField "SUB" "sid")
  | [_] => .error (.missingField "SUB" "message_name")
  | [_, _] => .error (.missingField "SUB" "topic")
  | [sid, messageName, topic] =>
    match refuseIdentifier "SUB" [("sid", sid), ("topic", topic)] with
    | some error => .error error
    | none => .ok (.sub sid messageName topic none)
  | [sid, messageName, topic, group] =>
    match refuseIdentifier "SUB" [("sid", sid), ("topic", topic), ("group", group)] with
    | some error => .error error
    | none => .ok (.sub sid messageName topic (some group))
  | _ => .error (.extraFields "SUB")

def parseUnsub (rest : List Char) : Except ParseError ClientOp :=
  match tokenize 2 rest with
  | [] => .error (.missingField "UNSUB" "sid")
  | [sid] =>
    match refuseIdentifier "UNSUB" [("sid", sid)] with
    | some error => .error error
    | none => .ok (.unsub sid)
  | _ => .error (.extraFields "UNSUB")

/-- Parse one client text frame. -/
def parseClient (frame : String) : Except ParseError ClientOp :=
  match splitFirstToken frame.toList with
  | none => .error .emptyFrame
  | some (keyword, rest) =>
    if keyword = ['I', 'N', 'I', 'T'] then parseInit crates rest
    else if keyword = ['P', 'U', 'B'] then parsePub rest
    else if keyword = ['S', 'U', 'B'] then parseSub rest
    else if keyword = ['U', 'N', 'S', 'U', 'B'] then parseUnsub rest
    else .error (.unknownOp (.ofList keyword))

/-- The only member of an OMS JSON object, which is its type. -/
def typeHintFromJson (text : String) : Except ParseError String :=
  match crates.jsonParse text with
  | .error message => .error (.invalidJson "PUB" message)
  | .ok value =>
    match value.asObject with
    | none => .error (.invalidJson "PUB" "root must be a JSON object")
    | some [(name, _)] => .ok name
    | some _ => .error (.invalidJson "PUB" "root object must have exactly one member")

end

end OaGateway.Owp
