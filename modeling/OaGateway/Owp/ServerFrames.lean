import OaGateway.Owp.Tokens

/-! Server frames on the wire: how an operation is written, and that reading the
frame gives the operation back. -/
namespace OaGateway.Owp

open Lib

/-- How `serde_json` writes and reads the body of an `INFO`. -/
structure InfoCrates where
  /-- `serde_json::to_string`. -/
  infoPrint : InfoPayload → Option String
  /-- `serde_json::from_str`, with the text of its error. -/
  infoParse : String → Except String InfoPayload

/-- A body prints as a JSON object and comes back the same. -/
structure InfoCrates.Rereads (crates : InfoCrates) (payload : InfoPayload)
    (json : String) : Prop where
  printed : crates.infoPrint payload = some json
  object : json.toList.head? = some '\x7b'
  parsed : crates.infoParse json = .ok payload

/-- The error a wire name stands for. -/
def OwpError.fromStr : String → Except ParseError OwpError
  | "Unsupported-Version" => .ok unsupportedVersion
  | "Unsupported-Schema" => .ok unsupportedSchema
  | "Unsupported-Service" => .ok unsupportedService
  | "Illegal-Operation" => .ok illegalOperation
  | "Illegal-Argument" => .ok illegalArgument
  | "Illegal-State" => .ok illegalState
  | "Internal-Error" => .ok internalError
  | "Invalid-Message" => .ok invalidMessage
  | other => .error (.unknownOp other)

section
variable (crates : InfoCrates)

/-- The wire form; `none` where the body of an `INFO` cannot be written. -/
def ServerOp.display : ServerOp → Option String
  | ok => some "+OK"
  | err error (some details) => some ("-ERR " ++ error.display ++ " " ++ details)
  | err error none => some ("-ERR " ++ error.display)
  | info payload => (crates.infoPrint payload).map fun json => "INFO " ++ json
  | msg sid payload => some ("MSG " ++ sid ++ " " ++ payload)

/-- What follows `-ERR`. -/
def parseErr (rest : List Char) : Except ParseError ServerOp :=
  match splitFirstToken rest with
  | none => .error (.missingField "-ERR" "error")
  | some (name, details) =>
    match OwpError.fromStr (.ofList name) with
    | .error error => .error error
    | .ok error => .ok (.err error (if details.isEmpty then none else some (.ofList details)))

/-- What follows `INFO`. -/
def parseInfo (rest : List Char) : Except ParseError ServerOp :=
  if rest.isEmpty then .error (.missingField "INFO" "payload")
  else match crates.infoParse (.ofList rest) with
    | .error message => .error (.invalidJson "INFO" message)
    | .ok payload => .ok (.info payload)

/-- What follows `MSG`. -/
def parseMsg (rest : List Char) : Except ParseError ServerOp :=
  match splitFirstToken rest with
  | none => .error (.missingField "MSG" "sid")
  | some (sid, payload) =>
    if !isIdentifier (.ofList sid) then .error (.invalidIdentifier "MSG" "sid" (.ofList sid))
    else if payload.isEmpty then .error (.missingField "MSG" "payload")
    else .ok (.msg (.ofList sid) (.ofList payload))

/-- Parse one server text frame. -/
def parseServer (frame : String) : Except ParseError ServerOp :=
  match splitFirstToken frame.toList with
  | none => .error .emptyFrame
  | some (keyword, rest) =>
    if keyword = ['+', 'O', 'K'] then
      if rest.isEmpty then .ok .ok else .error (.extraFields "+OK")
    else if keyword = ['-', 'E', 'R', 'R'] then parseErr rest
    else if keyword = ['I', 'N', 'F', 'O'] then parseInfo crates rest
    else if keyword = ['M', 'S', 'G'] then parseMsg rest
    else .error (.unknownOp (.ofList keyword))

end

/-- Text that ends a frame as it stands: some, and no delimiter before it. -/
structure Trailing (text : String) : Prop where
  given : text ≠ ""
  unled : Unled text.toList

/-- Operations whose texts fit the frame. -/
def ServerOp.Wire : ServerOp → Prop
  | ok => True
  | err _ details => ∀ text ∈ details, Trailing text
  | info _ => True
  | msg sid payload => isIdentifier sid = true ∧ Trailing payload

section Fields

theorem unled_nil : Unled [] := nofun

/-- A field and a space put before text that does not start with a delimiter. -/
theorem split_spaced {token rest : List Char} (field : Token token) (unled : Unled rest) :
    splitFirstToken (token ++ ' ' :: rest) = some (token, rest) := by
  apply splitFirstToken_eq_some.mpr
  refine ⟨field, unled, [], [' '], nofun, ?gap, fun _ => List.cons_ne_nil _ _, by simp⟩
  case gap =>
    intro c member
    rw [List.mem_singleton.mp member]
    rfl

theorem split_alone {token : List Char} (field : Token token) : splitFirstToken token =
    some (token, []) := by
  apply splitFirstToken_eq_some.mpr
  exact ⟨field, unled_nil, [], [], nofun, nofun, fun more => absurd rfl more, by simp⟩

theorem isIdentifier_token {text : String} (identifier : isIdentifier text = true) :
    Token text.toList := by
  rw [isIdentifier, Bool.and_eq_true, List.all_eq_true] at identifier
  obtain ⟨solid, plain⟩ := identifier
  refine ⟨by simpa using solid, fun c member => ?_⟩
  cases delim : isDelim c with
  | false => rfl
  | true =>
    have spelled := plain c member
    obtain rfl | rfl : c = ' ' ∨ c = '\t' := by simpa [isDelim] using delim
    · cases spelled
    · cases spelled

theorem OwpError.display_identifier (error : OwpError) : isIdentifier error.display = true := by
  cases error <;> rfl

theorem OwpError.fromStr_display (error : OwpError) : OwpError.fromStr error.display =
    .ok error := by
  cases error <;> rfl

end Fields

section Arms
variable {crates : InfoCrates}

theorem parseErr_named (error : OwpError) : parseErr error.display.toList =
    .ok (.err error none) := by
  rw [parseErr, split_alone (isIdentifier_token error.display_identifier)]
  simp [OwpError.fromStr_display]

theorem parseErr_detailed (error : OwpError) {details : String} (trailing : Trailing details) :
    parseErr (error.display.toList ++ ' ' :: details.toList) = .ok (.err error (some details)) := by
  rw [parseErr, split_spaced (isIdentifier_token error.display_identifier) trailing.unled]
  simp [OwpError.fromStr_display, trailing.given]

theorem parseInfo_printed {payload : InfoPayload} {json : String}
    (rereads : crates.Rereads payload json) :
    parseInfo crates json.toList = .ok (.info payload) := by
  have given : json.toList.isEmpty = false := by
    cases whole : json.toList with
    | nil => simpa [whole] using rereads.object
    | cons c rest => rfl
  simp [parseInfo, given, rereads.parsed]

theorem parseMsg_addressed {sid payload : String} (identifier : isIdentifier sid = true)
    (trailing : Trailing payload) :
    parseMsg (sid.toList ++ ' ' :: payload.toList) = .ok (.msg sid payload) := by
  rw [parseMsg, split_spaced (isIdentifier_token identifier) trailing.unled]
  simp [identifier, trailing.given]

end Arms

section Keywords
variable {crates : InfoCrates} {frame : String} {rest : List Char}

theorem keyword_token (keyword : List Char) (solid : keyword ≠ [])
    (plain : keyword.all (fun c => !isDelim c) = true) : Token keyword :=
  ⟨solid, fun c member => by simpa using List.all_eq_true.mp plain c member⟩

theorem parseServer_err (spelled : frame.toList = "-ERR".toList ++ ' ' :: rest)
    (unled : Unled rest) :
    parseServer crates frame = parseErr rest := by
  rw [parseServer, spelled, split_spaced (keyword_token _ (by decide) (by decide)) unled]
  rfl

theorem parseServer_info (spelled : frame.toList = "INFO".toList ++ ' ' :: rest)
    (unled : Unled rest) :
    parseServer crates frame = parseInfo crates rest := by
  rw [parseServer, spelled, split_spaced (keyword_token _ (by decide) (by decide)) unled]
  rfl

theorem parseServer_msg (spelled : frame.toList = "MSG".toList ++ ' ' :: rest)
    (unled : Unled rest) :
    parseServer crates frame = parseMsg rest := by
  rw [parseServer, spelled, split_spaced (keyword_token _ (by decide) (by decide)) unled]
  rfl

theorem parseServer_ok : parseServer crates "+OK" = .ok .ok := by
  rw [parseServer, split_alone (keyword_token "+OK".toList (by decide) (by decide))]
  rfl

end Keywords

/-- What an operation is written as is read back as that operation. -/
theorem parseServer_display (crates : InfoCrates) (op : ServerOp) (wire : op.Wire)
    (rereads : ∀ payload, op = .info payload → ∃ json, crates.Rereads payload json) :
    ∃ frame, op.display crates = some frame ∧ parseServer crates frame = .ok op := by
  cases op with
  | ok => exact ⟨_, rfl, parseServer_ok⟩
  | err error details =>
    have named := isIdentifier_token error.display_identifier
    cases details with
    | none =>
      refine ⟨_, rfl, ?read⟩
      case read =>
        have unled : Unled error.display.toList := by simpa using named.unled []
        rw [parseServer_err (by simp) unled, parseErr_named]
    | some details =>
      refine ⟨_, rfl, ?read⟩
      case read =>
        have trailing : Trailing details := wire details rfl
        have unled : Unled (error.display.toList ++ ' ' :: details.toList) := named.unled _
        rw [parseServer_err (by simp) unled, parseErr_detailed error trailing]
  | info payload =>
    obtain ⟨json, rereads⟩ := rereads payload rfl
    refine ⟨"INFO " ++ json, ?written, ?read⟩
    case written => rw [ServerOp.display, rereads.printed, Option.map_some]
    case read =>
      have unled : Unled json.toList := by
        intro c first
        rw [Option.mem_def, rereads.object] at first
        cases first
        rfl
      rw [parseServer_info (by simp) unled, parseInfo_printed rereads]
  | msg sid payload =>
    obtain ⟨identifier, trailing⟩ := wire
    refine ⟨_, rfl, ?read⟩
    case read =>
      have unled : Unled (sid.toList ++ ' ' :: payload.toList) :=
        (isIdentifier_token identifier).unled _
      rw [parseServer_msg (by simp) unled, parseMsg_addressed identifier trailing]

/-- An `INFO` body whose label holds delimiters. -/
def labelledInfo : InfoPayload where
  version := "1.0"
  serverId := "gateway"
  uuids := ⟨"a1", "b2", none⟩
  systemLabel := "MSG 1 left"

def labelledJson : String :=
  "\x7b\"version\":\"1.0\",\"server_id\":\"gateway\"," ++
    "\"uuids\":\x7b\"system\":\"a1\",\"service\":\"b2\"\x7d," ++
    "\"system_label\":\"MSG 1 left\"\x7d"

/-- `serde_json` on that body alone. -/
def labelledCrates : InfoCrates where
  infoPrint payload := if payload = labelledInfo then some labelledJson else none
  infoParse text := if text = labelledJson then .ok labelledInfo else .error "expected value"

theorem labelledInfo_rereads : labelledCrates.Rereads labelledInfo labelledJson := by
  refine ⟨?printed, by decide +kernel, ?parsed⟩
  case printed => simp only [labelledCrates, ↓reduceIte]
  case parsed => simp only [labelledCrates, ↓reduceIte]

theorem labelledInfo_reread :
    ∃ frame, (ServerOp.info labelledInfo).display labelledCrates = some frame ∧
    parseServer labelledCrates frame = .ok (.info labelledInfo) := by
  apply parseServer_display labelledCrates (.info labelledInfo) trivial
  intro payload same
  cases same
  exact ⟨labelledJson, labelledInfo_rereads⟩

end OaGateway.Owp
