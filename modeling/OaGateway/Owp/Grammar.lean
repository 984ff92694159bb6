import OaGateway.Owp.Tokens

/-! The commands a client may send, as a grammar over fields and rests of lines,
and that the parser reads exactly those. -/
namespace OaGateway.Owp

open Lib

section Commands
variable (crates : OwpCrates)

/-- A client frame and the operation it spells. -/
inductive Command : List Char → ClientOp → Prop where
  /-- `INIT` and a JSON body. -/
  | init (begins : Begins text "INIT".toList body) (given : body ≠ [])
      (parsed : crates.initParse (.ofList body) = .ok payload) (versions : payload.versions ≠ [])
      (service : isIdentifier payload.serviceId = true) : Command text (.init payload)
  /-- `PUB`, a topic, and all that follows the delimiters after it. -/
  | pub (begins : Begins text "PUB".toList rest) (field : Begins rest topic.toList payload.toList)
      (given : payload ≠ "") (named : isIdentifier topic = true) : Command text (.pub topic payload)
  /-- `SUB` and three fields, or four. -/
  | sub (fields : Fields text (("SUB" :: sid :: messageName :: topic :: group.toList).map
    String.toList))
      (numbered : isIdentifier sid = true) (named : isIdentifier topic = true)
      (grouped : ∀ name ∈ group, isIdentifier name = true) :
        Command text (.sub sid messageName topic group)
  /-- `UNSUB` and one field. -/
  | unsub (fields : Fields text ["UNSUB".toList, sid.toList]) (numbered : isIdentifier sid = true) :
      Command text (.unsub sid)

end Commands

section Fields

theorem tokenize_strings {max : Nat} {text : List Char} {tokens : List String}
    (room : tokens.length < max) :
    tokenize max text = tokens ↔ Fields text (tokens.map String.toList) := by
  have read := @tokenize_eq_iff max text (tokens.map String.toList) (by rwa [List.length_map])
  have same : (tokens.map String.toList).map String.ofList = tokens := by
    rw [List.map_map]
    exact List.map_id'' (fun token => String.ofList_toList) tokens
  rwa [same] at read

theorem fields_keyword {text rest keyword : List Char} {tokens : List (List Char)}
    (found : splitFirstToken text = some (keyword, rest)) : Fields text (keyword :: tokens) ↔
      Fields rest tokens := by
  rw [fields_cons, found]
  constructor
  · rintro ⟨same, split, fields⟩
    cases split
    exact fields
  · exact fun fields => ⟨rest, rfl, fields⟩

theorem refuseIdentifier_eq_none {op : String} {fields : List (String × String)} :
    refuseIdentifier op fields = none ↔ ∀ field ∈ fields, isIdentifier field.2 = true := by
  rw [refuseIdentifier, Option.map_eq_none_iff, List.find?_eq_none]
  constructor
  · intro passed field member
    simpa using passed field member
  · intro named field member
    simpa using named field member

end Fields

section Parsers
variable {crates : OwpCrates} {rest : List Char} {op : ClientOp}

theorem parseInit_eq_ok : parseInit crates rest = .ok op ↔
    ∃ payload, op = .init payload ∧ rest ≠ [] ∧ crates.initParse (.ofList rest) = .ok payload ∧
      payload.versions ≠ [] ∧ isIdentifier payload.serviceId = true := by
  rw [parseInit]
  constructor
  · intro parsed
    split at parsed
    · cases parsed
    rename_i given
    split at parsed
    · cases parsed
    rename_i payload read
    split at parsed
    · cases parsed
    rename_i versions
    split at parsed
    · cases parsed
    rename_i service
    cases parsed
    exact ⟨payload,
      rfl, by simpa using given, read, by simpa using versions, by simpa using service⟩
  · rintro ⟨payload, rfl, given, read, versions, service⟩
    simp [given, read, versions, service]

theorem parsePub_eq_ok : parsePub rest = .ok op ↔
    ∃ topic payload, op = .pub topic payload ∧ Begins rest topic.toList payload.toList ∧
      payload ≠ "" ∧ isIdentifier topic = true := by
  rw [parsePub]
  constructor
  · intro parsed
    split at parsed
    · cases parsed
    rename_i topic payload found
    split at parsed
    · cases parsed
    rename_i named
    split at parsed
    · cases parsed
    rename_i given
    cases parsed
    refine ⟨_, _, rfl, ?field, by simpa using given, by simpa using named⟩
    case field =>
      rw [String.toList_ofList, String.toList_ofList]
      exact splitFirstToken_eq_some.mp found
  · rintro ⟨topic, payload, rfl, field, given, named⟩
    simp [splitFirstToken_eq_some.mpr field, given, named]

theorem parseSub_eq_ok : parseSub rest = .ok op ↔
    ∃ sid messageName topic group, op = .sub sid messageName topic group ∧
      Fields rest ((sid :: messageName :: topic :: group.toList).map String.toList) ∧
      isIdentifier sid = true ∧ isIdentifier topic = true ∧
          ∀ name ∈ group, isIdentifier name = true := by
  rw [parseSub]
  constructor
  · intro parsed
    split at parsed
    case h_4 sid messageName topic found =>
      split at parsed
      · cases parsed
      rename_i named
      cases parsed
      rw [refuseIdentifier_eq_none] at named
      refine ⟨sid, messageName, topic, none, rfl, (tokenize_strings (by simp)).mp found,
        ?sid, ?topic, nofun⟩
      case sid => exact named ("sid", sid) (by simp)
      case topic => exact named ("topic", topic) (by simp)
    case h_5 sid messageName topic group found =>
      split at parsed
      · cases parsed
      rename_i named
      cases parsed
      rw [refuseIdentifier_eq_none] at named
      refine ⟨sid, messageName, topic, some group, rfl, (tokenize_strings (by simp)).mp found, ?sid,
        ?topic, ?group⟩
      case sid => exact named ("sid", sid) (by simp)
      case topic => exact named ("topic", topic) (by simp)
      case group =>
        rintro name ⟨⟩
        exact named ("group", group) (by simp)
    all_goals cases parsed
  · rintro ⟨sid, messageName, topic, group, rfl, fields, numbered, named, grouped⟩
    cases group with
    | none =>
      have accepted : refuseIdentifier "SUB" [("sid", sid), ("topic", topic)] = none := by
        rw [refuseIdentifier_eq_none]
        simp [numbered, named]
      have found := (@tokenize_strings 5 rest [sid, messageName, topic] (by simp)).mpr fields
      simp [found, accepted]
    | some group =>
      have accepted : refuseIdentifier "SUB" [("sid", sid), ("topic", topic), ("group", group)] =
          none := by
        rw [refuseIdentifier_eq_none]
        simp [numbered, named, grouped group rfl]
      have found := (@tokenize_strings 5 rest [sid, messageName, topic, group] (by simp)).mpr fields
      simp [found, accepted]

theorem parseUnsub_eq_ok : parseUnsub rest = .ok op ↔
    ∃ sid, op = .unsub sid ∧ Fields rest [sid.toList] ∧ isIdentifier sid = true := by
  rw [parseUnsub]
  constructor
  · intro parsed
    split at parsed
    case h_2 sid found =>
      split at parsed
      · cases parsed
      rename_i named
      cases parsed
      rw [refuseIdentifier_eq_none] at named
      exact ⟨sid, rfl, (tokenize_strings (by simp)).mp found, named ("sid", sid) (by simp)⟩
    all_goals cases parsed
  · rintro ⟨sid, rfl, fields, numbered⟩
    have accepted : refuseIdentifier "UNSUB" [("sid", sid)] = none := by
      rw [refuseIdentifier_eq_none]
      simp [numbered]
    have found := (@tokenize_strings 2 rest [sid] (by simp)).mpr fields
    simp [found, accepted]

end Parsers

section Whole
variable {crates : OwpCrates}

theorem Command.begins {text : List Char} {op : ClientOp} (command : Command crates text op) :
    ∃ keyword rest, splitFirstToken text = some (keyword, rest) := by
  cases command with
  | init begins => exact ⟨_, _, splitFirstToken_eq_some.mpr begins⟩
  | pub begins => exact ⟨_, _, splitFirstToken_eq_some.mpr begins⟩
  | sub fields =>
    obtain ⟨rest, split, _⟩ := fields_cons.mp fields
    exact ⟨_, _, split⟩
  | unsub fields =>
    obtain ⟨rest, split, _⟩ := fields_cons.mp fields
    exact ⟨_, _, split⟩

/-- The keyword of a command decides which body reads the rest. -/
theorem Command.body {text keyword rest : List Char} {op : ClientOp}
    (found : splitFirstToken text = some (keyword, rest)) (command : Command crates text op) :
    (keyword = "INIT".toList ∧ parseInit crates rest = .ok op) ∨
      (keyword = "PUB".toList ∧ parsePub rest = .ok op) ∨
      (keyword = "SUB".toList ∧ parseSub rest = .ok op) ∨
          (keyword = "UNSUB".toList ∧ parseUnsub rest = .ok op) := by
  cases command with
  | init begins given parsed versions service =>
    cases found.symm.trans (splitFirstToken_eq_some.mpr begins)
    exact .inl ⟨rfl, parseInit_eq_ok.mpr ⟨_, rfl, given, parsed, versions, service⟩⟩
  | pub begins field given named =>
    cases found.symm.trans (splitFirstToken_eq_some.mpr begins)
    exact .inr (.inl ⟨rfl, parsePub_eq_ok.mpr ⟨_, _, rfl, field, given, named⟩⟩)
  | sub fields numbered named grouped =>
    obtain ⟨later, split, more⟩ := fields_cons.mp fields
    cases found.symm.trans split
    exact .inr
      (.inr (.inl ⟨rfl, parseSub_eq_ok.mpr ⟨_, _, _, _, rfl, more, numbered, named, grouped⟩⟩))
  | unsub fields numbered =>
    obtain ⟨later, split, more⟩ := fields_cons.mp fields
    cases found.symm.trans split
    exact .inr (.inr (.inr ⟨rfl, parseUnsub_eq_ok.mpr ⟨_, rfl, more, numbered⟩⟩))

theorem parseClient_sound {frame : String} {op : ClientOp}
    (parsed : parseClient crates frame = .ok op) :
    Command crates frame.toList op := by
  rw [parseClient] at parsed
  split at parsed
  · cases parsed
  rename_i keyword rest found
  split at parsed
  case isTrue same =>
    subst same
    obtain ⟨payload, rfl, given, read, versions, service⟩ := parseInit_eq_ok.mp parsed
    exact .init (splitFirstToken_eq_some.mp found) given read versions service
  split at parsed
  case isTrue same =>
    subst same
    obtain ⟨topic, payload, rfl, field, given, named⟩ := parsePub_eq_ok.mp parsed
    exact .pub (splitFirstToken_eq_some.mp found) field given named
  split at parsed
  case isTrue same =>
    subst same
    obtain ⟨sid, messageName, topic, group, rfl, fields, numbered, named, grouped⟩ :=
      parseSub_eq_ok.mp parsed
    exact .sub ((fields_keyword found).mpr fields) numbered named grouped
  split at parsed
  case isTrue same =>
    subst same
    obtain ⟨sid, rfl, fields, numbered⟩ := parseUnsub_eq_ok.mp parsed
    exact .unsub ((fields_keyword found).mpr fields) numbered
  cases parsed

theorem parseClient_complete {frame : String} {op : ClientOp}
    (command : Command crates frame.toList op) :
    parseClient crates frame = .ok op := by
  obtain ⟨keyword, rest, found⟩ := command.begins
  rw [parseClient, found]
  obtain ⟨rfl, parsed⟩ | ⟨rfl, parsed⟩ | ⟨rfl, parsed⟩ | ⟨rfl, parsed⟩ := command.body found
  · exact parsed
  · exact parsed
  · exact parsed
  · exact parsed

end Whole

/-- Both slices of the scan fall between characters, so it never panics; a frame
parses to an operation exactly when it is a command that spells it, and is an error
otherwise. -/
theorem parseClient_grammar (crates : OwpCrates) :
    (∀ text, sliceFirstToken text = (splitFirstToken text.toList).map fun split =>
      (some (.ofList split.1), some (.ofList split.2))) ∧
    ∀ frame, (∀ op, parseClient crates frame = .ok op ↔ Command crates frame.toList op) ∧
      ((∃ error, parseClient crates frame = .error error) ↔
          ∀ op, ¬ Command crates frame.toList op) := by
  have exact (frame : String) (op : ClientOp) : parseClient crates frame = .ok op ↔
    Command crates frame.toList op :=
    ⟨parseClient_sound, parseClient_complete⟩
  refine ⟨sliceFirstToken_eq, fun frame => ⟨exact frame, ?refused⟩⟩
  constructor
  · rintro ⟨error, refused⟩ op command
    rw [parseClient_complete command] at refused
    cases refused
  · intro none
    cases parsed : parseClient crates frame with
    | error error => exact ⟨error, rfl⟩
    | ok op => exact absurd (parseClient_sound parsed) (none op)

end OaGateway.Owp
