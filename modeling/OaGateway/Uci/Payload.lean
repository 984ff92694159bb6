import OaGateway.Uci.Validate
import OaGateway.Uci.Xml

/-! Payload bytes at an adapter's edge: which reader they go to, and what the
schema has to say about them. -/
namespace OaGateway.Uci

open Lib

/-- UTF-8 whose first character after white space is `<`. -/
def looksLikeXml (bytes : Bytes) : Bool :=
  (fromUtf8 bytes).any fun text => (trimStart text.toList).head? == some '<'

section
variable (crates : Crates)

/-- The message some text holds, by the reader it looks to be for. -/
def readText (schema : Schema) (text : String) : Except UciError Message :=
  if looksLikeXml (utf8 text) then fromXml crates schema text else fromJson crates schema text

/-- The body of `violations_of`, which two adapters share: nothing is reported
of a payload that is not UTF-8 or does not parse. -/
def payloadViolations (payload : Bytes) (schema : Option Schema) (mode : Mode) : List Violation :=
  if !mode.isOn then []
  else match schema with
    | none => []
    | some schema =>
      match fromUtf8 payload with
      | none => []
      | some text =>
        match readText crates schema text with
        | .ok message => validate crates schema message
        | .error _ => []

def Accepted (schema : Schema) (payload : Bytes) : Prop :=
  ∃ text message, fromUtf8 payload = some text ∧ readText crates schema text = .ok message

def Valid (schema : Schema) (payload : Bytes) : Prop :=
  ∃ text message, fromUtf8 payload = some text ∧ readText crates schema text = .ok message ∧
    validate crates schema message = []

end

variable {crates : Crates} {schema : Schema} {payload : Bytes}

theorem Valid.accepted (valid : Valid crates schema payload) : Accepted crates schema payload := by
  obtain ⟨text, message, decoded, read, -⟩ := valid
  exact ⟨text, message, decoded, read⟩

/-- Nothing is reported of a payload that is valid, and of one that does not parse. -/
theorem payloadViolations_eq_nil_iff (on : mode.isOn = true) :
    payloadViolations crates payload (some schema) mode = [] ↔
      (Accepted crates schema payload → Valid crates schema payload) := by
  rw [payloadViolations, on]
  cases decoded : fromUtf8 payload with
  | none => simp [Accepted, decoded]
  | some text =>
    cases read : readText crates schema text with
    | error error => simp [Accepted, decoded, read]
    | ok message => simp [Accepted, Valid, decoded, read]

theorem valid_iff_accepted (on : mode.isOn = true)
    (quiet : payloadViolations crates payload (some schema) mode = []) :
    Valid crates schema payload ↔ Accepted crates schema payload :=
  ⟨Valid.accepted, (payloadViolations_eq_nil_iff on).mp quiet⟩

end OaGateway.Uci
