import OaGateway.Agra.Wrapper
import OaGateway.Uci.Payload

/-! JSON and XML at the socket, with the hexBinary payload of a wrapper. -/
namespace OaGateway.Owp

open Lib Lib.Json OaGateway.Core

section Hex

def hexNibble (b : UInt8) : Except String UInt8 :=
  match Agra.nibble b with
  | some value => .ok value
  | none => .error ("EncodedPayload is not hexBinary: invalid character " ++ Agra.charDebug b)

/-- Pairs of digits, an even number of them. -/
def decodePairs : Bytes → Except String Bytes
  | high :: low :: rest => do
    let hi ← hexNibble high
    let lo ← hexNibble low
    let out ← decodePairs rest
    return ((hi <<< 4) ||| lo) :: out
  | _ => .ok []

/-- Decode hexBinary; here the digits are counted before any is read. -/
def decodeHex (text : String) : Except String Bytes :=
  let digits := (utf8 text).filter fun b => !Agra.isAsciiWhitespace b
  if digits.length % 2 ≠ 0 then .error "EncodedPayload is not hexBinary: odd number of digits"
  else decodePairs digits

def encodeHexUpper (bytes : Bytes) : String :=
  let digit (n : Nat) : Char := if n < 10 then Char.ofNat (48 + n) else Char.ofNat (55 + n)
  .ofList (bytes.flatMap fun b => [digit (b.toNat / 16), digit (b.toNat % 16)])

end Hex

section
variable (crates : Crates)

def violationsOf (payload : Bytes) (schema : Option Uci.Schema) (mode : Uci.Mode) :
    List Uci.Violation :=
  Uci.payloadViolations crates payload schema mode

/-- Replace one member of an object in place. -/
def setMember (value : Value) (key : String) (member : Value) : Value :=
  match value with
  | .object members =>
    .object (members.map fun entry => if entry.1 = key then (key, member) else entry)
  | other => other

def uciFailure {Result : Type} : Except Uci.UciError Result → Except String Result
  | .ok result => .ok result
  | .error error => .error error.display

/-- Convert the hexBinary payload of a wrapper to the format asked for. JSON
that is no wrapper, or has no such payload, is returned unchanged. -/
def transcodeWrapperInner (text : String) (schema : Uci.Schema) (wantXml : Bool) :
    Except String String :=
  match crates.jsonParse text with
  | .error message => .error message
  | .ok root =>
    match root.asObject with
    | some [(name, body)] =>
      if name ≠ Agra.rxElement ∧ name ≠ Agra.txElement then .ok text
      else match (body.get "MessageData").bind fun data =>
          (data.get "EncodedPayload").map fun hex => (data, hex) with
        | none => .ok text
        | some (data, encoded) =>
          match encoded.asStr with
          | none => .ok text
          | some hex => do
            let innerBytes ← decodeHex hex
            match fromUtf8 innerBytes with
            | none => .error (utf8ErrorText innerBytes)
            | some inner =>
              let innerIsXml := (trimStart inner.toList).head? == some '<'
              if wantXml == innerIsXml then return text
              else
                let converted ←
                  if wantXml then do
                    let message ← uciFailure (Uci.fromJson crates schema inner)
                    uciFailure (Uci.toXml crates schema message)
                  else do
                    let message ← uciFailure (Uci.fromXml crates schema inner)
                    uciFailure (Uci.toJson crates schema message)
                let payload := Value.string (encodeHexUpper (utf8 converted))
                let changed := setMember body "MessageData"
                  (setMember data "EncodedPayload" payload)
                return crates.jsonPrint (.object [(name, changed)])
    | _ => .ok text

/-- Convert an envelope to UCI XML when it is OMS JSON. -/
def towardXml (envelope : Envelope) (schema : Uci.Schema) : Except String Envelope :=
  if Uci.looksLikeXml envelope.payload then .ok { envelope with contentType := .xml }
  else match fromUtf8 envelope.payload with
    | none => .error (utf8ErrorText envelope.payload)
    | some text => do
      let text ← transcodeWrapperInner crates text schema true
      let message ← uciFailure (Uci.fromJson crates schema text)
      let xml ← uciFailure (Uci.toXml crates schema message)
      return { envelope with
        route := { envelope.route with typeHint := some message.name }
        payload := utf8 xml
        contentType := .xml }

/-- Convert what the engine carried in XML to the OMS JSON a client asked for. -/
def xmlToOmsJson (raw : String) (schema : Option Uci.Schema) : Except String String :=
  if !Uci.looksLikeXml (utf8 raw) then .ok raw
  else match schema with
    | none => .error "no UCI schema is loaded"
    | some schema => do
      let message ← uciFailure (Uci.fromXml crates schema raw)
      let json ← uciFailure (Uci.toJson crates schema message)
      transcodeWrapperInner crates json schema false

end

end OaGateway.Owp
