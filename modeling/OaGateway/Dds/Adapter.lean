import OaGateway.Agra.Wrapper
import OaGateway.Uci.Payload

/-! Inbound samples of the DDS edge on their way to the engine. -/
namespace OaGateway.Dds

open Lib OaGateway.Core

structure DdsConfig where
  unwrapMaPayloads : Bool
  maxSampleSize : Nat
  schema : Option Uci.Schema
  validate : Uci.Mode

structure DdsAdapter where
  id : AdapterId
  config : DdsConfig

structure DdsSample where
  info : Agra.WrapperMeta
  encoded : Bytes

section
variable (crates : Crates) (adapter : DdsAdapter)

def violationsOf (payload : Bytes) (schema : Option Uci.Schema) (mode : Uci.Mode) :
    List Uci.Violation :=
  Uci.payloadViolations crates payload schema mode

/-- The envelope handed to the engine, unless its payload is refused. -/
def publishChecked (envelope : Envelope) : Option Envelope :=
  if violationsOf crates envelope.payload adapter.config.schema adapter.config.validate ≠ [] ∧
      adapter.config.validate = .reject then none
  else some envelope

/-- What one sample hands to the engine. An oversized one is dropped. -/
def inboundPublish (ids : MessageId × MessageId) (topic : String) (sample : DdsSample) :
    Except String (List Envelope) :=
  if sample.encoded.length > adapter.config.maxSampleSize then .ok []
  else if adapter.config.unwrapMaPayloads then
    match Agra.unwrappedFromParts crates ids topic sample.info sample.encoded with
    | .error error => .error error.display
    | .ok peeled =>
      .ok ((publishChecked crates adapter (peeled.wrapper.withOrigin adapter.id)).toList ++
        (publishChecked crates adapter (peeled.inner.withOrigin adapter.id)).toList)
  else
    let envelope := Envelope.new ids.1 (.typed topic sample.info.kind.elementName) sample.encoded
    .ok (publishChecked crates adapter (envelope.withOrigin adapter.id)).toList

end

end OaGateway.Dds
