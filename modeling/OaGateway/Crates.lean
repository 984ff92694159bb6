import OaGateway.Lib.Json
import OaGateway.Lib.Utf8
import OaGateway.Lib.Xml.Tree

/-! What the gateway takes from crates outside its own repository. The model
is stated over any such functions; what it needs of them stands in the results. -/
namespace OaGateway

open Lib

structure Crates where
  /-- `serde_json::from_str` into a `Value`, with the text of its error. -/
  jsonParse : String → Except String Json.Value
  /-- `serde_json::to_string`, which is also how a `Value` displays. -/
  jsonPrint : Json.Value → String
  /-- How `serde_json` writes a finite double. -/
  floatPrint : F64 → String
  /-- How `format!` writes a double. -/
  floatDisplay : F64 → String
  /-- `roxmltree::Document::parse`, down to its root element. -/
  xmlParse : String → Except String Xml.Node
  /-- `regex::Regex::new`, as the matcher it compiles to. -/
  regex : String → Option (String → Bool)
  /-- `hex::encode_upper`. -/
  hexUpper : Bytes → String

namespace Crates

/-- `Number`'s display. -/
def numberPrint (crates : Crates) : Json.Number → String
  | .posInt value => toString value.toNat
  | .negInt value => toString value.toInt
  | .float value => crates.floatPrint value

/-- `hex::encode_upper` writes what its documentation says. -/
def WritesHex (crates : Crates) : Prop := ∀ bytes, crates.hexUpper bytes = upperHex bytes

end Crates

/-- Crates that parse and print nothing. -/
def Uci.bareCrates : Crates where
  jsonParse _ := .error "expected value"
  jsonPrint _ := ""
  floatPrint _ := ""
  floatDisplay _ := ""
  xmlParse _ := .error "unknown token"
  regex _ := none
  hexUpper := upperHex

end OaGateway
