import Mathlib.Data.String.Basic
import OaGateway.Lib.F64
import OaGateway.Lib.OrdMap

/-! JSON values as a parser hands them over. -/
namespace OaGateway.Lib.Json

/-- A number: unsigned, negative, or a finite double. -/
inductive Number where
  | posInt (value : UInt64)
  | negInt (value : Int64)
  | float (value : F64)
deriving DecidableEq, Repr

namespace Number

/-- The number of an `i64`. -/
def ofI64 (value : Int) : Number :=
  if 0 ≤ value then .posInt (.ofNat value.toNat) else .negInt (.ofInt value)

def ofU64 (value : Nat) : Number := .posInt (.ofNat value)

/-- Only a finite double is a JSON number. -/
def fromF64 (value : F64) : Option Number := if value.isFinite then some (.float value) else none

end Number

/-- A value. The members of an object come in key order, each key once. -/
inductive Value where
  | null
  | bool (value : Bool)
  | number (value : Number)
  | string (value : String)
  | array (items : List Value)
  | object (members : List (String × Value))

namespace Value

def asObject : Value → Option (List (String × Value))
  | object members => some members
  | _ => none

def asStr : Value → Option String
  | string value => some value
  | _ => none

/-- The value of one member. -/
def get (value : Value) (key : String) : Option Value :=
  value.asObject.bind fun members => (members.find? fun entry => entry.1 == key).map Prod.snd

/-- The members of every object are in key order, each key once. -/
inductive Sorted : Value → Prop where
  | null : Sorted .null
  | bool : Sorted (.bool value)
  | number : Sorted (.number value)
  | string : Sorted (.string value)
  | array (each : ∀ item ∈ items, Sorted item) : Sorted (.array items)
  | object (increasing : Increasing members) (each : ∀ member ∈ members, Sorted member.2) :
      Sorted (.object members)

theorem Sorted.single (sorted : Sorted value) : Sorted (.object [(key, value)]) := by
  refine .object (List.pairwise_singleton _ _) fun member inside => ?_
  cases List.mem_singleton.mp inside
  exact sorted

/-- Arrays and objects nest at most this deep. -/
def within : Nat → Value → Bool
  | _, null | _, bool _ | _, number _ | _, string _ => true
  | 0, array _ | 0, object _ => false
  | levels + 1, array items => items.all (within levels)
  | levels + 1, object members => members.all fun member => within levels member.2

end Value

end OaGateway.Lib.Json
