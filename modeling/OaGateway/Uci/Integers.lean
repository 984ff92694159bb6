import OaGateway.Uci.Leaves

/-! The integer primitives, each with its value space, and the numerals that are
taken for them. -/
namespace OaGateway.Uci.Primitive

open Lib

/-- The integer types `kind` names. -/
inductive IntegerType where
  | byte
  | short
  | int
  | long
  | unsignedByte
  | unsignedShort
  | unsignedInt
  | unsignedLong
  | nonNegativeInteger
  | positiveInteger
  | nonPositiveInteger
  | negativeInteger
  | integer
deriving DecidableEq

namespace IntegerType

def name : IntegerType → String
  | byte => "xs:byte"
  | short => "xs:short"
  | int => "xs:int"
  | long => "xs:long"
  | unsignedByte => "xs:unsignedByte"
  | unsignedShort => "xs:unsignedShort"
  | unsignedInt => "xs:unsignedInt"
  | unsignedLong => "xs:unsignedLong"
  | nonNegativeInteger => "xs:nonNegativeInteger"
  | positiveInteger => "xs:positiveInteger"
  | nonPositiveInteger => "xs:nonPositiveInteger"
  | negativeInteger => "xs:negativeInteger"
  | integer => "xs:integer"

/-- The least and the greatest value of a type, as XSD 1.0 has them. -/
def space : IntegerType → Option Int × Option Int
  | byte => (some (-2 ^ 7), some (2 ^ 7 - 1))
  | short => (some (-2 ^ 15), some (2 ^ 15 - 1))
  | int => (some (-2 ^ 31), some (2 ^ 31 - 1))
  | long => (some (-2 ^ 63), some (2 ^ 63 - 1))
  | unsignedByte => (some 0, some (2 ^ 8 - 1))
  | unsignedShort => (some 0, some (2 ^ 16 - 1))
  | unsignedInt => (some 0, some (2 ^ 32 - 1))
  | unsignedLong => (some 0, some (2 ^ 64 - 1))
  | nonNegativeInteger => (some 0, none)
  | positiveInteger => (some 1, none)
  | nonPositiveInteger => (none, some 0)
  | negativeInteger => (none, some (-1))
  | integer => (none, none)

def holds (type : IntegerType) (value : Int) : Prop :=
  (∀ least ∈ type.space.1, least ≤ value) ∧ ∀ greatest ∈ type.space.2, value ≤ greatest

/-- Bounded on one side only. -/
def halfBounded (type : IntegerType) : Bool := type.space.1.isSome != type.space.2.isSome

theorem kind_name (type : IntegerType) :
    kind type.name = .integer (type.space.1.getD i128Min) (type.space.2.getD i128Max) := by
  cases type <;> rfl

/-- A bound that is given is a number of 128 bits. -/
theorem space_within (type : IntegerType) :
    (∀ least ∈ type.space.1, i128Min < least ∧ least ≤ i128Max) ∧
      ∀ greatest ∈ type.space.2, i128Min ≤ greatest ∧ greatest < i128Max := by
  cases type <;> decide

end IntegerType

/-- A numeral is taken when its value is a number of 128 bits between the bounds,
or when these are the widest. -/
theorem refuses_eq_none {min max : Int} {text : String} :
    refuses (.integer min max) text = none ↔
      isNumeral text.toList = true ∧
        ((i128Min ≤ numeralValue text.toList ∧ numeralValue text.toList ≤ i128Max) ∧
            min ≤ numeralValue text.toList ∧ numeralValue text.toList ≤ max ∨
          min = i128Min ∧ max = i128Max) := by
  rw [refuses, integral_eq]
  cases numeral : isNumeral text.toList with
  | false => simp
  | true =>
    have parsed : ((parseI128 text).any fun value => min ≤ value && value ≤ max) = true ↔
        (i128Min ≤ numeralValue text.toList ∧ numeralValue text.toList ≤ i128Max) ∧
          min ≤ numeralValue text.toList ∧ numeralValue text.toList ≤ max := by
      rw [Option.any_eq_true]
      constructor
      · rintro ⟨value, read, inside⟩
        obtain ⟨-, -, rfl, lower, upper⟩ := parseInteger_eq_some.mp read
        exact ⟨⟨lower, upper⟩, by simpa using inside⟩
      · rintro ⟨⟨lower, upper⟩, inside⟩
        have read : parseI128 text = some (numeralValue text.toList) :=
          parseInteger_eq_some.mpr ⟨numeral, fun _ => by decide, rfl, lower, upper⟩
        exact ⟨_, read, by simpa using inside⟩
    simp only [Bool.not_true, Bool.false_eq_true, ↓reduceIte, true_and]
    by_cases within : ((parseI128 text).any fun value => min ≤ value && value ≤ max) = true
    · rw [if_pos within]
      simp [parsed.mp within]
    · rw [if_neg within]
      simp [mt parsed.mpr within]

/-- The numerals that are taken are those whose value the type has. -/
def Exact (type : IntegerType) (text : String) : Prop :=
  refuses (kind type.name) text = none ↔ isNumeral text.toList = true ∧
    type.holds (numeralValue text.toList)

/-- The value of a numeral on the open side of its type, past 128 bits. -/
def Beyond (type : IntegerType) (text : String) : Prop :=
  type.halfBounded = true ∧ isNumeral text.toList = true ∧ type.holds (numeralValue text.toList) ∧
    ¬ (i128Min ≤ numeralValue text.toList ∧ numeralValue text.toList ≤ i128Max)

/-- A type with both bounds, or with none, is checked exactly at any size. One
with a single bound is not where the value is past 128 bits. -/
theorem exact_iff (type : IntegerType) (text : String) : Exact type text ↔ ¬ Beyond type text := by
  obtain ⟨lower, upper⟩ := type.space_within
  rw [Exact, Beyond, type.kind_name, refuses_eq_none, IntegerType.holds, IntegerType.halfBounded]
  cases isNumeral text.toList with
  | false => simp
  | true =>
    generalize numeralValue text.toList = value
    generalize type.space = space at lower upper ⊢
    rcases space with ⟨_ | least, _ | greatest⟩
    · simp
    · have bounds := upper greatest rfl
      simp
      omega
    · have bounds := lower least rfl
      simp
      omega
    · have above := lower least rfl
      have below := upper greatest rfl
      simp
      omega

/-- Two to the power of 127: a value of the type, and refused. -/
def largeText : String := "170141183460469231731687303715884105728"

theorem large_refused :
    refuses (kind "xs:nonNegativeInteger") largeText =
        some "between 0 and 170141183460469231731687303715884105727" ∧
      ¬ Exact .nonNegativeInteger largeText := by
  have refused : refuses (kind "xs:nonNegativeInteger") largeText =
      some "between 0 and 170141183460469231731687303715884105727" := by decide +kernel
  have numeral : isNumeral largeText.toList = true := by decide +kernel
  have positive : 0 ≤ numeralValue largeText.toList := by decide +kernel
  refine ⟨refused, fun exact => ?_⟩
  have taken := exact.mpr ⟨numeral, by simpa [IntegerType.holds, IntegerType.space] using positive⟩
  cases refused.symm.trans taken

end OaGateway.Uci.Primitive
