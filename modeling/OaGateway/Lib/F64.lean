import Mathlib.Algebra.Group.Nat.Defs
import Mathlib.Data.Nat.Log

/-! IEEE 754 binary64 as bit patterns: reading decimal text, and comparing. -/
namespace OaGateway.Lib

structure F64 where
  bits : UInt64
deriving DecidableEq, Repr

namespace F64

def negative (value : F64) : Bool := value.bits >>> 63 == 1

/-- The bits without the sign; ordered like the magnitudes they stand for. -/
def magnitude (value : F64) : Nat := value.bits.toNat % 2 ^ 63

/-- The magnitude of infinity. Above it are the not-a-numbers. -/
def infinity : Nat := 0x7FF * 2 ^ 52

def isNan (value : F64) : Bool := infinity < value.magnitude

def isFinite (value : F64) : Bool := value.magnitude < infinity

/-- Position on the number line; both zeros are at zero. -/
def rank (value : F64) : Int := if value.negative then -value.magnitude else value.magnitude

def lt (first second : F64) : Bool := !first.isNan && !second.isNan && first.rank < second.rank

def le (first second : F64) : Bool := !first.isNan && !second.isNan && first.rank ≤ second.rank

def beq (first second : F64) : Bool := !first.isNan && !second.isNan && first.rank == second.rank

/-- `f64::max`: the other operand when one is not a number. -/
def max (first second : F64) : F64 :=
  if first.isNan then second else if second.isNan then first
    else if lt first second then second else first

def min (first second : F64) : F64 :=
  if first.isNan then second else if second.isNan then first
    else if lt second first then second else first

def ofMagnitude (negative : Bool) (magnitude : Nat) : F64 :=
  ⟨.ofNat (magnitude + if negative then 2 ^ 63 else 0)⟩

/-- `numerator / denominator` in units of `2 ^ (shift - 1074)`, to the nearest
whole number, halves to even. -/
def roundUnits (numerator denominator shift : Nat) : Nat :=
  let unit := denominator * 2 ^ shift
  let scaled := numerator * 2 ^ 1074
  let below := scaled / unit
  let rest := scaled % unit
  if 2 * rest < unit then below
  else if 2 * rest > unit then below + 1
  else below + below % 2

/-- The magnitude nearest to `numerator / denominator`. The significand is
rounded at the exponent that leaves it 53 bits, or at the least exponent. -/
def nearest (numerator denominator : Nat) : Nat :=
  let whole := numerator * 2 ^ 1074 / denominator
  let shift := Nat.log2 whole - 52
  let significand := roundUnits numerator denominator shift
  -- Rounding up to 2 ^ 53 carries into the exponent field by itself.
  Nat.min infinity (significand + shift * 2 ^ 52)

/-- The digits at the front of `text`, and what follows them. -/
def digits (text : List Char) : List Char × List Char := text.span Char.isDigit

def ofDigits (digits : List Char) : Nat :=
  digits.foldl (fun number digit => 10 * number + (digit.toNat - '0'.toNat)) 0

/-- An exponent part, if `text` is one or is empty. -/
def exponent : List Char → Option Int
  | [] => some 0
  | mark :: text =>
    if mark = 'e' ∨ mark = 'E' then
      let (negative, text) := match text with
        | '-' :: rest => (true, rest)
        | '+' :: rest => (false, rest)
        | rest => (false, rest)
      if text.isEmpty || !text.all Char.isDigit then none
      else some (if negative then -(ofDigits text : Int) else ofDigits text)
    else none

/-- Digits with an optional fraction and exponent, as a magnitude. -/
def decimal (text : List Char) : Option Nat :=
  let (whole, rest) := digits text
  let (fraction, rest) := match rest with
    | '.' :: rest => digits rest
    | rest => ([], rest)
  if whole.isEmpty && fraction.isEmpty then none
  else (exponent rest).map fun power =>
    let number := ofDigits (whole ++ fraction)
    let power : Int := power - (fraction.length : Int)
    nearest (number * 10 ^ power.toNat) (10 ^ (-power).toNat)

/-- `str::parse::<f64>`. -/
def parse (text : String) : Option F64 :=
  let (negative, body) := match text.toList with
    | '-' :: rest => (true, rest)
    | '+' :: rest => (false, rest)
    | rest => (false, rest)
  let word := body.map Char.toLower
  if word = "inf".toList ∨ word = "infinity".toList then some (ofMagnitude negative infinity)
  else if word = "nan".toList then some (ofMagnitude negative (infinity + 2 ^ 51))
  else (decimal body).map (ofMagnitude negative)

section Bounds
variable {first second : F64}

/-- A place in the order of numbers. -/
def Ordered (value : F64) : Prop := value.isNan = false

theorem max_cases (known : first.Ordered) (also : second.Ordered) :
    max first second = first ∧ second.rank ≤ first.rank ∨ max first second = second ∧
      first.rank ≤ second.rank := by
  rw [Ordered] at known also
  simp only [max, known, also, lt, Bool.false_eq_true, if_false, Bool.not_false, Bool.true_and,
    decide_eq_true_eq]
  split
  · exact .inr ⟨rfl, by omega⟩
  · exact .inl ⟨rfl, by omega⟩

theorem min_cases (known : first.Ordered) (also : second.Ordered) :
    min first second = first ∧ first.rank ≤ second.rank ∨ min first second = second ∧
      second.rank ≤ first.rank := by
  rw [Ordered] at known also
  simp only [min, known, also, lt, Bool.false_eq_true, if_false, Bool.not_false, Bool.true_and,
    decide_eq_true_eq]
  split
  · exact .inr ⟨rfl, by omega⟩
  · exact .inl ⟨rfl, by omega⟩

theorem Ordered.max (known : first.Ordered) (also : second.Ordered) :
    (max first second).Ordered := by
  rcases max_cases known also with ⟨same, -⟩ | ⟨same, -⟩
  · rwa [same]
  · rwa [same]

theorem Ordered.min (known : first.Ordered) (also : second.Ordered) :
    (min first second).Ordered := by
  rcases min_cases known also with ⟨same, -⟩ | ⟨same, -⟩
  · rwa [same]
  · rwa [same]

theorem lt_eq_false (number : F64) (known : first.Ordered) :
    lt number first = false ↔ number.isNan = false → first.rank ≤ number.rank := by
  rw [Ordered] at known
  cases nan : number.isNan <;> simp [lt, known, nan]

theorem gt_eq_false (number : F64) (known : first.Ordered) :
    lt first number = false ↔ number.isNan = false → number.rank ≤ first.rank := by
  rw [Ordered] at known
  cases nan : number.isNan <;> simp [lt, known, nan]

theorem le_eq_false (number : F64) (known : first.Ordered) :
    le number first = false ↔ number.isNan = false → first.rank < number.rank := by
  rw [Ordered] at known
  cases nan : number.isNan <;> simp [le, known, nan]

theorem ge_eq_false (number : F64) (known : first.Ordered) :
    le first number = false ↔ number.isNan = false → number.rank < first.rank := by
  rw [Ordered] at known
  cases nan : number.isNan <;> simp [le, known, nan]

/-- Below the larger of two bounds is below one of them. -/
theorem lt_max_eq_false (number : F64) (known : first.Ordered) (also : second.Ordered) :
    lt number (max first second) = false ↔ lt number first = false ∧ lt number second = false := by
  rw [lt_eq_false number known, lt_eq_false number also, lt_eq_false number (known.max also)]
  rcases max_cases known also with ⟨same, below⟩ | ⟨same, below⟩ <;> rw [same] <;> grind

theorem le_max_eq_false (number : F64) (known : first.Ordered) (also : second.Ordered) :
    le number (max first second) = false ↔ le number first = false ∧ le number second = false := by
  rw [le_eq_false number known, le_eq_false number also, le_eq_false number (known.max also)]
  rcases max_cases known also with ⟨same, below⟩ | ⟨same, below⟩ <;> rw [same] <;> grind

theorem min_lt_eq_false (number : F64) (known : first.Ordered) (also : second.Ordered) :
    lt (min first second) number = false ↔ lt first number = false ∧ lt second number = false := by
  rw [gt_eq_false number known, gt_eq_false number also, gt_eq_false number (known.min also)]
  rcases min_cases known also with ⟨same, below⟩ | ⟨same, below⟩ <;> rw [same] <;> grind

theorem min_le_eq_false (number : F64) (known : first.Ordered) (also : second.Ordered) :
    le (min first second) number = false ↔ le first number = false ∧ le second number = false := by
  rw [ge_eq_false number known, ge_eq_false number also, ge_eq_false number (known.min also)]
  rcases min_cases known also with ⟨same, below⟩ | ⟨same, below⟩ <;> rw [same] <;> grind

end Bounds

end F64

end OaGateway.Lib
