import Mathlib.Data.List.TakeDrop
import Mathlib.Data.List.TakeWhile
import OaGateway.Lib.F64
import OaGateway.Lib.Language
import OaGateway.Lib.Text

/-! Whole numbers in decimal: what a signed run of digits stands for, and which
of the parsers reads it. -/
namespace OaGateway.Lib

/-- The text starts with a minus. -/
def isNegative : List Char → Bool
  | '-' :: _ => true
  | _ => false

/-- The text without its sign. -/
def unsigned : List Char → List Char
  | '-' :: rest => rest
  | '+' :: rest => rest
  | rest => rest

/-- Digits with an optional sign. -/
def isNumeral (text : List Char) : Bool :=
  !(unsigned text).isEmpty && (unsigned text).all Char.isDigit

/-- The number a numeral stands for. -/
def numeralValue (text : List Char) : Int :=
  if isNegative text then -(Nat.ofDigitChars 10 (unsigned text) 0 : Int)
  else Nat.ofDigitChars 10 (unsigned text) 0

theorem parseDigits_eq (text : List Char) :
    parseDigits text =
      if !text.isEmpty && text.all Char.isDigit then some (Nat.ofDigitChars 10 text 0)
          else none := by
  rw [parseDigits]
  cases text.isEmpty <;> cases text.all Char.isDigit <;> rfl

/-- A hexadecimal digit that no number is written with, whatever its notation. -/
def isForeign (c : Char) : Bool := c == 'b' || c == 'B' || c == 'c' || c == 'C'

theorem isForeign_cases {c : Char} (foreign : isForeign c = true) : c = 'b' ∨ c = 'B' ∨
    c = 'c' ∨ c = 'C' := by
  simp only [isForeign, Bool.or_eq_true, beq_iff_eq] at foreign
  tauto

theorem not_isDigit_of_isForeign {c : Char} (foreign : isForeign c = true) : c.isDigit = false := by
  rcases isForeign_cases foreign with rfl | rfl | rfl | rfl <;> rfl

theorem mem_unsigned {text : List Char} (foreign : isForeign c = true) (member : c ∈ text) :
    c ∈ unsigned text := by
  unfold unsigned
  split
  · rcases List.mem_cons.mp member with rfl | later
    · cases foreign
    · exact later
  · rcases List.mem_cons.mp member with rfl | later
    · cases foreign
    · exact later
  · exact member

/-- A parser reads the numerals of its range; only a signed one reads a minus. -/
theorem parseInteger_eq_some {min max value : Int} {text : String} :
    parseInteger min max text = some value ↔
      isNumeral text.toList = true ∧ (isNegative text.toList = true → min < 0) ∧
        numeralValue text.toList = value ∧ min ≤ value ∧ value ≤ max := by
  have bounded (found : Option Int) :
      (found.filter fun number => decide (min ≤ number ∧ number ≤ max)) = some value ↔
        found = some value ∧ min ≤ value ∧ value ≤ max := by
    rw [Option.filter_eq_some_iff, decide_eq_true_eq]
  rw [parseInteger, bounded]
  split
  · rename_i rest same
    have sign : isNegative text.toList = false := by rw [same]; rfl
    have bare : unsigned text.toList = rest := by rw [same]; rfl
    rw [isNumeral, numeralValue, sign, bare, parseDigits_eq]
    split <;> simp_all
  · rename_i rest same
    have sign : isNegative text.toList = true := by rw [same]; rfl
    have bare : unsigned text.toList = rest := by rw [same]; rfl
    rw [isNumeral, numeralValue, sign, bare, parseDigits_eq]
    by_cases signed : min < 0
    · cases !rest.isEmpty && rest.all Char.isDigit <;> simp [signed]
    · simp [signed]
  · rename_i plus minus
    have sign : isNegative text.toList = false := by
      unfold isNegative
      split <;> simp_all
    have bare : unsigned text.toList = text.toList := by
      unfold unsigned
      split <;> simp_all
    rw [isNumeral, numeralValue, sign, bare, parseDigits_eq]
    split <;> simp_all

theorem parseInteger_foreign {min max : Int} {text : String} (foreign : isForeign c = true)
    (member : c ∈ text.toList) : parseInteger min max text = none := by
  refine Option.eq_none_iff_forall_ne_some.mpr fun value read => ?_
  have numeral := (parseInteger_eq_some.mp read).1
  simp only [isNumeral, Bool.and_eq_true, List.all_eq_true] at numeral
  have digit := numeral.2 c (mem_unsigned foreign member)
  rw [not_isDigit_of_isForeign foreign] at digit
  cases digit

private theorem isDigit_toDigits (number : Nat) : ∀ c ∈ Nat.toDigits 10 number, c.isDigit = true :=
  fun _ member => Nat.isDigit_of_mem_toDigits (by decide) (by decide) member

/-- What an unsigned number is written as is a numeral for it. -/
theorem numeral_toDigits (number : Nat) :
    isNumeral (Nat.toDigits 10 number) = true ∧ isNegative (Nat.toDigits 10 number) = false ∧
      numeralValue (Nat.toDigits 10 number) = number := by
  have digits := isDigit_toDigits number
  have sign : isNegative (Nat.toDigits 10 number) = false := by
    unfold isNegative
    split
    · rename_i rest same
      exact absurd (digits '-' (by simp [same])) (by decide)
    · rfl
  have bare : unsigned (Nat.toDigits 10 number) = Nat.toDigits 10 number := by
    unfold unsigned
    split
    · rename_i rest same
      exact absurd (digits '-' (by simp [same])) (by decide)
    · rename_i rest same
      exact absurd (digits '+' (by simp [same])) (by decide)
    · rfl
  refine ⟨?_, sign, ?_⟩
  · rw [isNumeral, bare, Bool.and_eq_true, List.all_eq_true]
    exact ⟨by simp [Nat.toDigits_ne_nil], digits⟩
  · rw [numeralValue, sign, bare, Nat.ofDigitChars_ten_toDigits]
    rfl

theorem numeral_toString (number : Int) :
    isNumeral (toString number).toList = true ∧ numeralValue (toString number).toList = number ∧
      (isNegative (toString number).toList = true → number < 0) := by
  cases number with
  | ofNat number =>
    have written : (toString (Int.ofNat number)).toList = Nat.toDigits 10 number := Nat.toList_repr
    obtain ⟨numeral, sign, value⟩ := numeral_toDigits number
    rw [written]
    exact ⟨numeral, value, by simp [sign]⟩
  | negSucc number =>
    have written : (toString (Int.negSucc number)).toList = '-' ::
        Nat.toDigits 10 (number + 1) := by
      change ("-" ++ Nat.repr (number + 1)).toList = _
      rw [String.toList_append, Nat.toList_repr]
      rfl
    have digits := isDigit_toDigits (number + 1)
    rw [written]
    refine ⟨?_, ?_, fun _ => Int.negSucc_lt_zero number⟩
    · rw [isNumeral, unsigned, Bool.and_eq_true, List.all_eq_true]
      exact ⟨by simp [Nat.toDigits_ne_nil], digits⟩
    · rw [numeralValue, unsigned, Nat.ofDigitChars_ten_toDigits, Int.negSucc_eq]
      rfl

/-- A number in range is read back from what it is written as. -/
theorem parseInteger_toString {min max number : Int} (lower : min ≤ number) (upper : number ≤ max) :
    parseInteger min max (toString number) = some number := by
  obtain ⟨numeral, value, sign⟩ := numeral_toString number
  refine parseInteger_eq_some.mpr ⟨numeral, fun negative => ?_, value, lower, upper⟩
  exact lt_of_le_of_lt lower (sign negative)

theorem toString_injective {first second : Nat} (same : toString first = toString second) :
    first = second := by
  have read := @parseInteger_toString 0 (max first second) first (by omega) (by omega)
  have written : toString (first : Int) = toString (second : Int) := same
  rw [written, parseInteger_toString (by omega) (by omega)] at read
  exact_mod_cast (Option.some.inj read).symm

namespace F64

theorem toNat_bits_ofMagnitude (negative : Bool) {magnitude : Nat} (small : magnitude < 2 ^ 63) :
    (ofMagnitude negative magnitude).bits.toNat = magnitude + if negative then 2 ^ 63 else 0 := by
  rw [ofMagnitude, UInt64.toNat_ofNat']
  apply Nat.mod_eq_of_lt
  cases negative <;> simp <;> omega

theorem magnitude_ofMagnitude (negative : Bool) {magnitude : Nat} (small : magnitude < 2 ^ 63) :
    (ofMagnitude negative magnitude).magnitude = magnitude := by
  rw [F64.magnitude, toNat_bits_ofMagnitude negative small]
  cases negative <;> simp <;> omega

theorem negative_ofMagnitude (negative : Bool) {magnitude : Nat} (small : magnitude < 2 ^ 63) :
    (ofMagnitude negative magnitude).negative = negative := by
  have top : ((ofMagnitude negative magnitude).bits >>> 63).toNat = if negative then 1 else 0 := by
    rw [UInt64.toNat_shiftRight, toNat_bits_ofMagnitude negative small]
    cases negative <;> simp [Nat.shiftRight_eq_div_pow] <;> omega
  rw [F64.negative, Bool.eq_iff_iff, beq_iff_eq, ← UInt64.toNat_inj, top]
  cases negative <;> simp

theorem nearest_le_infinity (numerator denominator : Nat) :
    nearest numerator denominator ≤ infinity :=
  Nat.min_le_left _ _

theorem nearest_lt (numerator denominator : Nat) : nearest numerator denominator < 2 ^ 63 :=
  lt_of_le_of_lt (nearest_le_infinity numerator denominator) (by decide)

theorem roundUnits_le (numerator denominator shift : Nat) :
    roundUnits numerator denominator shift ≤ numerator *
      2 ^ 1074 / (denominator * 2 ^ shift) + 1 := by
  have even (below : Nat) : below + below % 2 ≤ below + 1 := by omega
  rw [roundUnits]
  split
  · exact Nat.le_add_right _ 1
  · split
    · exact le_rfl
    · exact even _

private theorem scaled_lt {number : Nat} (small : number < 2 ^ 64) (exponent : Nat) :
    number * 2 ^ exponent < 2 ^ (64 + exponent) := by
  rw [Nat.pow_add]
  exact Nat.mul_lt_mul_of_pos_right small (Nat.two_pow_pos exponent)

/-- The significand and the exponent field of a number of at most 1138 bits in units. -/
private theorem fields_lt {scaled rounded width : Nat} (bound : scaled < 2 ^ width)
    (narrow : width ≤ 64 + 1074) (near : rounded ≤ scaled / (1 * 2 ^ (Nat.log2 scaled - 52)) + 1) :
    rounded + (Nat.log2 scaled - 52) * 2 ^ 52 < infinity := by
  have high : Nat.log2 scaled < 64 + 1074 := by
    rcases Nat.eq_zero_or_pos scaled with rfl | positive
    · simp
    · exact lt_of_lt_of_le ((Nat.log2_lt (Nat.ne_of_gt positive)).mpr bound) narrow
  have below : scaled / (1 * 2 ^ (Nat.log2 scaled - 52)) < 2 ^ 53 := by
    rw [Nat.one_mul, Nat.div_lt_iff_lt_mul (Nat.two_pow_pos _), ← Nat.pow_add]
    exact lt_of_lt_of_le Nat.lt_log2_self (Nat.pow_le_pow_right (by decide) (by omega))
  have shift : (Nat.log2 scaled - 52) * 2 ^ 52 ≤ 1085 * 2 ^ 52 := Nat.mul_le_mul_right _ (by omega)
  rw [infinity]
  omega

/-- A number of 64 bits is read as a finite double. -/
theorem nearest_lt_infinity {number : Nat} (small : number < 2 ^ 64) :
    nearest number 1 < infinity := by
  rw [nearest, Nat.div_one]
  exact lt_of_le_of_lt (Nat.min_le_right _ _)
    (fields_lt (scaled_lt small 1074) le_rfl (roundUnits_le _ _ _))

theorem isNan_nearest (negative : Bool) (numerator denominator : Nat) :
    (ofMagnitude negative (nearest numerator denominator)).isNan = false := by
  rw [isNan, magnitude_ofMagnitude negative (nearest_lt _ _)]
  simpa using nearest_le_infinity numerator denominator

theorem rank_nearest (negative : Bool) (numerator denominator : Nat) :
    (ofMagnitude negative (nearest numerator denominator)).rank =
      if negative then -(nearest numerator denominator : Int)
          else nearest numerator denominator := by
  rw [rank, negative_ofMagnitude negative (nearest_lt _ _),
    magnitude_ofMagnitude negative (nearest_lt _ _)]

/-- The magnitude of a text without a sign. -/
def parseUnsigned (body : List Char) : Option Nat :=
  let word := body.map Char.toLower
  if word = "inf".toList ∨ word = "infinity".toList then some infinity
  else if word = "nan".toList then some (infinity + 2 ^ 51)
  else decimal body

theorem parse_eq (text : String) :
    parse text = (parseUnsigned (unsigned text.toList)).map
      (ofMagnitude (isNegative text.toList)) := by
  rw [parse]
  split
  rename_i negative body same
  have parts : isNegative text.toList = negative ∧ unsigned text.toList = body := by
    unfold isNegative unsigned
    split at same <;> cases same <;> simp_all
  rw [parts.1, parts.2]
  simp only [parseUnsigned]
  split
  · rfl
  · split <;> rfl

theorem decimal_digits {digits : List Char} (some : digits ≠ [])
    (all : ∀ c ∈ digits, c.isDigit = true) :
    decimal digits = .some (nearest (Nat.ofDigitChars 10 digits 0) 1) := by
  have whole : F64.digits digits = (digits, []) := by
    rw [F64.digits, List.span_eq_takeWhile_dropWhile, List.takeWhile_eq_self_iff.mpr all,
      List.dropWhile_eq_nil_iff.mpr all]
  have front : digits.isEmpty = false := by simpa using some
  rw [decimal, whole]
  simp only [front, Bool.false_and, Bool.false_eq_true, ↓reduceIte, exponent, Option.map_some,
    List.append_nil, List.length_nil]
  simp [ofDigits, Nat.ofDigitChars]

theorem parseUnsigned_digits {digits : List Char} (some : digits ≠ [])
    (all : ∀ c ∈ digits, c.isDigit = true) :
    parseUnsigned digits = .some (nearest (Nat.ofDigitChars 10 digits 0) 1) := by
  have word : digits.map Char.toLower = digits := by
    rw [List.map_congr_left fun c member => Regex.toLower_of_isDecimal
      (Regex.isDecimal_of_isDigit (all c member)), List.map_id']
  have other {letters : List Char} {letter : Char} (member : letter ∈ letters)
      (refused : letter.isDigit = false) : digits ≠ letters := by
    rintro rfl
    simp [all letter member] at refused
  have inf : digits ≠ "inf".toList := @other _ 'n' (by decide) (by decide)
  have infinity : digits ≠ "infinity".toList := @other _ 'n' (by decide) (by decide)
  have nan : digits ≠ "nan".toList := @other _ 'n' (by decide) (by decide)
  simp only [parseUnsigned, word, inf, infinity, nan, or_self, ↓reduceIte, decimal_digits some all]

theorem exponent_foreign {text : List Char} (foreign : isForeign c = true) (member : c ∈ text) :
    exponent text = none := by
  have stray {text : List Char} (inside : c ∈ text) :
      (text.isEmpty || !text.all Char.isDigit) = true := by
    have some : text.all Char.isDigit = false := by
      rw [List.all_eq_false]
      exact ⟨c, inside, by simp [not_isDigit_of_isForeign foreign]⟩
    simp [some]
  cases text with
  | nil => cases member
  | cons mark rest =>
    unfold exponent
    dsimp only
    split
    · rename_i marked
      have later : c ∈ rest := by
        rcases List.mem_cons.mp member with rfl | later
        · rcases marked with rfl | rfl <;> cases foreign
        · exact later
      have past {sign : Char} {digits : List Char} (plain : isForeign sign = false)
          (inside : c ∈ sign :: digits) : c ∈ digits := by
        rcases List.mem_cons.mp inside with rfl | after
        · rw [foreign] at plain
          cases plain
        · exact after
      split
      · exact if_pos (stray (past rfl later))
      · exact if_pos (stray (past rfl later))
      · exact if_pos (stray later)
    · rfl

/-- What follows the digits at the front still holds what is no digit. -/
theorem mem_digits {text : List Char} (foreign : isForeign c = true) (member : c ∈ text) :
    c ∈ (digits text).2 := by
  rw [digits, List.span_eq_takeWhile_dropWhile]
  rw [← @List.takeWhile_append_dropWhile _ Char.isDigit text, List.mem_append] at member
  rcases member with front | back
  · have digit := List.all_eq_true.mp List.all_takeWhile c front
    rw [not_isDigit_of_isForeign foreign] at digit
    cases digit
  · exact back

theorem decimal_foreign {text : List Char} (foreign : isForeign c = true) (member : c ∈ text) :
    decimal text = none := by
  have rest := mem_digits foreign member
  rw [decimal]
  split
  rename_i whole after same
  rw [same] at rest
  split
  rename_i fraction last split
  have inside : c ∈ last := by
    split at split
    · rename_i later
      rcases List.mem_cons.mp rest with rfl | back
      · cases foreign
      · have found := mem_digits foreign back
        rw [split] at found
        exact found
    · cases split
      exact rest
  simp [exponent_foreign foreign inside]

theorem parse_foreign {text : String} (foreign : isForeign c = true) (member : c ∈ text.toList) :
    parse text = none := by
  have inside := mem_unsigned foreign member
  have lower : c.toLower = 'b' ∨ c.toLower = 'c' := by
    rcases isForeign_cases foreign with rfl | rfl | rfl | rfl <;> decide
  have other {word : List Char} (without : 'b' ∉ word ∧ 'c' ∉ word) :
      (unsigned text.toList).map Char.toLower ≠ word := by
    rintro rfl
    have present := List.mem_map_of_mem (f := Char.toLower) inside
    rcases lower with same | same
    · exact without.1 (same ▸ present)
    · exact without.2 (same ▸ present)
  have inf := @other "inf".toList (by decide)
  have infinity := @other "infinity".toList (by decide)
  have nan := @other "nan".toList (by decide)
  simp only [parse_eq, parseUnsigned, inf, infinity, nan, or_self, ↓reduceIte,
    decimal_foreign foreign inside, Option.map_none]

/-- A numeral is read as the double nearest to its number. -/
theorem parse_numeral {text : String} (numeral : isNumeral text.toList = true) :
    parse text = some (ofMagnitude (isNegative text.toList)
      (nearest (Nat.ofDigitChars 10 (unsigned text.toList) 0) 1)) := by
  simp only [isNumeral, Bool.and_eq_true, Bool.not_eq_true', List.isEmpty_eq_false_iff,
    List.all_eq_true] at numeral
  rw [parse_eq, parseUnsigned_digits numeral.1 numeral.2]
  rfl

/-- Numerals for one number are read as doubles that compare alike. -/
theorem rank_numeral {first second : String} (numeral : isNumeral first.toList = true)
    (other : isNumeral second.toList = true)
    (same : numeralValue first.toList = numeralValue second.toList) :
    ∃ one two, parse first = some one ∧ parse second = some two ∧ one.isNan = false ∧
      two.isNan = false ∧ one.rank = two.rank := by
  refine ⟨_, _, parse_numeral numeral, parse_numeral other, isNan_nearest _ _ _,
    isNan_nearest _ _ _, ?_⟩
  rw [rank_nearest, rank_nearest]
  have zero : nearest 0 1 = 0 := by
    simp only [nearest, roundUnits, Nat.zero_mul, Nat.zero_div, Nat.zero_mod]
    rfl
  rw [numeralValue, numeralValue] at same
  generalize Nat.ofDigitChars 10 (unsigned first.toList) 0 = one at same ⊢
  generalize Nat.ofDigitChars 10 (unsigned second.toList) 0 = two at same ⊢
  generalize isNegative first.toList = sign at same ⊢
  generalize isNegative second.toList = mark at same ⊢
  cases sign <;> cases mark <;> simp only [Bool.false_eq_true, ↓reduceIte] at same ⊢
  · rw [Int.ofNat_inj.mp same]
  · obtain ⟨rfl, rfl⟩ : one = 0 ∧ two = 0 := by omega
    simp [zero]
  · obtain ⟨rfl, rfl⟩ : one = 0 ∧ two = 0 := by omega
    simp [zero]
  · obtain rfl : one = two := by omega
    rfl

end F64

end OaGateway.Lib
