import Mathlib.Tactic.Ring
import OaGateway.Lib.Numeral

/-! Where rounding to a double crosses a value, and the decimal fractions that are
read as doubles. -/
namespace OaGateway.Lib.F64

section Halves

/-- `scaled / unit` to the nearest whole number, halves to even. -/
def roundHalf (scaled unit : Nat) : Nat :=
  if 2 * (scaled % unit) < unit then scaled / unit
  else if 2 * (scaled % unit) > unit then scaled / unit + 1
  else scaled / unit + scaled / unit % 2

theorem roundUnits_eq {numerator scaled : Nat} (same : numerator * 2 ^ 1074 = scaled)
    (denominator shift : Nat) :
    roundUnits numerator denominator shift = roundHalf scaled (denominator * 2 ^ shift) := by
  simp only [roundUnits, same, roundHalf]

variable {scaled unit bound : Nat}

theorem le_roundHalf_self : scaled / unit ≤ roundHalf scaled unit := by
  rw [roundHalf]
  split
  · exact le_rfl
  · split
    · exact Nat.le_succ _
    · exact Nat.le_add_right _ _

theorem roundHalf_le : roundHalf scaled unit ≤ scaled / unit + 1 := by
  rw [roundHalf]
  split
  · exact Nat.le_succ _
  · split
    · exact le_rfl
    · exact Nat.add_le_add_left (by omega) _

/-- Rounding reaches an even number from half a unit below it on. -/
theorem le_roundHalf (even : bound % 2 = 0) (given : 0 < unit) :
    bound ≤ roundHalf scaled unit ↔ 2 * bound * unit ≤ 2 * scaled + unit := by
  have low := @le_roundHalf_self scaled unit
  have high := @roundHalf_le scaled unit
  have whole := Nat.div_add_mod scaled unit
  have rest := Nat.mod_lt scaled given
  have twice : 2 * bound * unit = 2 * (bound * unit) := Nat.mul_assoc 2 bound unit
  rw [roundHalf] at low high ⊢
  generalize scaled / unit = below at *
  generalize scaled % unit = rest at *
  obtain less | equal | more : bound ≤ below ∨ bound = below + 1 ∨ below + 2 ≤ bound := by omega
  · have scale : bound * unit ≤ unit * below := by
      rw [Nat.mul_comm]
      exact Nat.mul_le_mul_left unit less
    exact ⟨fun _ => by omega, fun _ => less.trans low⟩
  · have scale : bound * unit = unit * below + unit := by rw [equal]; ring
    rw [twice, scale]
    split
    · omega
    · split <;> omega
  · have scale : unit * below + 2 * unit ≤ bound * unit := by
      calc unit * below + 2 * unit = (below + 2) * unit := by ring
        _ ≤ bound * unit := Nat.mul_le_mul_right unit more
    exact ⟨fun above => by omega, fun above => by omega⟩

theorem roundHalf_eq_zero (given : 0 < unit) : roundHalf scaled unit = 0 ↔ 2 * scaled ≤ unit := by
  have low := @le_roundHalf_self scaled unit
  have whole := Nat.div_add_mod scaled unit
  rw [roundHalf] at low ⊢
  generalize scaled / unit = below at *
  generalize scaled % unit = rest at *
  rcases Nat.eq_zero_or_pos below with rfl | positive
  · rw [Nat.mul_zero, Nat.zero_add] at whole
    subst whole
    split
    · omega
    · split <;> omega
  · have scale : unit ≤ unit * below := Nat.le_mul_of_pos_right unit positive
    exact ⟨fun zero => by omega, fun small => by omega⟩

end Halves

section Nearest

/-- The magnitude nearest to `scaled / denominator` of the least units. -/
def nearestUnits (scaled denominator : Nat) : Nat :=
  Nat.min infinity (roundHalf scaled (denominator * 2 ^ (Nat.log2 (scaled / denominator) - 52)) +
    (Nat.log2 (scaled / denominator) - 52) * 2 ^ 52)

theorem nearest_eq {numerator scaled : Nat} (same : numerator * 2 ^ 1074 = scaled)
    (denominator : Nat) :
    nearest numerator denominator = nearestUnits scaled denominator := by
  simp only [nearest, same, roundUnits_eq same, nearestUnits]

variable {scaled denominator : Nat}

/-- At most half the least unit is read as zero. -/
theorem nearestUnits_eq_zero (given : 0 < denominator) : nearestUnits scaled denominator = 0 ↔
    2 * scaled ≤ denominator := by
  have same := @roundHalf_eq_zero scaled denominator given
  rw [nearestUnits]
  constructor
  · intro zero
    generalize exponent : Nat.log2 (scaled / denominator) - 52 = own at zero
    rcases Nat.min_eq_zero_iff.mp zero with none | sum
    · exact absurd none (by decide)
    obtain ⟨rounded, shifted⟩ := Nat.add_eq_zero_iff.mp sum
    obtain rfl : own = 0 := by omega
    rw [Nat.pow_zero, Nat.mul_one] at rounded
    exact same.mp rounded
  · intro small
    rw [Nat.div_eq_of_lt (by omega), Nat.log2_zero, Nat.zero_sub, Nat.zero_mul,
      Nat.add_zero, Nat.pow_zero, Nat.mul_one, same.mpr small]
    exact Nat.min_zero _

/-- The significand at a number's own exponent has 53 bits. -/
theorem significand_lt {own : Nat} (exponent : Nat.log2 (scaled / denominator) - 52 = own) :
    scaled / (denominator * 2 ^ own) < 2 ^ 53 := by
  rw [← Nat.div_div_eq_div_mul, Nat.div_lt_iff_lt_mul (Nat.two_pow_pos own), ← Nat.pow_add]
  exact lt_of_lt_of_le Nat.lt_log2_self (Nat.pow_le_pow_right (by decide) (by omega))

theorem le_significand {own : Nat} (exponent : Nat.log2 (scaled / denominator) - 52 = own)
    (normal : 0 < own) :
    2 ^ 52 ≤ scaled / (denominator * 2 ^ own) := by
  have some : scaled / denominator ≠ 0 := by
    intro zero
    rw [zero, Nat.log2_zero] at exponent
    omega
  rw [← Nat.div_div_eq_div_mul, Nat.le_div_iff_mul_le (Nat.two_pow_pos own), ← Nat.pow_add]
  exact (Nat.pow_le_pow_right (by decide) (by omega)).trans (Nat.log2_self_le some)

/-- The double with this even significand and exponent is reached from half a unit
below it on. -/
theorem le_nearestUnits {significand shift : Nat} (even : significand % 2 = 0)
    (above : 2 ^ 52 < significand) (below : significand ≤ 2 ^ 53)
    (finite : significand + shift * 2 ^ 52 ≤ infinity) (given : 0 < denominator) :
    significand + shift * 2 ^ 52 ≤ nearestUnits scaled denominator ↔
      2 * significand * (denominator * 2 ^ shift) ≤ 2 * scaled + denominator * 2 ^ shift := by
  rw [nearestUnits]
  generalize exponent : Nat.log2 (scaled / denominator) - 52 = own
  have reached : significand + shift * 2 ^ 52 ≤
    Nat.min infinity (roundHalf scaled (denominator * 2 ^ own) + own * 2 ^ 52) ↔
      significand + shift * 2 ^ 52 ≤ roundHalf scaled (denominator * 2 ^ own) + own * 2 ^ 52 :=
    ⟨fun least => least.trans (Nat.min_le_right _ _), fun least => Nat.le_min.mpr ⟨finite, least⟩⟩
  have narrow := significand_lt exponent
  have unit (own : Nat) : 0 < denominator * 2 ^ own := Nat.mul_pos given (Nat.two_pow_pos own)
  have twice : 2 * significand * (denominator * 2 ^ shift) = 2 *
    (significand * (denominator * 2 ^ shift)) :=
    Nat.mul_assoc _ _ _
  rw [reached]
  obtain less | rfl | more := Nat.lt_trichotomy own shift
  · -- The number lies below the binade: rounding may reach its start, no more.
    have low := @roundHalf_le scaled (denominator * 2 ^ own)
    have few : scaled < 2 ^ 52 * (denominator * 2 ^ shift) := by
      have lower := (Nat.div_lt_iff_lt_mul (unit own)).mp narrow
      have scale : 2 ^ 53 * (denominator * 2 ^ own) ≤ 2 ^ 52 * (denominator * 2 ^ shift) := by
        have power : 2 ^ (own + 1) ≤ 2 ^ shift := Nat.pow_le_pow_right (by decide) less
        calc 2 ^ 53 * (denominator * 2 ^ own) = 2 ^ 52 * (denominator * 2 ^ (own + 1)) := by ring
          _ ≤ 2 ^ 52 * (denominator * 2 ^ shift) :=
            Nat.mul_le_mul_left _ (Nat.mul_le_mul_left _ power)
      exact lower.trans_le scale
    have scale : (2 ^ 52 + 1) * (denominator * 2 ^ shift) ≤ significand *
      (denominator * 2 ^ shift) :=
      Nat.mul_le_mul_right _ above
    have fields : (own + 1) * 2 ^ 52 ≤ shift * 2 ^ 52 := Nat.mul_le_mul_right _ less
    rw [twice]
    have solid := unit shift
    generalize denominator * 2 ^ shift = step at *
    exact ⟨fun least => by omega, fun least => by omega⟩
  · rw [Nat.add_le_add_iff_right]
    exact le_roundHalf even (unit own)
  · have high := le_significand exponent (by omega)
    have low := @le_roundHalf_self scaled (denominator * 2 ^ own)
    have many : 2 ^ 53 * (denominator * 2 ^ shift) ≤ scaled := by
      have upper := (Nat.le_div_iff_mul_le (unit own)).mp high
      have power : 2 ^ (shift + 1) ≤ 2 ^ own := Nat.pow_le_pow_right (by decide) more
      calc 2 ^ 53 * (denominator * 2 ^ shift) = 2 ^ 52 * (denominator * 2 ^ (shift + 1)) := by ring
        _ ≤ 2 ^ 52 * (denominator * 2 ^ own) := Nat.mul_le_mul_left _ (Nat.mul_le_mul_left _ power)
        _ ≤ scaled := upper
    have scale : significand * (denominator * 2 ^ shift) ≤ 2 ^ 53 * (denominator * 2 ^ shift) :=
      Nat.mul_le_mul_right _ below
    have fields : (shift + 1) * 2 ^ 52 ≤ own * 2 ^ 52 := Nat.mul_le_mul_right _ more
    rw [twice]
    exact ⟨fun _ => by omega, fun _ => by omega⟩

end Nearest

section Fractions
open Regex

/-- A number as digits, with a fraction if there is one. -/
def decimalText (whole : List Char) (fraction : Option (List Char)) : List Char :=
  whole ++ fraction.elim [] ('.' :: ·)

/-- All the digits of a number. -/
def decimalDigits (whole : List Char) (fraction : Option (List Char)) : List Char :=
  whole ++ fraction.getD []

/-- The denominator a fraction has. -/
def decimalScale (fraction : Option (List Char)) : Nat := 10 ^ (fraction.getD []).length

variable {whole : List Char} {fraction : Option (List Char)}

theorem digits_plain {front rest : List Char} (all : ∀ c ∈ front, c.isDigit = true)
    (stops : ∀ c ∈ rest.head?, c.isDigit = false) : digits (front ++ rest) = (front, rest) := by
  have kept : rest.takeWhile Char.isDigit = [] ∧ rest.dropWhile Char.isDigit = rest := by
    cases rest with
    | nil => exact ⟨rfl, rfl⟩
    | cons c rest =>
      have other := stops c rfl
      exact ⟨List.takeWhile_cons_of_neg (by simp [other]),
        List.dropWhile_cons_of_neg (by simp [other])⟩
  rw [digits, List.span_eq_takeWhile_dropWhile, List.takeWhile_append_of_pos all,
    List.dropWhile_append_of_pos all, kept.1, kept.2, List.append_nil]

/-- A decimal with a fraction is read as the double nearest to it. -/
theorem decimal_decimalText (some : whole ≠ [])
    (all : ∀ c ∈ decimalDigits whole fraction, c.isDigit = true) :
    decimal (decimalText whole fraction) =
      .some (nearest (Nat.ofDigitChars 10 (decimalDigits whole fraction) 0)
          (decimalScale fraction)) := by
  have front : whole.isEmpty = false := by simpa using some
  cases fraction with
  | none =>
    have same := decimal_digits some (by simpa [decimalDigits] using all)
    simpa [decimalText, decimalDigits, decimalScale] using same
  | some fraction =>
    have before : ∀ c ∈ whole, c.isDigit = true := fun c member =>
      all c (List.mem_append_left _ member)
    have after : ∀ c ∈ fraction, c.isDigit = true := fun c member =>
      all c (List.mem_append_right _ member)
    have first : digits (whole ++ '.' :: fraction) = (whole, '.' :: fraction) :=
      digits_plain before (by rintro c ⟨⟩; rfl)
    have second : digits fraction = (fraction, []) := by
      have alone := @digits_plain fraction [] after nofun
      rwa [List.append_nil] at alone
    rw [decimalText, Option.elim_some, decimal, first]
    simp only [second, front, Bool.false_and, Bool.false_eq_true, ↓reduceIte, exponent,
      Option.map_some]
    simp [decimalDigits, decimalScale, ofDigits, Nat.ofDigitChars]

theorem exists_foreign {text : List Char} (decimals : ∀ c ∈ text, isDecimal c = true)
    (foreign : text.all Char.isDigit = false) :
    ∃ front c rest, text = front ++ c :: rest ∧ (∀ c ∈ front, c.isDigit = true) ∧ Foreign c := by
  cases left : text.dropWhile Char.isDigit with
  | nil =>
    rw [List.all_eq_true.mpr (List.dropWhile_eq_nil_iff.mp left)] at foreign
    cases foreign
  | cons c rest =>
    have whole := @List.takeWhile_append_dropWhile _ Char.isDigit text
    rw [left] at whole
    have stops := List.head?_dropWhile_not Char.isDigit text
    rw [left] at stops
    have member : c ∈ text := by
      rw [← whole]
      exact List.mem_append_right _ List.mem_cons_self
    exact ⟨_, c, rest, whole.symm, List.all_eq_true.mp List.all_takeWhile,
      decimals c member, by simpa using stops⟩

theorem exponent_foreignDigit {c : Char} {rest : List Char} (odd : Foreign c) :
    exponent (c :: rest) = none := by
  unfold exponent
  dsimp only
  rw [if_neg]
  rintro (rfl | rfl)
  · exact odd.ne rfl rfl
  · exact odd.ne rfl rfl

theorem decimal_foreignDigit (decimals : ∀ c ∈ decimalDigits whole fraction, isDecimal c = true)
    (foreign : (decimalDigits whole fraction).all Char.isDigit = false) :
    decimal (decimalText whole fraction) = none := by
  have before : ∀ c ∈ whole, isDecimal c = true := fun c member =>
    decimals c (List.mem_append_left _ member)
  cases plain : whole.all Char.isDigit with
  | false =>
    obtain ⟨front, c, rest, rfl, all, odd⟩ := exists_foreign before plain
    have split : digits (decimalText (front ++ c :: rest) fraction) =
        (front, c :: (rest ++ fraction.elim [] ('.' :: ·))) := by
      rw [decimalText, List.append_assoc, List.cons_append]
      exact digits_plain all (by rintro d ⟨⟩; exact odd.outside)
    have other : c ≠ '.' := odd.ne rfl
    rw [decimal, split]
    dsimp only
    split
    · rename_i same
      exact absurd (List.cons.inj same).1 other
    · simp only [exponent_foreignDigit odd, Option.map_none, ite_self]
  | true =>
    cases fraction with
    | none =>
      rw [decimalDigits, Option.getD_none, List.append_nil, plain] at foreign
      cases foreign
    | some fraction =>
      have after : ∀ c ∈ fraction, isDecimal c = true := fun c member =>
        decimals c (List.mem_append_right _ member)
      have foreign : fraction.all Char.isDigit = false := by
        rwa [decimalDigits, Option.getD_some, List.all_append, plain, Bool.true_and] at foreign
      obtain ⟨front, c, rest, rfl, all, odd⟩ := exists_foreign after foreign
      have first : digits (whole ++ '.' :: (front ++ c :: rest)) =
        (whole, '.' :: (front ++ c :: rest)) :=
        digits_plain (List.all_eq_true.mp plain) (by rintro c ⟨⟩; rfl)
      have second : digits (front ++ c :: rest) = (front, c :: rest) :=
        digits_plain all (by rintro d ⟨⟩; exact odd.outside)
      rw [decimalText, Option.elim_some, decimal, first]
      simp only [second, exponent_foreignDigit odd, Option.map_none, ite_self]

/-- A text that starts with a digit has no sign. -/
theorem unsigned_decimal {first : Char} (decimal : isDecimal first = true) (rest : List Char) :
    isNegative (first :: rest) = false ∧ unsigned (first :: rest) = first :: rest := by
  have plain {other : Char} (odd : isDecimal other = false) : first ≠ other := by
    rintro rfl
    rw [decimal] at odd
    cases odd
  constructor
  · unfold isNegative
    split
    · rename_i same
      exact absurd (List.cons.inj same).1 (plain rfl)
    · rfl
  · unfold unsigned
    split
    · rename_i same
      exact absurd (List.cons.inj same).1 (plain rfl)
    · rename_i same
      exact absurd (List.cons.inj same).1 (plain rfl)
    · rfl

/-- Digits with a fraction are read when they are of ASCII, as the nearest double. -/
theorem parse_decimalText (some : whole ≠ [])
    (decimals : ∀ c ∈ decimalDigits whole fraction, isDecimal c = true) :
    parse (.ofList (decimalText whole fraction)) =
      if (decimalDigits whole fraction).all Char.isDigit then
        .some (ofMagnitude false
          (nearest (Nat.ofDigitChars 10 (decimalDigits whole fraction) 0) (decimalScale fraction)))
      else none := by
  obtain ⟨first, rest, rfl⟩ := List.exists_cons_of_ne_nil some
  have head : isDecimal first = true := decimals first (by simp [decimalDigits])
  have text : ∃ more, decimalText (first :: rest) fraction = first :: more := ⟨_, rfl⟩
  obtain ⟨more, spelled⟩ := text
  obtain ⟨sign, bare⟩ := unsigned_decimal head more
  have word {letters : List Char} (odd : letters.head?.any isDecimal = false) :
      (first :: more).map Char.toLower ≠ letters := by
    rintro rfl
    rw [List.map_cons, toLower_of_isDecimal head, List.head?_cons, Option.any_some, head] at odd
    cases odd
  have inf := @word "inf".toList (by decide)
  have infinity := @word "infinity".toList (by decide)
  have nan := @word "nan".toList (by decide)
  have read : parseUnsigned (first :: more) = decimal (first :: more) := by
    simp only [parseUnsigned, inf, infinity, nan, or_self, ↓reduceIte]
  rw [parse_eq, String.toList_ofList, spelled, sign, bare, read, ← spelled]
  split
  · rename_i all
    rw [decimal_decimalText (List.cons_ne_nil _ _) (List.all_eq_true.mp all), Option.map_some]
  · rename_i foreign
    rw [decimal_foreignDigit decimals (by simpa using foreign), Option.map_none]

end Fractions

end OaGateway.Lib.F64
