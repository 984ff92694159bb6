import Mathlib.Tactic.Linarith
import OaGateway.Uci.Moments

/-! Times of day and time zones, with the doubles their seconds are read as. -/
namespace OaGateway.Uci.Primitive

open Lib
open Lib.Regex (isDecimal Foreign)
open Lib.F64 (decimalText decimalDigits decimalScale nearest)

section Seconds

theorem sixty_scaled {number scale units : Nat} (given : 0 < units) :
    2 * (60 * 2 ^ 47) * (scale * units) ≤ 2 * (number * (2 ^ 47 * units)) + scale * units ↔
      (60 * 2 ^ 48 - 1) * scale ≤ number * 2 ^ 48 := by
  have left : 2 * (60 * 2 ^ 47) * (scale * units) = 60 * 2 ^ 48 * scale * units := by ring
  have right : 2 * (number * (2 ^ 47 * units)) + scale * units = (number * 2 ^ 48 + scale) *
    units := by ring
  rw [left, right, Nat.mul_le_mul_right_iff given]
  omega

/-- A number that is read as sixty or more is at most half a unit short of it. -/
theorem le_sixty {number scale : Nat} (given : 0 < scale) :
    F64.le sixty (F64.ofMagnitude false (nearest number scale)) = true ↔
      (60 - 1 / 2 ^ 48 : ℚ) ≤ number / scale := by
  have nan : sixty.isNan = false := by decide
  have rank : sixty.rank = ((60 * 2 ^ 47 + 1027 * 2 ^ 52 : Nat) : Int) := by decide
  have compared : F64.le sixty (F64.ofMagnitude false (nearest number scale)) = true ↔
      60 * 2 ^ 47 + 1027 * 2 ^ 52 ≤ nearest number scale := by
    rw [F64.le, nan, F64.isNan_nearest, F64.rank_nearest, rank]
    simp
  have units : number * 2 ^ 1074 = number * (2 ^ 47 * 2 ^ 1027) := by rw [← Nat.pow_add]
  have positive : (0 : ℚ) < scale := by exact_mod_cast given
  rw [compared, F64.nearest_eq units, F64.le_nearestUnits (by decide) (by decide) (by decide)
    (by decide) given, sixty_scaled (Nat.two_pow_pos _), le_div_iff₀ positive, ← @Nat.cast_le ℚ]
  push_cast
  constructor
  · intro least
    linarith
  · intro least
    linarith

theorem half_scaled {number scale : Nat} (given : 0 < scale) (power : Nat) :
    2 * (number * 2 ^ power) ≤ scale ↔ (number / scale : ℚ) ≤ 1 / 2 ^ (power + 1) := by
  have positive : (0 : ℚ) < scale := by exact_mod_cast given
  rw [pow_succ, div_le_div_iff₀ positive (by positivity), ← @Nat.cast_le ℚ]
  push_cast
  constructor
  · intro small
    linarith
  · intro small
    linarith

/-- A number that is read as zero is at most half the least double. -/
theorem beq_zero {number scale : Nat} (given : 0 < scale) :
    F64.beq (F64.ofMagnitude false (nearest number scale)) zero = true ↔
      (number / scale : ℚ) ≤ 1 / 2 ^ 1075 := by
  have nan : zero.isNan = false := by decide
  have rank : zero.rank = 0 := by decide
  have compared : F64.beq (F64.ofMagnitude false (nearest number scale)) zero = true ↔
      nearest number scale = 0 := by
    rw [F64.beq, nan, F64.isNan_nearest, F64.rank_nearest, rank]
    simp
  rw [compared, F64.nearest_eq rfl, F64.nearestUnits_eq_zero given]
  exact half_scaled given 1074

end Seconds

section Times

structure TimeParts where
  hour : List Char
  minute : List Char
  second : List Char
  fraction : Option (List Char)

namespace TimeParts

def text (time : TimeParts) : List Char :=
  time.hour ++ ':' :: (time.minute ++ ':' :: decimalText time.second time.fraction)

/-- The seconds with their fraction. -/
def seconds (time : TimeParts) : ℚ :=
  valueOf (decimalDigits time.second time.fraction) / decimalScale time.fraction

structure Spelled (reads : Char → Bool) (time : TimeParts) : Prop where
  hour : Two reads time.hour
  minute : Two reads time.minute
  second : Two reads time.second
  fraction : ∀ digits ∈ time.fraction, digits ≠ [] ∧ ∀ c ∈ digits, reads c = true

/-- A time of day as XSD writes it: the hour after the last is a stroke. -/
structure Lexical (time : TimeParts) : Prop where
  spelled : time.Spelled Char.isDigit
  range : valueOf time.hour ≤ 23 ∧ valueOf time.minute ≤ 59 ∧ time.seconds < 60 ∨
    valueOf time.hour = 24 ∧ valueOf time.minute = 0 ∧ time.seconds = 0

/-- A time of day, or one that is hardly past the last. -/
structure Sound (time : TimeParts) : Prop where
  spelled : time.Spelled Char.isDigit
  range : valueOf time.hour ≤ 23 ∧ valueOf time.minute ≤ 59 ∧ time.seconds < 60 ∨
    valueOf time.hour = 24 ∧ valueOf time.minute = 0 ∧ time.seconds ≤ 1 / 2 ^ 1075

/-- Seconds that a double rounds to sixty. -/
def Near (time : TimeParts) : Prop := 60 - 1 / 2 ^ 48 ≤ time.seconds

/-- Past the stroke of the last hour. -/
def Late (time : TimeParts) : Prop := valueOf time.hour = 24 ∧ time.seconds ≠ 0

theorem Spelled.decimals {time : TimeParts} (spelled : time.Spelled Char.isDigit) :
    time.Spelled isDecimal where
  hour := spelled.hour.decimals
  minute := spelled.minute.decimals
  second := spelled.second.decimals
  fraction digits held :=
    ⟨(spelled.fraction digits held).1, fun c member =>
      Regex.isDecimal_of_isDigit ((spelled.fraction digits held).2 c member)⟩

theorem Spelled.digits {reads : Char → Bool} {time : TimeParts} (spelled : time.Spelled reads) :
    ∀ c ∈ decimalDigits time.second time.fraction, reads c = true := by
  intro c member
  rcases List.mem_append.mp member with front | back
  · exact spelled.second.all c front
  · cases held : time.fraction with
    | none =>
      rw [held] at back
      cases back
    | some digits =>
      rw [held] at back
      exact (spelled.fraction digits held).2 c back

theorem lexical_iff (time : TimeParts) : time.Lexical ↔ time.Sound ∧ ¬ time.Late := by
  have never : ¬ (valueOf time.hour = 24 ∧ valueOf time.hour ≤ 23) := by omega
  constructor
  · rintro ⟨spelled, ⟨hour, range⟩ | ⟨last, stroke, zero⟩⟩
    · exact ⟨⟨spelled, .inl ⟨hour, range⟩⟩, fun late => never ⟨late.1, hour⟩⟩
    · refine ⟨⟨spelled, .inr ⟨last, stroke, ?_⟩⟩, fun late => late.2 zero⟩
      rw [zero]
      exact div_nonneg zero_le_one (pow_nonneg zero_le_two _)
  · rintro ⟨⟨spelled, range | ⟨last, stroke, -⟩⟩, early⟩
    · exact ⟨spelled, .inl range⟩
    · exact ⟨spelled, .inr ⟨last, stroke, Decidable.byContradiction fun some => early ⟨last, some⟩⟩⟩

end TimeParts

/-- What may follow a time: no digit, and no point. -/
structure Follows (rest : List Char) : Prop where
  ends : Ends rest
  whole : rest.head? ≠ some '.'

theorem TimeParts.unique {one two : TimeParts} {rest more : List Char}
    (first : one.Spelled isDecimal) (second : two.Spelled isDecimal) (follows : Follows rest)
    (other : Follows more) (same : one.text ++ rest = two.text ++ more) : one = two ∧
      rest = more := by
  have colon : isDecimal ':' = false := by decide
  have point : isDecimal '.' = false := by decide
  obtain ⟨hour, minute, whole, fraction⟩ := one
  obtain ⟨hour', minute', whole', fraction'⟩ := two
  have ended {fraction : Option (List Char)} {rest : List Char} (follows : Follows rest) :
      Ends (fraction.elim [] ('.' :: ·) ++ rest) := by
    cases fraction with
    | none => exact follows.ends
    | some digits => exact ends_cons _ point
  simp only [text, decimalText, List.append_assoc, List.cons_append] at same
  obtain ⟨hours, after⟩ := run_unique first.hour.all second.hour.all (ends_cons _ colon)
    (ends_cons _ colon) same
  obtain ⟨minutes, last⟩ := run_unique first.minute.all second.minute.all (ends_cons _ colon)
    (ends_cons _ colon)
    (List.cons.inj after).2
  obtain ⟨seconds, left⟩ := run_unique first.second.all second.second.all
    (ended follows) (ended other)
    (List.cons.inj last).2
  have fractions : fraction = fraction' ∧ rest = more := by
    cases fraction with
    | none =>
      cases fraction' with
      | none => exact ⟨rfl, left⟩
      | some digits => exact absurd (by rw [show rest = _ from left]; rfl) follows.whole
    | some digits =>
      cases fraction' with
      | none => exact absurd (by rw [show more = _ from left.symm]; rfl) other.whole
      | some digits' =>
        obtain ⟨same, rests⟩ := run_unique (first.fraction digits rfl).2
          (second.fraction digits' rfl).2 follows.ends
          other.ends (List.cons.inj left).2
        exact ⟨congrArg some same, rests⟩
  dsimp only at hours minutes seconds
  rw [hours, minutes, seconds, fractions.1]
  exact ⟨rfl, fractions.2⟩

theorem timeShape_accepts {text : List Char} :
    timeShape.accepts text = true ↔
      ∃ time : TimeParts, time.Spelled isDecimal ∧ text = time.text := by
  simp only [timeShape, Regex.digit_eq, Regex.accepts_all_cons, Regex.accepts_optional,
    Regex.accepts_char, Regex.accepts_times_one, Regex.accepts_seq, Regex.accepts_plus_one,
      Regex.accepts_all_nil]
  constructor
  · rintro ⟨hour, _, rfl, ⟨two, hours⟩, _, _, rfl, rfl, minute, _, rfl, ⟨pair, minutes⟩, _, _, rfl,
      rfl, second, _, rfl, ⟨length, seconds⟩, after, _, rfl, fraction, rfl⟩
    obtain ⟨_, digits, rfl, rfl, some, all⟩ | rfl := fraction
    · refine ⟨⟨hour, minute, second, .some digits⟩,
        ⟨⟨two, hours⟩, ⟨pair, minutes⟩, ⟨length, seconds⟩, ?_⟩, by
          simp [TimeParts.text, decimalText]⟩
      rintro _ ⟨⟩
      exact ⟨some, all⟩
    · exact ⟨⟨hour, minute, second, none⟩,
        ⟨⟨two, hours⟩, ⟨pair, minutes⟩, ⟨length, seconds⟩, by simp⟩, by
          simp [TimeParts.text, decimalText]⟩
  · rintro ⟨⟨hour, minute, second, fraction⟩,
      ⟨⟨two, hours⟩, ⟨pair, minutes⟩, ⟨length, seconds⟩, digits⟩, rfl⟩
    have whole : (TimeParts.mk hour minute second fraction).text =
        hour ++ ([':'] ++
            (minute ++ ([':'] ++ (second ++ (fraction.elim [] ('.' :: ·) ++ []))))) := by
      simp [TimeParts.text, decimalText]
    have fractional :
      (∃ front back, fraction.elim [] ('.' :: ·) = front ++ back ∧ front = ['.'] ∧ back ≠ [] ∧
        ∀ c ∈ back, isDecimal c = true) ∨ fraction.elim [] ('.' :: ·) = [] := by
      cases fraction with
      | none => exact .inr rfl
      | some fraction => exact .inl ⟨['.'], fraction, rfl, rfl, digits fraction rfl⟩
    rw [whole]
    exact ⟨_, _, rfl, ⟨two, hours⟩, _, _, rfl, rfl, _, _, rfl, ⟨pair, minutes⟩, _, _, rfl,
      rfl, _, _, rfl, ⟨length, seconds⟩, _, _, rfl, fractional, rfl⟩

theorem splitColon_append {front back : List Char} (without : ':' ∉ front) :
    splitColon (front ++ ':' :: back) = some (front, back) := by
  have solid : ∀ c ∈ front, (c != ':') = true := by
    intro c member
    rw [bne_iff_ne]
    rintro rfl
    exact without member
  have before : (front ++ ':' :: back).takeWhile (· != ':') = front := by
    rw [List.takeWhile_append_of_pos solid, List.takeWhile_cons_of_neg (by simp), List.append_nil]
  rw [splitColon, if_pos (by simp), before]
  simp

theorem inDay_iff (hour minute : Nat) (near stroke : Bool) :
    (if decide ((minute : Int) > 59) || near then false
      else if (hour : Int) ≤ 23 then true
      else if (hour : Int) == 24 then (minute : Int) == 0 && stroke
      else false) = true ↔
      near = false ∧ (hour ≤ 23 ∧ minute ≤ 59 ∨ hour = 24 ∧ minute = 0 ∧ stroke = true) := by
  cases near with
  | true => simp
  | false =>
    by_cases day : hour ≤ 23
    · simp [day]
      omega
    · have long : ¬ (hour : Int) ≤ 23 := by omega
      by_cases last : hour = 24
      · subst last
        simp
        omega
      · simp [day, last]
        omega

/-- The clock takes the times of day whose seconds are not read as sixty, and what
is read as the last stroke. -/
theorem clock_text {time : TimeParts} (spelled : time.Spelled isDecimal) :
    clock time.text = true ↔ time.Sound ∧ ¬ time.Near := by
  have colon : isDecimal ':' = false := by decide
  have given : 0 < decimalScale time.fraction := Nat.pow_pos (by decide)
  rw [clock, TimeParts.text, splitColon_append (mark_notMem spelled.hour.all colon)]
  dsimp only
  rw [splitColon_append (mark_notMem spelled.minute.all colon)]
  dsimp only
  rw [parseU32_two spelled.hour, parseU32_two spelled.minute,
    F64.parse_decimalText spelled.second.ne_nil spelled.digits]
  cases hours : time.hour.all Char.isDigit with
  | false => exact ⟨by simp, fun sound => absurd sound.1.spelled.hour.all (not_all_digits hours)⟩
  | true =>
    cases minutes : time.minute.all Char.isDigit with
    | false =>
      exact ⟨by simp, fun sound => absurd sound.1.spelled.minute.all (not_all_digits minutes)⟩
    | true =>
      cases seconds : (decimalDigits time.second time.fraction).all Char.isDigit with
      | false =>
        exact ⟨by simp, fun sound => absurd sound.1.spelled.digits (not_all_digits seconds)⟩
      | true =>
        have digits := List.all_eq_true.mp seconds
        have written : time.Spelled Char.isDigit := by
          refine ⟨⟨spelled.hour.length, List.all_eq_true.mp hours⟩,
            ⟨spelled.minute.length, List.all_eq_true.mp minutes⟩,
              ⟨spelled.second.length, fun c member => digits c (List.mem_append_left _ member)⟩,
              fun run held => ?_⟩
          refine ⟨(spelled.fraction run held).1, fun c member =>
            digits c (List.mem_append_right _ ?_)⟩
          rw [held]
          exact member
        have near := @le_sixty (valueOf (decimalDigits time.second time.fraction)) _ given
        have stroke := @beq_zero (valueOf (decimalDigits time.second time.fraction)) _ given
        rw [valueOf] at near stroke
        simp only [↓reduceIte]
        rw [inDay_iff, ← Bool.not_eq_true, near, stroke]
        constructor
        · rintro ⟨below, ⟨hour, minute⟩ | ⟨last, first, zero⟩⟩
          · have short : time.seconds < 60 := by
              refine (not_le.mp below).trans_le ?_
              norm_num
            exact ⟨⟨written, .inl ⟨hour, minute, short⟩⟩, below⟩
          · exact ⟨⟨written, .inr ⟨last, first, zero⟩⟩, below⟩
        · rintro ⟨⟨-, ⟨hour, minute, -⟩ | ⟨last, first, zero⟩⟩, below⟩
          · exact ⟨below, .inl ⟨hour, minute⟩⟩
          · exact ⟨below, .inr ⟨last, first, zero⟩⟩

end Times

section Zones

inductive Zone where
  | absent
  | utc
  | offset (sign : Char) (hour minute : List Char)

namespace Zone

def text : Zone → List Char
  | absent => []
  | utc => ['Z']
  | offset sign hour minute => sign :: (hour ++ ':' :: minute)

/-- A zone as XSD writes it: at most fourteen hours either way. -/
def Lexical : Zone → Prop
  | absent | utc => True
  | offset sign hour minute =>
    (sign = '+' ∨ sign = '-') ∧ Two Char.isDigit hour ∧ Two Char.isDigit minute ∧
      valueOf minute ≤ 59 ∧ 60 * valueOf hour + valueOf minute ≤ 14 * 60

/-- The hours of an offset below fourteen: after the first character, a digit of any
script. -/
def Hours (hour : List Char) : Prop :=
  ∃ c, hour = ['0', c] ∧ isDecimal c = true ∨ hour = ['1', c] ∧ '0' ≤ c ∧ c ≤ '3'

def Minutes (minute : List Char) : Prop :=
  ∃ tens c, minute = [tens, c] ∧ ('0' ≤ tens ∧ tens ≤ '5') ∧ isDecimal c = true

/-- A zone within fourteen hours, whatever script some of its digits are of. -/
def Sound : Zone → Prop
  | absent | utc => True
  | offset sign hour minute =>
    (sign = '+' ∨ sign = '-') ∧ (Hours hour ∧ Minutes minute ∨ hour = ['1', '4'] ∧
      minute = ['0', '0'])

theorem ascii {c : Char} (low : '0' ≤ c) (high : c ≤ '9') : isDecimal c = true := by
  apply Regex.isDecimal_of_isDigit
  rw [Regex.isDigit_iff]
  exact ⟨UInt32.le_iff_toNat_le.mp low, UInt32.le_iff_toNat_le.mp high⟩

theorem two_hours {hour : List Char} (hours : Hours hour) : Two isDecimal hour := by
  obtain ⟨c, ⟨rfl, decimal⟩ | ⟨rfl, low, high⟩⟩ := hours
  · exact ⟨rfl, by simp [decimal, ascii]⟩
  · have decimal := ascii low (Char.le_trans high (by decide))
    exact ⟨rfl, by simp [decimal, ascii]⟩

theorem two_minutes {minute : List Char} (minutes : Minutes minute) : Two isDecimal minute := by
  obtain ⟨tens, c, rfl, ⟨low, high⟩, decimal⟩ := minutes
  have first := ascii low (Char.le_trans high (by decide))
  exact ⟨rfl, by simp [decimal, first]⟩

/-- An offset in numbers, once all its digits are of ASCII. -/
theorem offset_iff {hour minute : List Char} (hours : Two Char.isDigit hour)
    (minutes : Two Char.isDigit minute) :
    valueOf minute ≤ 59 ∧ 60 * valueOf hour + valueOf minute ≤ 14 * 60 ↔
      Hours hour ∧ Minutes minute ∨ hour = ['1', '4'] ∧ minute = ['0', '0'] := by
  obtain ⟨a, b, rfl⟩ := List.length_eq_two.mp hours.length
  obtain ⟨t, u, rfl⟩ := List.length_eq_two.mp minutes.length
  have code {c d : Char} : c = d ↔ c.toNat = d.toNat := Char.toNat_inj.symm
  have least {c d : Char} : c ≤ d ↔ c.toNat ≤ d.toNat := UInt32.le_iff_toNat_le
  have digitA := hours.all a (by simp)
  have digitB := hours.all b (by simp)
  have digitT := minutes.all t (by simp)
  have digitU := minutes.all u (by simp)
  have below : Hours [a, b] ↔ a.toNat = 48 ∨ a.toNat = 49 ∧ b.toNat ≤ 51 := by
    simp only [Hours, List.cons.injEq, and_true, code, least]
    rw [Regex.isDigit_iff] at digitB
    constructor
    · rintro ⟨c, ⟨⟨first, -⟩, -⟩ | ⟨⟨first, same⟩, -, high⟩⟩
      · exact .inl first
      · exact .inr ⟨first, by rw [same]; exact high⟩
    · rintro (first | ⟨first, high⟩)
      · exact ⟨b, .inl ⟨⟨first, rfl⟩, Regex.isDecimal_of_isDigit (Regex.isDigit_iff.mpr digitB)⟩⟩
      · exact ⟨b, .inr ⟨⟨first, rfl⟩, digitB.1, high⟩⟩
  have within : Minutes [t, u] ↔ t.toNat ≤ 53 := by
    simp only [Minutes, List.cons.injEq, and_true]
    rw [Regex.isDigit_iff] at digitT
    constructor
    · rintro ⟨_, _, ⟨rfl, rfl⟩, ⟨-, high⟩, -⟩
      exact least.mp high
    · intro high
      exact ⟨t, u, ⟨rfl, rfl⟩, ⟨least.mpr digitT.1, least.mpr high⟩,
        Regex.isDecimal_of_isDigit digitU⟩
  rw [Regex.isDigit_iff] at digitA digitB digitT digitU
  rw [below, within, valueOf_two, valueOf_two]
  simp only [List.cons.injEq, and_true, code]
  have zero : '0'.toNat = 48 := rfl
  have one : '1'.toNat = 49 := rfl
  have four : '4'.toNat = 52 := rfl
  omega

theorem Sound.two {sign : Char} {hour minute : List Char}
    (sound : (offset sign hour minute).Sound) :
    Two isDecimal hour ∧ Two isDecimal minute := by
  obtain ⟨-, ⟨hours, minutes⟩ | ⟨rfl, rfl⟩⟩ := sound
  · exact ⟨two_hours hours, two_minutes minutes⟩
  · exact ⟨⟨rfl, by simp [ascii]⟩, ⟨rfl, by simp [ascii]⟩⟩

theorem lexical_iff (zone : Zone) : zone.Lexical ↔ zone.Sound ∧ Plain zone.text := by
  cases zone with
  | absent => exact ⟨fun _ => ⟨trivial, plain_nil⟩, fun _ => trivial⟩
  | utc => exact ⟨fun _ => ⟨trivial, (plain_cons (by decide)).mpr plain_nil⟩, fun _ => trivial⟩
  | offset sign hour minute =>
    have parted (signed : sign = '+' ∨ sign = '-') :
        Plain (offset sign hour minute).text ↔ Plain hour ∧ Plain minute := by
      have mark : isDecimal sign = false := by
        rcases signed with rfl | rfl
        · decide
        · decide
      rw [text, plain_cons mark, plain_append, plain_cons (by decide)]
    constructor
    · rintro ⟨signed, hours, minutes, within⟩
      exact ⟨⟨signed, (offset_iff hours minutes).mp within⟩, (parted signed).mpr
        ⟨(plain_iff_digits hours.decimals.all).mpr hours.all,
          (plain_iff_digits minutes.decimals.all).mpr minutes.all⟩⟩
    · rintro ⟨sound, plain⟩
      obtain ⟨plainHours, plainMinutes⟩ := (parted sound.1).mp plain
      obtain ⟨twoHours, twoMinutes⟩ := sound.two
      have hours : Two Char.isDigit hour :=
        ⟨twoHours.length, (plain_iff_digits twoHours.all).mp plainHours⟩
      have minutes : Two Char.isDigit minute :=
        ⟨twoMinutes.length, (plain_iff_digits twoMinutes.all).mp plainMinutes⟩
      exact ⟨sound.1, hours, minutes, (offset_iff hours minutes).mpr sound.2⟩

theorem Sound.follows {zone : Zone} (sound : zone.Sound) : Follows zone.text := by
  cases zone with
  | absent => exact ⟨nofun, nofun⟩
  | utc => exact ⟨ends_cons _ (by decide), by decide⟩
  | offset sign hour minute =>
    obtain ⟨rfl | rfl, -⟩ := sound
    · exact ⟨ends_cons _ (by decide), by simp [text]⟩
    · exact ⟨ends_cons _ (by decide), by simp [text]⟩

theorem unique {one two : Zone} (first : one.Sound) (second : two.Sound)
    (same : one.text = two.text) : one = two := by
  cases one with
  | absent => cases two <;> first | rfl | cases same
  | utc =>
    cases two with
    | absent => cases same
    | utc => rfl
    | offset sign hour minute =>
      obtain ⟨rfl | rfl, -⟩ := second <;> cases same
  | offset sign hour minute =>
    cases two with
    | absent => cases same
    | utc => obtain ⟨rfl | rfl, -⟩ := first <;> cases same
    | offset sign' hour' minute' =>
      obtain ⟨signs, after⟩ := List.cons.inj same
      have lengths : hour.length = hour'.length := first.two.1.length.trans second.two.1.length.symm
      obtain ⟨hours, rest⟩ := List.append_inj after lengths
      rw [signs, hours, (List.cons.inj rest).2]

end Zone

theorem zoneShape_accepts {text : List Char} :
    (Regex.optional zoneShape).accepts text = true ↔
      ∃ zone : Zone, zone.Sound ∧ text = zone.text := by
  rw [Regex.accepts_optional]
  simp only [zoneShape, Regex.digit_eq, Regex.accepts_alt, Regex.accepts_all_cons,
    Regex.accepts_char, Regex.accepts_among, Regex.accepts_seq, Regex.accepts_one,
      Regex.accepts_range, Regex.accepts_text, Regex.accepts_all_nil]
  constructor
  · rintro ((rfl | ⟨_, after, rfl, ⟨sign, known, rfl⟩, parted⟩) | rfl)
    · exact ⟨.utc, trivial, rfl⟩
    · have signed : sign = '+' ∨ sign = '-' := by simpa using known
      obtain ⟨hour, _, rfl, hours, _, _, rfl, rfl, _, _, rfl, ⟨tens, rfl, inside⟩, _, _, rfl,
        ⟨c, rfl, decimal⟩, rfl⟩ |
        rfl := parted
      · have below : Zone.Hours hour := by
          obtain ⟨_, _, rfl, rfl, c, rfl, decimal⟩ | ⟨_, _, rfl, rfl, c, rfl, range⟩ := hours
          · exact ⟨c, .inl ⟨rfl, decimal⟩⟩
          · exact ⟨c, .inr ⟨rfl, range⟩⟩
        exact ⟨.offset sign hour [tens, c],
          ⟨signed, .inl ⟨below, tens, c, rfl, inside, decimal⟩⟩, rfl⟩
      · exact ⟨.offset sign ['1', '4'] ['0', '0'], ⟨signed, .inr ⟨rfl, rfl⟩⟩, rfl⟩
    · exact ⟨.absent, trivial, rfl⟩
  · rintro ⟨zone, sound, rfl⟩
    cases zone with
    | absent => exact .inr rfl
    | utc => exact .inl (.inl rfl)
    | offset sign hour minute =>
      obtain ⟨signed, parts⟩ := sound
      refine .inl (.inr ⟨[sign], hour ++ ':' :: minute, rfl,
        ⟨sign, by simpa using signed, rfl⟩, ?_⟩)
      obtain ⟨⟨c, hours⟩, tens, u, rfl, inside, decimal⟩ | ⟨rfl, rfl⟩ := parts
      · refine .inl ⟨hour, _, rfl, ?_, [':'], _, rfl, rfl, [tens], _, rfl, ⟨tens, rfl, inside⟩,
          [u], [], rfl, ⟨u, rfl, decimal⟩, rfl⟩
        obtain ⟨rfl, decimal⟩ | ⟨rfl, range⟩ := hours
        · exact .inl ⟨['0'], [c], rfl, rfl, c, rfl, decimal⟩
        · exact .inr ⟨['1'], [c], rfl, rfl, c, rfl, range⟩
      · exact .inr rfl

end Zones

end OaGateway.Uci.Primitive
