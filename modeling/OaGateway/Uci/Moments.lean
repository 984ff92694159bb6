import Mathlib.Algebra.Order.Field.Rat
import Mathlib.Data.List.Basic
import OaGateway.Lib.Rounding
import OaGateway.Uci.Primitive

/-! Dates, times of day and zones: what XSD 1.0 has for their texts, and the texts
that pass the checks. -/
namespace OaGateway.Uci.Primitive

open Lib
open Lib.Regex (isDecimal Foreign)

section Fields

/-- The number that digits stand for. -/
def valueOf (digits : List Char) : Nat := Nat.ofDigitChars 10 digits 0

/-- Two characters of a kind. -/
structure Two (reads : Char → Bool) (text : List Char) : Prop where
  length : text.length = 2
  all : ∀ c ∈ text, reads c = true

/-- What follows a run of digits: nothing more of it. -/
def Ends (rest : List Char) : Prop := ∀ c ∈ rest.head?, isDecimal c = false

/-- A run of digits ends in one place. -/
theorem run_unique {one two rest more : List Char} (first : ∀ c ∈ one, isDecimal c = true)
    (second : ∀ c ∈ two, isDecimal c = true) (ends : Ends rest) (other : Ends more)
    (same : one ++ rest = two ++ more) : one = two ∧ rest = more := by
  have front {run rest : List Char} (all : ∀ c ∈ run, isDecimal c = true) (ends : Ends rest) :
      (run ++ rest).takeWhile isDecimal = run := by
    rw [List.takeWhile_append_of_pos all]
    cases rest with
    | nil => simp
    | cons c rest => rw [List.takeWhile_cons_of_neg (by simp [ends c rfl]), List.append_nil]
  have equal : one = two := by rw [← front first ends, same, front second other]
  subst equal
  exact ⟨rfl, List.append_cancel_left same⟩

theorem ends_cons {c : Char} (rest : List Char) (plain : isDecimal c = false) :
    Ends (c :: rest) := by
  rintro d ⟨⟩
  exact plain

theorem head_decimal {run : List Char} (all : ∀ c ∈ run, isDecimal c = true) (some : run ≠ [])
    (plain : isDecimal mark = false) (rest more : List Char) : run ++ rest ≠ mark :: more := by
  intro same
  obtain ⟨head, tail, rfl⟩ := List.exists_cons_of_ne_nil some
  obtain rfl := (List.cons.inj same).1
  rw [all head List.mem_cons_self] at plain
  cases plain

theorem Two.ne_nil {reads : Char → Bool} {text : List Char} (two : Two reads text) : text ≠ [] := by
  rintro rfl
  exact absurd two.length (by decide)

theorem Two.decimals {text : List Char} (two : Two Char.isDigit text) : Two isDecimal text :=
  ⟨two.length, fun c member => Regex.isDecimal_of_isDigit (two.all c member)⟩

theorem mark_notMem {text : List Char} (all : ∀ c ∈ text, isDecimal c = true)
    (plain : isDecimal mark = false) :
    mark ∉ text := by
  intro member
  rw [all mark member] at plain
  cases plain

/-- No digit is of another script. -/
def Plain (text : List Char) : Prop := ∀ c ∈ text, ¬ Foreign c

theorem plain_append {front back : List Char} : Plain (front ++ back) ↔ Plain front ∧ Plain back :=
  List.forall_mem_append

theorem plain_cons {mark : Char} (other : isDecimal mark = false) {text : List Char} :
    Plain (mark :: text) ↔ Plain text := by
  rw [Plain, List.forall_mem_cons, and_iff_right]
  · exact Iff.rfl
  · intro odd
    rw [odd.decimal] at other
    cases other

theorem plain_nil : Plain [] := nofun

theorem plain_iff_digits {text : List Char} (decimals : ∀ c ∈ text, isDecimal c = true) :
    Plain text ↔ ∀ c ∈ text, c.isDigit = true := by
  refine forall₂_congr fun c member => ⟨fun native => ?_, fun digit odd => ?_⟩
  · exact Decidable.byContradiction fun other => native ⟨decimals c member, by simpa using other⟩
  · rw [odd.outside] at digit
    cases digit

theorem valueOf_two (a b : Char) :
    valueOf [a, b] = 10 * (a.toNat - '0'.toNat) + (b.toNat - '0'.toNat) := by
  simp [valueOf, Nat.ofDigitChars_cons]

theorem Two.value_lt {text : List Char} (two : Two Char.isDigit text) : valueOf text < 100 := by
  obtain ⟨length, all⟩ := two
  obtain ⟨a, b, rfl⟩ := List.length_eq_two.mp length
  have digit (c : Char) (digit : c.isDigit = true) : c.toNat - '0'.toNat ≤ 9 := by
    have zero : '0'.toNat = 48 := rfl
    rw [Regex.isDigit_iff] at digit
    omega
  have tens := digit a (all a (by simp))
  have ones := digit b (all b (by simp))
  rw [valueOf_two]
  omega

/-- A parser reads a run of digits when they are of ASCII and their number fits. -/
theorem parseInteger_decimals {min max : Int} {text : List Char} (some : text ≠ [])
    (all : ∀ c ∈ text, isDecimal c = true) :
    parseInteger min max (.ofList text) =
      if text.all Char.isDigit = true ∧ min ≤ valueOf text ∧ valueOf text ≤ max then .some
          (valueOf text : Int) else none := by
  obtain ⟨first, rest, rfl⟩ := List.exists_cons_of_ne_nil some
  obtain ⟨sign, bare⟩ := F64.unsigned_decimal (all first List.mem_cons_self) rest
  refine Option.ext fun value => ?_
  rw [parseInteger_eq_some, String.toList_ofList, isNumeral, numeralValue, sign, bare,
    Option.ite_none_right_eq_some]
  simp only [List.isEmpty_cons, Bool.not_false, Bool.true_and, Bool.false_eq_true, ↓reduceIte,
    false_implies, true_and, Option.some.injEq, valueOf]
  constructor
  · rintro ⟨digits, rfl, bounds⟩
    exact ⟨⟨digits, bounds⟩, rfl⟩
  · rintro ⟨⟨digits, bounds⟩, rfl⟩
    exact ⟨digits, rfl, bounds⟩

theorem parseU32_two {text : List Char} (two : Two isDecimal text) :
    parseU32 (.ofList text) = if text.all Char.isDigit = true then some (valueOf text : Int)
      else none := by
  rw [parseU32, parseInteger_decimals two.ne_nil two.all]
  by_cases digits : text.all Char.isDigit = true
  · have small := @Two.value_lt text ⟨two.length, List.all_eq_true.mp digits⟩
    rw [if_pos digits, if_pos ⟨digits, by omega, by omega⟩]
  · rw [if_neg digits, if_neg fun all => digits all.1]

theorem not_all_digits {text : List Char} (odd : text.all Char.isDigit = false) :
    ¬ ∀ c ∈ text, c.isDigit = true := by
  intro all
  rw [List.all_eq_true.mpr all] at odd
  cases odd

end Fields

section Dates

structure DateParts where
  minus : Bool
  year : List Char
  month : List Char
  day : List Char

/-- How many days a month has in the Gregorian calendar. -/
def monthLength (year month : Nat) : Nat :=
  if month = 2 then if 4 ∣ year ∧ (100 ∣ year → 400 ∣ year) then 29 else 28
  else if month ∈ [4, 6, 9, 11] then 30
  else 31

namespace DateParts

def text (date : DateParts) : List Char :=
  (if date.minus then ['-'] else []) ++ (date.year ++ '-' :: (date.month ++ '-' :: date.day))

structure Spelled (reads : Char → Bool) (date : DateParts) : Prop where
  long : 4 ≤ date.year.length
  year : ∀ c ∈ date.year, reads c = true
  month : Two reads date.month
  day : Two reads date.day

/-- A day that there is, in a year with a number. -/
structure Sound (date : DateParts) : Prop where
  spelled : date.Spelled Char.isDigit
  numbered : valueOf date.year ≠ 0
  month : 1 ≤ valueOf date.month ∧ valueOf date.month ≤ 12
  day : 1 ≤ valueOf date.day ∧ valueOf date.day ≤
    monthLength (valueOf date.year) (valueOf date.month)

/-- Zeros before a year of more than four digits. -/
def Padded (date : DateParts) : Prop := 4 < date.year.length ∧ date.year.head? = some '0'

/-- A date of the common era as XSD writes it. -/
structure Lexical (date : DateParts) : Prop extends date.Sound where
  common : date.minus = false
  tight : ¬ date.Padded

/-- A year past 64 bits. -/
def Vast (date : DateParts) : Prop := 2 ^ 63 ≤ valueOf date.year

theorem Spelled.decimals {date : DateParts} (spelled : date.Spelled Char.isDigit) :
    date.Spelled isDecimal where
  long := spelled.long
  year c member := Regex.isDecimal_of_isDigit (spelled.year c member)
  month := spelled.month.decimals
  day := spelled.day.decimals

theorem Spelled.year_ne_nil {reads : Char → Bool} {date : DateParts}
    (spelled : date.Spelled reads) : date.year ≠ [] := by
  intro none
  have long := spelled.long
  rw [none] at long
  exact absurd long (by decide)

/-- The text of a date has its parts in one way. -/
theorem unique {one two : DateParts} {rest more : List Char} (first : one.Spelled isDecimal)
    (second : two.Spelled isDecimal) (ends : Ends rest) (other : Ends more)
    (same : one.text ++ rest = two.text ++ more) : one = two ∧ rest = more := by
  have dash : isDecimal '-' = false := by decide
  obtain ⟨minus, year, month, day⟩ := one
  obtain ⟨minus', year', month', day'⟩ := two
  have signs : minus = minus' := by
    simp only [text, List.append_assoc] at same
    cases minus <;> cases minus'
    · rfl
    · exact absurd same (head_decimal first.year first.year_ne_nil dash _ _)
    · exact absurd same.symm (head_decimal second.year second.year_ne_nil dash _ _)
    · rfl
  subst signs
  simp only [text, List.append_assoc, List.append_cancel_left_eq, List.cons_append] at same
  obtain ⟨years, after⟩ := run_unique first.year second.year (ends_cons _ dash)
    (ends_cons _ dash) same
  obtain ⟨months, last⟩ := run_unique first.month.all second.month.all (ends_cons _ dash)
    (ends_cons _ dash)
    (List.cons.inj after).2
  obtain ⟨days, left⟩ := run_unique first.day.all second.day.all ends other (List.cons.inj last).2
  dsimp only at years months days
  rw [years, months, days]
  exact ⟨rfl, left⟩

end DateParts

theorem dateShape_accepts {text : List Char} :
    dateShape.accepts text = true ↔
      ∃ date : DateParts, date.Spelled isDecimal ∧ text = date.text := by
  simp only [dateShape, Regex.digit_eq, Regex.accepts_all_cons, Regex.accepts_optional,
    Regex.accepts_char, Regex.accepts_times_one, Regex.accepts_star_one, Regex.accepts_all_nil]
  constructor
  · rintro ⟨sign, _, rfl, signed, four, _, rfl, ⟨length, front⟩, longer, _, rfl, later, _, _, rfl,
      rfl, month, _, rfl, ⟨two, months⟩, _, _, rfl, rfl, day, _, rfl, ⟨pair, days⟩, rfl⟩
    have year : ∀ c ∈ four ++ longer, isDecimal c = true :=
      List.forall_mem_append.mpr ⟨front, later⟩
    have long : 4 ≤ (four ++ longer).length := by
      rw [List.length_append]
      omega
    obtain rfl | rfl := signed
    · exact ⟨⟨true, four ++ longer, month, day⟩,
        ⟨long, year, ⟨two, months⟩, ⟨pair, days⟩⟩, by simp [DateParts.text]⟩
    · exact ⟨⟨false, four ++ longer, month, day⟩,
        ⟨long, year, ⟨two, months⟩, ⟨pair, days⟩⟩, by simp [DateParts.text]⟩
  · rintro ⟨⟨minus, year, month, day⟩, ⟨long, years, ⟨two, months⟩, ⟨pair, days⟩⟩, rfl⟩
    have whole : (DateParts.mk minus year month day).text =
        (if minus then ['-'] else []) ++
            (year.take 4 ++ (year.drop 4 ++ (['-'] ++ (month ++ (['-'] ++ (day ++ [])))))) := by
      rw [← List.append_assoc (year.take 4), List.take_append_drop]
      simp [DateParts.text]
    have signed : (if minus then ['-'] else []) = ['-'] ∨ (if minus then ['-'] else []) = [] := by
      cases minus <;> simp
    rw [whole]
    exact ⟨_, _, rfl, signed, _, _, rfl,
      ⟨by simpa using long, fun c member => years c (List.mem_of_mem_take member)⟩,
      _, _, rfl, fun c member => years c (List.mem_of_mem_drop member),
      _, _, rfl, rfl, _, _, rfl, ⟨two, months⟩, _, _, rfl, rfl, _, _, rfl, ⟨pair, days⟩, rfl⟩

theorem rsplitDash_append {front back : List Char} (without : '-' ∉ back) :
    rsplitDash (front ++ '-' :: back) = some (front, back) := by
  have dash : (front ++ '-' :: back).contains '-' = true := by simp
  have last : afterLast '-' (front ++ '-' :: back) = back := by
    have solid : ∀ c ∈ back.reverse, (c != '-') = true := by
      intro c member
      rw [bne_iff_ne]
      rintro rfl
      exact without (List.mem_reverse.mp member)
    rw [afterLast, List.reverse_append, List.reverse_cons, List.append_assoc, List.singleton_append,
      List.takeWhile_append_of_pos solid, List.takeWhile_cons_of_neg (by simp), List.append_nil,
        List.reverse_reverse]
  have length : (front ++ '-' :: back).length - back.length - 1 = front.length := by
    rw [List.length_append, List.length_cons]
    omega
  rw [rsplitDash, if_pos dash, last]
  simp only [length, List.take_left]

theorem isLeap_iff (year : Nat) : isLeap year = true ↔ 4 ∣ year ∧ (100 ∣ year → 400 ∣ year) := by
  simp only [isLeap, Bool.and_eq_true, Bool.or_eq_true, beq_iff_eq, bne_iff_ne]
  omega

theorem lastDay_eq (year : Nat) {month : Nat} (season : 1 ≤ month ∧ month ≤ 12) :
    lastDay year month = monthLength year month := by
  obtain ⟨first, last⟩ := season
  have leap := isLeap_iff year
  by_cases february : month = 2
  · subst february
    by_cases long : 4 ∣ year ∧ (100 ∣ year → 400 ∣ year)
    · rw [monthLength, if_pos rfl, if_pos long]
      simp [lastDay, leap.mpr long]
    · have short : isLeap year = false := by simpa using mt leap.mp long
      rw [monthLength, if_pos rfl, if_neg long]
      simp [lastDay, short]
  · have known : month ∈ [1, 3, 4, 5, 6, 7, 8, 9, 10, 11, 12] := by
      simp only [List.mem_cons, List.not_mem_nil, or_false]
      omega
    simp only [List.mem_cons, List.not_mem_nil, or_false] at known
    rcases known with rfl | rfl | rfl | rfl | rfl | rfl | rfl | rfl | rfl | rfl | rfl <;> rfl

theorem dayExists_iff (year month day : Nat) :
    (if (year : Int) == 0 || !(decide (1 ≤ (month : Int)) && decide ((month : Int) ≤ 12)) ||
      (day : Int) == 0 then false
      else decide ((day : Int) ≤ lastDay year month)) = true ↔
      year ≠ 0 ∧ (1 ≤ month ∧ month ≤ 12) ∧ 1 ≤ day ∧ day ≤ monthLength year month := by
  by_cases season : 1 ≤ month ∧ month ≤ 12
  · rw [lastDay_eq year season]
    simp
    omega
  · simp
    omega

/-- The calendar takes the days that there are, up to years of 64 bits. -/
theorem calendar_text {date : DateParts} (spelled : date.Spelled isDecimal) :
    calendar date.text = true ↔ date.Sound ∧ ¬ date.Vast := by
  have dash : isDecimal '-' = false := by decide
  have whole : date.text = (((if date.minus then ['-'] else []) ++ date.year) ++ '-' :: date.month)
      ++ '-' :: date.day := by
    simp [DateParts.text]
  have bare : ((if date.minus then ['-'] else []) ++ date.year).dropWhile (· == '-') =
      date.year := by
    obtain ⟨first, rest, same⟩ := List.exists_cons_of_ne_nil spelled.year_ne_nil
    have head : (first == '-') = false := by
      rw [beq_eq_false_iff_ne]
      rintro rfl
      exact mark_notMem spelled.year dash (by simp [same])
    rw [same]
    cases date.minus <;> simp [head]
  rw [calendar, whole, rsplitDash_append (mark_notMem spelled.day.all dash)]
  dsimp only
  rw [rsplitDash_append (mark_notMem spelled.month.all dash)]
  dsimp only
  rw [bare, parseU32_two spelled.day, parseU32_two spelled.month, parseI64,
    parseInteger_decimals spelled.year_ne_nil spelled.year]
  cases days : date.day.all Char.isDigit with
  | false =>
    exact ⟨by simp, fun sound => absurd sound.1.spelled.day.all (not_all_digits days)⟩
  | true =>
    cases months : date.month.all Char.isDigit with
    | false =>
      exact ⟨by simp, fun sound => absurd sound.1.spelled.month.all (not_all_digits months)⟩
    | true =>
      by_cases fits : date.year.all Char.isDigit = true ∧ (-2 ^ 63 : Int) ≤ valueOf date.year ∧
          (valueOf date.year : Int) ≤ 2 ^ 63 - 1
      · simp only [if_pos fits, ↓reduceIte]
        rw [dayExists_iff]
        have narrow : ¬ date.Vast := by
          rw [DateParts.Vast]
          omega
        constructor
        · rintro ⟨numbered, month, day⟩
          exact ⟨⟨⟨spelled.long, List.all_eq_true.mp fits.1,
            ⟨spelled.month.length, List.all_eq_true.mp months⟩,
              ⟨spelled.day.length, List.all_eq_true.mp days⟩⟩, numbered, month, day⟩, narrow⟩
        · rintro ⟨sound, -⟩
          exact ⟨sound.numbered, sound.month, sound.day⟩
      · simp only [if_neg fits, ↓reduceIte, Bool.false_eq_true, false_iff]
        rintro ⟨sound, narrow⟩
        rw [DateParts.Vast] at narrow
        exact fits ⟨List.all_eq_true.mpr sound.spelled.year, by omega, by omega⟩

end Dates

end OaGateway.Uci.Primitive
