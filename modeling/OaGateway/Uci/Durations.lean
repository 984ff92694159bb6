import OaGateway.Uci.Clocks

/-! Durations: their parts, and which of them the check takes. -/
namespace OaGateway.Uci.Primitive

open Lib
open Lib.Regex (isDecimal Foreign)
open Lib.F64 (decimalText)

/-- At least one digit. -/
structure Number (reads : Char → Bool) (digits : List Char) : Prop where
  some : digits ≠ []
  all : ∀ c ∈ digits, reads c = true

/-- A number and the letter of its unit, if there is one. -/
def unitText (unit : Char) (number : Option (List Char)) : List Char := number.elim [] (· ++ [unit])

/-- A number of seconds, which may have a fraction. -/
structure SecondSpan where
  whole : List Char
  fraction : Option (List Char)

def SecondSpan.text (second : SecondSpan) : List Char :=
  decimalText second.whole second.fraction ++ ['S']

structure SecondSpan.Spelled (reads : Char → Bool) (second : SecondSpan) : Prop where
  whole : Number reads second.whole
  fraction : ∀ digits ∈ second.fraction, Number reads digits

/-- What stands behind the `T`. -/
structure ClockSpan where
  hour : Option (List Char)
  minute : Option (List Char)
  second : Option SecondSpan

namespace ClockSpan

def text (time : ClockSpan) : List Char :=
  unitText 'H' time.hour ++ (unitText 'M' time.minute ++ time.second.elim [] SecondSpan.text)

structure Spelled (reads : Char → Bool) (time : ClockSpan) : Prop where
  hour : ∀ digits ∈ time.hour, Number reads digits
  minute : ∀ digits ∈ time.minute, Number reads digits
  second : ∀ second ∈ time.second, second.Spelled reads

/-- Some component is there. -/
def Given (time : ClockSpan) : Prop := time.hour ≠ none ∨ time.minute ≠ none ∨ time.second ≠ none

end ClockSpan

structure DurationParts where
  minus : Bool
  year : Option (List Char)
  month : Option (List Char)
  day : Option (List Char)
  time : Option ClockSpan

namespace DurationParts

def text (duration : DurationParts) : List Char :=
  (if duration.minus then ['-'] else []) ++ 'P' ::
    (unitText 'Y' duration.year ++
      (unitText 'M' duration.month ++
      (unitText 'D' duration.day ++ duration.time.elim [] ('T' :: ·.text))))

structure Spelled (reads : Char → Bool) (duration : DurationParts) : Prop where
  year : ∀ digits ∈ duration.year, Number reads digits
  month : ∀ digits ∈ duration.month, Number reads digits
  day : ∀ digits ∈ duration.day, Number reads digits
  time : ∀ time ∈ duration.time, time.Spelled reads

/-- Some component is there, and one behind the `T` if that is. -/
structure Given (duration : DurationParts) : Prop where
  some : duration.year ≠ none ∨ duration.month ≠ none ∨ duration.day ≠ none ∨ duration.time ≠ none
  timed : ∀ time ∈ duration.time, time.Given

/-- A duration as XSD writes it. -/
structure Lexical (duration : DurationParts) : Prop where
  spelled : duration.Spelled Char.isDigit
  given : duration.Given

/-- A duration, whatever script its digits are of. -/
structure Sound (duration : DurationParts) : Prop where
  spelled : duration.Spelled isDecimal
  given : duration.Given

end DurationParts

section Shape

theorem component_accepts {unit : Char} {text : List Char} :
    (component unit).accepts text = true ↔
      ∃ number : Option (List Char), (∀ digits ∈ number, Number isDecimal digits) ∧
          text = unitText unit number := by
  rw [component, Regex.accepts_optional, Regex.accepts_seq, Regex.digit_eq]
  simp only [Regex.accepts_plus_one, Regex.accepts_char]
  constructor
  · rintro (⟨digits, _, rfl, ⟨some, all⟩, rfl⟩ | rfl)
    · refine ⟨.some digits, ?_, rfl⟩
      rintro _ ⟨⟩
      exact ⟨some, all⟩
    · exact ⟨none, nofun, rfl⟩
  · rintro ⟨number, numbers, rfl⟩
    cases number with
    | none => exact .inr rfl
    | some digits =>
      obtain ⟨some, all⟩ := numbers digits rfl
      exact .inl ⟨digits, [unit], rfl, ⟨some, all⟩, rfl⟩

theorem secondShape_accepts {text : List Char} :
    (Regex.optional (.all [.plus .digit, .optional (.seq (.char '.') (.plus .digit)),
      .char 'S'])).accepts text = true ↔
      ∃ second : Option SecondSpan, (∀ span ∈ second, span.Spelled isDecimal) ∧
          text = second.elim [] SecondSpan.text := by
  simp only [Regex.digit_eq, Regex.accepts_optional, Regex.accepts_all_cons, Regex.accepts_seq,
    Regex.accepts_char, Regex.accepts_plus_one, Regex.accepts_all_nil]
  constructor
  · rintro (⟨whole, _, rfl, ⟨some, all⟩, _, _, rfl, fraction, _, _, rfl, rfl, rfl⟩ | rfl)
    · obtain ⟨_, digits, rfl, rfl, given, decimals⟩ | rfl := fraction
      · refine ⟨.some ⟨whole, .some digits⟩, ?_, by simp [SecondSpan.text, decimalText]⟩
        rintro _ ⟨⟩
        refine ⟨⟨some, all⟩, ?_⟩
        rintro _ ⟨⟩
        exact ⟨given, decimals⟩
      · refine ⟨.some ⟨whole, none⟩, ?_, by simp [SecondSpan.text, decimalText]⟩
        rintro _ ⟨⟩
        exact ⟨⟨some, all⟩, by simp⟩
    · exact ⟨none, by simp, rfl⟩
  · rintro ⟨second, spelled, rfl⟩
    cases second with
    | none => exact .inr rfl
    | some second =>
      obtain ⟨⟨some, all⟩, fractions⟩ := spelled second rfl
      have whole : (Option.some second).elim [] SecondSpan.text =
          second.whole ++ (second.fraction.elim [] ('.' :: ·) ++ (['S'] ++ [])) := by
        simp [SecondSpan.text, decimalText]
      have fractional :
        (∃ front back, second.fraction.elim [] ('.' :: ·) = front ++ back ∧
        front = ['.'] ∧ back ≠ [] ∧
          ∀ c ∈ back, isDecimal c = true) ∨ second.fraction.elim [] ('.' :: ·) = [] := by
        cases held : second.fraction with
        | none => exact .inr rfl
        | some digits =>
          obtain ⟨given, decimals⟩ := fractions digits held
          exact .inl ⟨['.'], digits, rfl, rfl, given, decimals⟩
      rw [whole]
      exact .inl ⟨_, _, rfl, ⟨some, all⟩, _, _, rfl, fractional, _, _, rfl, rfl, rfl⟩

theorem clockShape_accepts {text : List Char} :
    (Regex.optional (.all [.char 'T', component 'H', component 'M',
      .optional (.all [.plus .digit, .optional (.seq (.char '.') (.plus .digit)),
        .char 'S'])])).accepts text = true ↔
      ∃ time : Option ClockSpan, (∀ span ∈ time, span.Spelled isDecimal) ∧ text = time.elim []
          ('T' :: ·.text) := by
  rw [Regex.accepts_optional, Regex.accepts_char_all]
  simp only [Regex.accepts_all_cons, component_accepts, secondShape_accepts, Regex.accepts_all_nil]
  constructor
  · rintro (⟨_, rfl, _, _, rfl, ⟨hour, hours, rfl⟩, _, _, rfl, ⟨minute, minutes, rfl⟩, _, _, rfl,
      ⟨second, seconds, rfl⟩, rfl⟩ | rfl)
    · refine ⟨some ⟨hour, minute, second⟩, ?_, by simp [ClockSpan.text]⟩
      rintro _ ⟨⟩
      exact ⟨hours, minutes, seconds⟩
    · exact ⟨none, nofun, rfl⟩
  · rintro ⟨time, spelled, rfl⟩
    cases time with
    | none => exact .inr rfl
    | some time =>
      obtain ⟨hours, minutes, seconds⟩ := spelled time rfl
      have whole : (some time).elim [] ('T' :: ClockSpan.text ·) =
          'T' :: (unitText 'H' time.hour ++
              (unitText 'M' time.minute ++ (time.second.elim [] SecondSpan.text ++ []))) := by
        simp [ClockSpan.text]
      rw [whole]
      exact .inl ⟨_, rfl, _, _, rfl, ⟨_, hours, rfl⟩, _, _, rfl, ⟨_, minutes, rfl⟩, _, _, rfl,
        ⟨_, seconds, rfl⟩, rfl⟩

theorem durationShape_accepts {text : List Char} :
    durationShape.accepts text = true ↔
      ∃ duration : DurationParts, duration.Spelled isDecimal ∧ text = duration.text := by
  have shape : durationShape = .all [.optional (.char '-'), .char 'P', component 'Y', component 'M',
    component 'D',
      .optional (.all [.char 'T', component 'H', component 'M',
        .optional (.all [.plus .digit, .optional (.seq (.char '.') (.plus .digit)),
          .char 'S'])])] := rfl
  have minus {text : List Char} : (Regex.optional (.char '-')).accepts text = true ↔ text = ['-'] ∨
      text = [] := by
    rw [Regex.accepts_optional, Regex.accepts_char]
  rw [shape]
  simp only [Regex.accepts_all_cons, Regex.accepts_char, minus, component_accepts,
    clockShape_accepts, Regex.accepts_all_nil]
  constructor
  · rintro ⟨sign, _, rfl, signed, _, _, rfl, rfl, _, _, rfl, ⟨year, years, rfl⟩, _, _, rfl,
      ⟨month, months, rfl⟩, _, _, rfl, ⟨day, days, rfl⟩, _, _, rfl, ⟨time, times, rfl⟩, rfl⟩
    obtain rfl | rfl := signed
    · exact ⟨⟨true, year, month, day, time⟩,
        ⟨years, months, days, times⟩, by simp [DurationParts.text]⟩
    · exact ⟨⟨false, year, month, day, time⟩,
        ⟨years, months, days, times⟩, by simp [DurationParts.text]⟩
  · rintro ⟨duration, ⟨years, months, days, times⟩, rfl⟩
    have whole : duration.text = (if duration.minus then ['-'] else []) ++
      (['P'] ++ (unitText 'Y' duration.year ++
        (unitText 'M' duration.month ++ (unitText 'D' duration.day ++
          (duration.time.elim [] ('T' :: ClockSpan.text ·) ++ []))))) := by
      simp [DurationParts.text]
    have signed : (if duration.minus then ['-'] else []) = ['-'] ∨
        (if duration.minus then ['-'] else []) = [] := by
      cases duration.minus <;> simp
    rw [whole]
    exact ⟨_, _, rfl, signed, _, _, rfl, rfl, _, _, rfl, ⟨_, years, rfl⟩, _, _, rfl,
      ⟨_, months, rfl⟩, _, _, rfl, ⟨_, days, rfl⟩, _, _, rfl, ⟨_, times, rfl⟩, rfl⟩

end Shape

section Ending

theorem getLast?_unitText (unit : Char) (number : Option (List Char)) :
    (unitText unit number).getLast? = number.map fun _ => unit := by
  cases number with
  | none => rfl
  | some digits => simp [unitText]

theorem getLast?_second (second : Option SecondSpan) :
    (second.elim [] SecondSpan.text).getLast? = second.map fun _ => 'S' := by
  cases second with
  | none => rfl
  | some second => simp [SecondSpan.text]

theorem ClockSpan.getLast?_text (time : ClockSpan) :
    ('T' :: time.text).getLast? = (time.second.map fun _ => 'S').or
      ((time.minute.map fun _ => 'M').or ((time.hour.map fun _ => 'H').or (some 'T'))) := by
  rw [ClockSpan.text, ← List.singleton_append, List.getLast?_append, List.getLast?_append,
    List.getLast?_append, getLast?_unitText, getLast?_unitText, getLast?_second, Option.or_assoc,
      Option.or_assoc]
  rfl

theorem DurationParts.getLast?_text (duration : DurationParts) :
    duration.text.getLast? = (duration.time.elim [] ('T' :: ClockSpan.text ·)).getLast?.or
      ((duration.day.map fun _ => 'D').or ((duration.month.map fun _ => 'M').or
        ((duration.year.map fun _ => 'Y').or (some 'P')))) := by
  have whole : duration.text = ((if duration.minus then ['-'] else []) ++ ['P']) ++
    (unitText 'Y' duration.year ++
      (unitText 'M' duration.month ++
          (unitText 'D' duration.day ++ duration.time.elim [] ('T' :: ClockSpan.text ·)))) := by
    simp [DurationParts.text]
  have start : ((if duration.minus then ['-'] else []) ++ ['P']).getLast? = some 'P' := by
    cases duration.minus <;> rfl
  rw [whole, List.getLast?_append, List.getLast?_append, List.getLast?_append,
    List.getLast?_append, start, getLast?_unitText, getLast?_unitText, getLast?_unitText,
      Option.or_assoc, Option.or_assoc, Option.or_assoc]

/-- The two endings that are refused are those of a text with a component missing. -/
theorem DurationParts.given_iff (duration : DurationParts) :
    duration.Given ↔ duration.text.getLast? ≠ some 'P' ∧ duration.text.getLast? ≠ some 'T' := by
  rw [getLast?_text]
  obtain ⟨minus, year, month, day, time⟩ := duration
  cases time with
  | none =>
    have untimed : (∀ time ∈ (none : Option ClockSpan), time.Given) := nofun
    constructor
    · rintro ⟨some, -⟩
      cases year <;> cases month <;> cases day <;> simp_all
    · intro ends
      refine ⟨?_, untimed⟩
      cases year <;> cases month <;> cases day <;> simp_all
  | some time =>
    have timed : (∀ span ∈ some time, ClockSpan.Given span) ↔ time.Given := by simp
    obtain ⟨hour, minute, second⟩ := time
    rw [Option.elim_some, ClockSpan.getLast?_text]
    constructor
    · rintro ⟨-, given⟩
      have given := timed.mp given
      rw [ClockSpan.Given] at given
      cases hour <;> cases minute <;> cases second <;> simp_all
    · intro ends
      refine ⟨.inr (.inr (.inr nofun)), timed.mpr ?_⟩
      rw [ClockSpan.Given]
      cases hour <;> cases minute <;> cases second <;> simp_all

end Ending

section Scripts

theorem Number.plain_iff {digits : List Char} (number : Number isDecimal digits) :
    Plain digits ↔ Number Char.isDigit digits := by
  rw [plain_iff_digits number.all]
  exact ⟨fun all => ⟨number.some, all⟩, Number.all⟩

theorem unit_plain_iff {unit : Char} (letter : isDecimal unit = false) {number : Option (List Char)}
    (numbers : ∀ digits ∈ number, Number isDecimal digits) :
    Plain (unitText unit number) ↔ ∀ digits ∈ number, Number Char.isDigit digits := by
  cases number with
  | none => exact ⟨fun _ => nofun, fun _ => plain_nil⟩
  | some digits =>
    have last : Plain [unit] := (plain_cons letter).mpr plain_nil
    have text : unitText unit (some digits) = digits ++ [unit] := rfl
    rw [text, plain_append, and_iff_left last, (numbers digits rfl).plain_iff]
    simp

theorem SecondSpan.Spelled.plain_iff {second : SecondSpan} (spelled : second.Spelled isDecimal) :
    Plain second.text ↔ second.Spelled Char.isDigit := by
  have last : Plain ['S'] := (plain_cons (by decide)).mpr plain_nil
  have parted : Plain (second.fraction.elim [] ('.' :: ·)) ↔
      ∀ digits ∈ second.fraction, Number Char.isDigit digits := by
    cases held : second.fraction with
    | none => exact ⟨fun _ => nofun, fun _ => plain_nil⟩
    | some digits =>
      rw [Option.elim_some, plain_cons (by decide), (spelled.fraction digits held).plain_iff]
      simp
  rw [text, decimalText, plain_append, plain_append, and_iff_left last,
    spelled.whole.plain_iff, parted]
  exact ⟨fun both => ⟨both.1, both.2⟩, fun both => ⟨both.1, both.2⟩⟩

theorem ClockSpan.Spelled.plain_iff {time : ClockSpan} (spelled : time.Spelled isDecimal) :
    Plain time.text ↔ time.Spelled Char.isDigit := by
  have seconds : Plain (time.second.elim [] SecondSpan.text) ↔
      ∀ second ∈ time.second, second.Spelled Char.isDigit := by
    cases held : time.second with
    | none => exact ⟨fun _ => nofun, fun _ => plain_nil⟩
    | some second =>
      rw [Option.elim_some, (spelled.second second held).plain_iff]
      simp
  rw [text, plain_append, plain_append, unit_plain_iff (by decide) spelled.hour,
    unit_plain_iff (by decide) spelled.minute, seconds]
  exact ⟨fun ⟨hour, minute, second⟩ => ⟨hour, minute, second⟩, fun ⟨hour, minute, second⟩ =>
    ⟨hour, minute, second⟩⟩

theorem DurationParts.Spelled.plain_iff {duration : DurationParts}
    (spelled : duration.Spelled isDecimal) :
    Plain duration.text ↔ duration.Spelled Char.isDigit := by
  have sign : Plain (if duration.minus then ['-'] else []) := by
    cases duration.minus
    · exact plain_nil
    · exact (plain_cons (by decide)).mpr plain_nil
  have times : Plain (duration.time.elim [] ('T' :: ClockSpan.text ·)) ↔
      ∀ time ∈ duration.time, time.Spelled Char.isDigit := by
    cases held : duration.time with
    | none => exact ⟨fun _ => nofun, fun _ => plain_nil⟩
    | some time =>
      rw [Option.elim_some, plain_cons (by decide), (spelled.time time held).plain_iff]
      simp
  rw [text, plain_append, and_iff_right sign, plain_cons (by decide), plain_append,
    plain_append, plain_append, unit_plain_iff (by decide) spelled.year,
      unit_plain_iff (by decide) spelled.month,
    unit_plain_iff (by decide) spelled.day, times]
  exact ⟨fun ⟨year, month, day, time⟩ => ⟨year, month, day, time⟩,
    fun ⟨year, month, day, time⟩ => ⟨year, month, day, time⟩⟩

theorem Number.decimals {digits : List Char} (number : Number Char.isDigit digits) :
    Number isDecimal digits :=
  ⟨number.some, fun c member => Regex.isDecimal_of_isDigit (number.all c member)⟩

theorem DurationParts.Spelled.decimals {duration : DurationParts}
    (spelled : duration.Spelled Char.isDigit) :
    duration.Spelled isDecimal where
  year digits held := (spelled.year digits held).decimals
  month digits held := (spelled.month digits held).decimals
  day digits held := (spelled.day digits held).decimals
  time time held :=
    have times := spelled.time time held
    ⟨fun digits held => (times.hour digits held).decimals, fun digits held =>
      (times.minute digits held).decimals, fun second held =>
        ⟨(times.second second held).whole.decimals, fun digits fraction =>
          ((times.second second held).fraction digits fraction).decimals⟩⟩

theorem DurationParts.lexical_iff (duration : DurationParts) :
    duration.Lexical ↔ duration.Sound ∧ Plain duration.text := by
  constructor
  · rintro ⟨spelled, given⟩
    exact ⟨⟨spelled.decimals, given⟩, spelled.decimals.plain_iff.mpr spelled⟩
  · rintro ⟨⟨spelled, given⟩, plain⟩
    exact ⟨spelled.plain_iff.mp plain, given⟩

end Scripts

end OaGateway.Uci.Primitive
