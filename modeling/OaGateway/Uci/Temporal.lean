import OaGateway.Uci.Durations

/-! What is taken for a date and time, a date, a time of day or a duration, against
the lexical spaces XSD 1.0 gives them. -/
namespace OaGateway.Uci.Primitive

open Lib
open Lib.Regex (isDecimal)

/-- The types of dates, times and durations. -/
inductive Temporal where
  | dateTime
  | date
  | time
  | duration
deriving DecidableEq

def Temporal.kind : Temporal → Kind
  | dateTime => .dateTime
  | date => .date
  | time => .time
  | duration => .duration

/-- A text of one of these types in its parts. -/
inductive Moment where
  | dateTime (day : DateParts) (hour : TimeParts) (zone : Zone)
  | date (day : DateParts) (zone : Zone)
  | time (hour : TimeParts) (zone : Zone)
  | duration (span : DurationParts)

namespace Moment

def type : Moment → Temporal
  | dateTime .. => .dateTime
  | date .. => .date
  | time .. => .time
  | duration _ => .duration

def text : Moment → List Char
  | dateTime day hour zone => day.text ++ 'T' :: (hour.text ++ zone.text)
  | date day zone => day.text ++ zone.text
  | time hour zone => hour.text ++ zone.text
  | duration span => span.text

def Lexical : Moment → Prop
  | dateTime day hour zone => day.Lexical ∧ hour.Lexical ∧ zone.Lexical
  | date day zone => day.Lexical ∧ zone.Lexical
  | time hour zone => hour.Lexical ∧ zone.Lexical
  | duration span => span.Lexical

/-- Well formed but for what the checks let pass. -/
def Sound : Moment → Prop
  | dateTime day hour zone => day.Sound ∧ hour.Sound ∧ zone.Sound
  | date day zone => day.Sound ∧ zone.Sound
  | time hour zone => hour.Sound ∧ zone.Sound
  | duration span => span.Sound

/-- Some number does not fit: a year past 64 bits, or seconds that round to sixty. -/
def Overflows : Moment → Prop
  | dateTime day hour _ => day.Vast ∨ hour.Near
  | date day _ => day.Vast
  | time hour _ => hour.Near
  | duration _ => False

/-- Something passes that XSD has not: a padded year, a fraction past the last stroke
that rounds to nothing, or a digit of another script. -/
def Lax : Moment → Prop
  | dateTime day hour zone => day.Padded ∨ hour.Late ∨ ¬ Plain zone.text
  | date day zone => day.Padded ∨ ¬ Plain zone.text
  | time hour zone => hour.Late ∨ ¬ Plain zone.text
  | duration span => ¬ Plain span.text

section Kinds
variable {holds : Moment → Prop}

theorem exists_dateTime : (∃ moment : Moment, moment.type = .dateTime ∧ holds moment) ↔
    ∃ day hour zone, holds (.dateTime day hour zone) := by
  constructor
  · rintro ⟨moment, same, held⟩
    cases moment <;> cases same
    exact ⟨_, _, _, held⟩
  · rintro ⟨day, hour, zone, held⟩
    exact ⟨_, rfl, held⟩

theorem exists_date : (∃ moment : Moment, moment.type = .date ∧ holds moment) ↔
    ∃ day zone, holds (.date day zone) := by
  constructor
  · rintro ⟨moment, same, held⟩
    cases moment <;> cases same
    exact ⟨_, _, held⟩
  · rintro ⟨day, zone, held⟩
    exact ⟨_, rfl, held⟩

theorem exists_time : (∃ moment : Moment, moment.type = .time ∧ holds moment) ↔
    ∃ hour zone, holds (.time hour zone) := by
  constructor
  · rintro ⟨moment, same, held⟩
    cases moment <;> cases same
    exact ⟨_, _, held⟩
  · rintro ⟨hour, zone, held⟩
    exact ⟨_, rfl, held⟩

theorem exists_duration : (∃ moment : Moment, moment.type = .duration ∧ holds moment) ↔
    ∃ span, holds (.duration span) := by
  constructor
  · rintro ⟨moment, same, held⟩
    cases moment <;> cases same
    exact ⟨_, held⟩
  · rintro ⟨span, held⟩
    exact ⟨_, rfl, held⟩

end Kinds

end Moment

/-- The lexical space of a type, for values of the common era. -/
def LexicalSpace (type : Temporal) (text : List Char) : Prop :=
  ∃ moment : Moment, moment.type = type ∧ moment.Lexical ∧ text = moment.text

/-- A text that stands for a value with a year before the common era. -/
def BeforeCommonEra (type : Temporal) (text : List Char) : Prop :=
  (type = .date ∨ type = .dateTime) ∧ ∃ value, text = '-' :: value ∧ LexicalSpace type value

section Taken

theorem mem_cuts {text : List Char} {cut : List Char × List Char} : cut ∈ cuts text ↔
    text = cut.1 ++ cut.2 := by
  simp only [cuts, List.mem_map, List.mem_range, List.splitAt_eq]
  constructor
  · rintro ⟨place, -, rfl⟩
    exact (List.take_append_drop place text).symm
  · rintro rfl
    refine ⟨cut.1.length, ?_, by simp⟩
    rw [List.length_append]
    omega

/-- Where one cut fits at most, the one that is found is the one there is. -/
theorem zoned_any {front : Regex} {check : List Char → Bool} {text : List Char}
    (unique : ∀ {one two rest more : List Char}, front.accepts one = true →
      front.accepts two = true → (Regex.optional zoneShape).accepts rest = true →
      (Regex.optional zoneShape).accepts more = true →
        one ++ rest = two ++ more → one = two) :
    (zoned front text).any check = true ↔
      ∃ part rest, text = part ++ rest ∧ front.accepts part = true ∧
        (Regex.optional zoneShape).accepts rest = true ∧ check part = true := by
  rw [zoned, Option.any_map, Option.any_eq_true]
  constructor
  · rintro ⟨cut, found, checked⟩
    have whole := mem_cuts.mp (List.mem_of_find?_eq_some found)
    have fits := List.find?_some found
    rw [Bool.and_eq_true] at fits
    exact ⟨cut.1, cut.2, whole, fits.1, fits.2, checked⟩
  · rintro ⟨part, rest, whole, taken, left, checked⟩
    have some : ((cuts text).find? fun cut => front.accepts cut.1 &&
        (Regex.optional zoneShape).accepts cut.2).isSome = true := by
      rw [List.find?_isSome]
      exact ⟨(part, rest), mem_cuts.mpr whole, by rw [taken, left]; rfl⟩
    obtain ⟨cut, found⟩ := Option.isSome_iff_exists.mp some
    have again := mem_cuts.mp (List.mem_of_find?_eq_some found)
    have fits := List.find?_some found
    rw [Bool.and_eq_true] at fits
    have same := unique fits.1 taken fits.2 left (again.symm.trans whole)
    exact ⟨cut, found, by rw [same]; exact checked⟩

theorem dates_any {text : List Char} : (zoned dateShape text).any calendar = true ↔
    ∃ (day : DateParts) (zone : Zone), (day.Sound ∧ zone.Sound) ∧ ¬ day.Vast ∧
      text = day.text ++ zone.text := by
  rw [zoned_any]
  · simp only [dateShape_accepts, zoneShape_accepts]
    constructor
    · rintro ⟨_, _, rfl, ⟨day, spelled, rfl⟩, ⟨zone, sound, rfl⟩, checked⟩
      obtain ⟨real, narrow⟩ := (calendar_text spelled).mp checked
      exact ⟨day, zone, ⟨real, sound⟩, narrow, rfl⟩
    · rintro ⟨day, zone, ⟨real, sound⟩, narrow, rfl⟩
      have spelled := real.spelled.decimals
      exact ⟨_, _, rfl, ⟨day, spelled, rfl⟩, ⟨zone, sound, rfl⟩,
        (calendar_text spelled).mpr ⟨real, narrow⟩⟩
  · intro one two rest more first second ahead behind same
    obtain ⟨day, spelled, rfl⟩ := dateShape_accepts.mp first
    obtain ⟨other, written, rfl⟩ := dateShape_accepts.mp second
    obtain ⟨zone, sound, rfl⟩ := zoneShape_accepts.mp ahead
    obtain ⟨last, known, rfl⟩ := zoneShape_accepts.mp behind
    rw [(DateParts.unique spelled written sound.follows.ends known.follows.ends same).1]

theorem times_any {text : List Char} : (zoned timeShape text).any clock = true ↔
    ∃ (hour : TimeParts) (zone : Zone), (hour.Sound ∧ zone.Sound) ∧ ¬ hour.Near ∧
      text = hour.text ++ zone.text := by
  rw [zoned_any]
  · simp only [timeShape_accepts, zoneShape_accepts]
    constructor
    · rintro ⟨_, _, rfl, ⟨hour, spelled, rfl⟩, ⟨zone, sound, rfl⟩, checked⟩
      obtain ⟨real, apart⟩ := (clock_text spelled).mp checked
      exact ⟨hour, zone, ⟨real, sound⟩, apart, rfl⟩
    · rintro ⟨hour, zone, ⟨real, sound⟩, apart, rfl⟩
      have spelled := real.spelled.decimals
      exact ⟨_, _, rfl, ⟨hour, spelled, rfl⟩, ⟨zone, sound, rfl⟩,
        (clock_text spelled).mpr ⟨real, apart⟩⟩
  · intro one two rest more first second ahead behind same
    obtain ⟨hour, spelled, rfl⟩ := timeShape_accepts.mp first
    obtain ⟨other, written, rfl⟩ := timeShape_accepts.mp second
    obtain ⟨zone, sound, rfl⟩ := zoneShape_accepts.mp ahead
    obtain ⟨last, known, rfl⟩ := zoneShape_accepts.mp behind
    rw [(TimeParts.unique spelled written sound.follows known.follows same).1]

theorem dateTimeOk_iff {text : List Char} : dateTimeOk text = true ↔
    ∃ (day : DateParts) (hour : TimeParts) (zone : Zone), (day.Sound ∧ hour.Sound ∧ zone.Sound) ∧
      ¬ (day.Vast ∨ hour.Near) ∧ text = day.text ++ 'T' :: (hour.text ++ zone.text) := by
  rw [dateTimeOk, List.any_eq_true]
  constructor
  · rintro ⟨⟨front, back⟩, member, taken⟩
    have whole := mem_cuts.mp member
    dsimp only at taken whole
    split at taken
    · rename_i rest
      rw [Bool.and_eq_true, Bool.and_eq_true] at taken
      obtain ⟨⟨shaped, checked⟩, later⟩ := taken
      obtain ⟨day, spelled, rfl⟩ := dateShape_accepts.mp shaped
      obtain ⟨real, narrow⟩ := (calendar_text spelled).mp checked
      obtain ⟨hour, zone, ⟨known, sound⟩, apart, rfl⟩ := times_any.mp later
      exact ⟨day, hour, zone, ⟨real, known, sound⟩, not_or.mpr ⟨narrow, apart⟩, whole⟩
    · cases taken
  · rintro ⟨day, hour, zone, ⟨real, known, sound⟩, fits, rfl⟩
    obtain ⟨narrow, apart⟩ := not_or.mp fits
    have spelled := real.spelled.decimals
    refine ⟨(day.text, 'T' :: (hour.text ++ zone.text)), mem_cuts.mpr rfl, ?_⟩
    change (dateShape.accepts day.text && calendar day.text &&
      (zoned timeShape (hour.text ++ zone.text)).any clock) = true
    rw [dateShape_accepts.mpr ⟨day, spelled, rfl⟩, (calendar_text spelled).mpr ⟨real, narrow⟩,
      times_any.mpr ⟨hour, zone, ⟨known, sound⟩, apart, rfl⟩]
    rfl

theorem durations_iff {text : List Char} :
    (durationShape.accepts text && text.getLast? != some 'P' && text.getLast? != some 'T') = true ↔
      ∃ span : DurationParts, span.Sound ∧ text = span.text := by
  rw [Bool.and_eq_true, Bool.and_eq_true, bne_iff_ne, bne_iff_ne, durationShape_accepts]
  constructor
  · rintro ⟨⟨⟨span, spelled, rfl⟩, first⟩, second⟩
    exact ⟨span, ⟨spelled, span.given_iff.mpr ⟨first, second⟩⟩, rfl⟩
  · rintro ⟨span, ⟨spelled, given⟩, rfl⟩
    obtain ⟨first, second⟩ := span.given_iff.mp given
    exact ⟨⟨⟨span, spelled, rfl⟩, first⟩, second⟩

/-- A text passes when it is sound and no number in it overflows. -/
theorem refuses_temporal {type : Temporal} {text : String} : refuses type.kind text = none ↔
    ∃ moment : Moment, moment.type = type ∧ moment.Sound ∧ ¬ moment.Overflows ∧
      text.toList = moment.text := by
  have decided {passed : Bool} {error : String} : (if passed then none else some error) = none ↔
      passed = true := by
    cases passed <;> simp
  cases type with
  | dateTime =>
    rw [Moment.exists_dateTime]
    exact decided.trans dateTimeOk_iff
  | date =>
    rw [Moment.exists_date]
    exact decided.trans dates_any
  | time =>
    rw [Moment.exists_time]
    exact decided.trans times_any
  | duration =>
    rw [Moment.exists_duration]
    refine (decided.trans durations_iff).trans (exists_congr fun span => ?_)
    exact and_congr_right fun _ => (and_iff_right id).symm

end Taken

section Spaces

/-- A text has its parts in one way, up to what is judged of them. -/
theorem Moment.judged {one two : Moment} (first : one.Sound) (second : two.Sound)
    (type : one.type = two.type) (same : one.text = two.text) : (one.Overflows ↔ two.Overflows) ∧
      (one.Lax ↔ two.Lax) := by
  have letter : isDecimal 'T' = false := by decide
  cases one <;> cases two <;> cases type
  case dateTime.dateTime day hour zone other stroke last =>
    obtain ⟨days, after⟩ := DateParts.unique first.1.spelled.decimals second.1.spelled.decimals
      (ends_cons _ letter)
      (ends_cons _ letter) same
    obtain ⟨hours, zones⟩ := TimeParts.unique first.2.1.spelled.decimals second.2.1.spelled.decimals
      first.2.2.follows second.2.2.follows (List.cons.inj after).2
    rw [days, hours, Zone.unique first.2.2 second.2.2 zones]
    exact ⟨Iff.rfl, Iff.rfl⟩
  case date.date day zone other last =>
    obtain ⟨days, zones⟩ := DateParts.unique first.1.spelled.decimals second.1.spelled.decimals
      first.2.follows.ends
      second.2.follows.ends same
    rw [days, Zone.unique first.2 second.2 zones]
    exact ⟨Iff.rfl, Iff.rfl⟩
  case time.time hour zone stroke last =>
    obtain ⟨hours, zones⟩ := TimeParts.unique first.1.spelled.decimals second.1.spelled.decimals
      first.2.follows
      second.2.follows same
    rw [hours, Zone.unique first.2 second.2 zones]
    exact ⟨Iff.rfl, Iff.rfl⟩
  case duration.duration span other =>
    have plain : Plain span.text ↔ Plain other.text := by rw [show span.text = other.text from same]
    exact ⟨Iff.rfl, not_congr plain⟩

/-- The date has a minus before its year. -/
def Moment.Signed : Moment → Prop
  | dateTime day _ _ => day.minus = true
  | date day _ => day.minus = true
  | time _ _ => False
  | duration _ => False

theorem DateParts.lexical_iff (day : DateParts) : day.Lexical ↔ day.Sound ∧ ¬ day.Padded ∧
    ¬ day.minus = true := by
  rw [Bool.not_eq_true]
  exact ⟨fun lexical => ⟨lexical.toSound, lexical.tight, lexical.common⟩,
    fun ⟨sound, tight, common⟩ => ⟨sound, common, tight⟩⟩

theorem Moment.lexical_iff (moment : Moment) :
    moment.Lexical ↔ moment.Sound ∧ ¬ moment.Lax ∧ ¬ moment.Signed := by
  cases moment with
  | dateTime day hour zone =>
    simp only [Lexical, Sound, Lax, Signed, day.lexical_iff, hour.lexical_iff, zone.lexical_iff]
    tauto
  | date day zone =>
    simp only [Lexical, Sound, Lax, Signed, day.lexical_iff, zone.lexical_iff]
    tauto
  | time hour zone =>
    simp only [Lexical, Sound, Lax, Signed, hour.lexical_iff, zone.lexical_iff]
    tauto
  | duration span =>
    simp only [Lexical, Sound, Lax, Signed, span.lexical_iff]
    tauto

/-- The same moment without the minus. -/
def Moment.unsigned : Moment → Moment
  | dateTime day hour zone => .dateTime { day with minus := false } hour zone
  | date day zone => .date { day with minus := false } zone
  | time hour zone => .time hour zone
  | duration span => .duration span

theorem DateParts.text_minus {day : DateParts} (minus : day.minus = true) :
    day.text = '-' :: DateParts.text { day with minus := false } := by
  simp [text, minus]

theorem DateParts.Sound.common {day : DateParts} (sound : day.Sound) :
    DateParts.Sound { day with minus := false } :=
  ⟨⟨sound.spelled.long, sound.spelled.year, sound.spelled.month, sound.spelled.day⟩, sound.numbered,
    sound.month, sound.day⟩

/-- What has a minus and is well formed apart from it is a value before the common era. -/
theorem Moment.Signed.before {moment : Moment} (signed : moment.Signed) (sound : moment.Sound)
    (strict : ¬ moment.Lax) :
    BeforeCommonEra moment.type moment.text := by
  cases moment with
  | dateTime day hour zone =>
    refine ⟨.inr rfl, _, ?_, .dateTime { day with minus := false } hour zone, rfl, ?_, rfl⟩
    · rw [text, text, DateParts.text_minus signed, List.cons_append]
    · exact (lexical_iff _).mpr ⟨⟨sound.1.common, sound.2⟩, strict, nofun⟩
  | date day zone =>
    refine ⟨.inl rfl, _, ?_, .date { day with minus := false } zone, rfl, ?_, rfl⟩
    · rw [text, text, DateParts.text_minus signed, List.cons_append]
    · exact (lexical_iff _).mpr ⟨⟨sound.1.common, sound.2⟩, strict, nofun⟩
  | time hour zone => exact signed.elim
  | duration span => exact signed.elim

theorem lexicalSpace_iff {type : Temporal} {text : List Char} (era : ¬ BeforeCommonEra type text) :
    LexicalSpace type text ↔ ∃ moment : Moment, moment.type = type ∧ moment.Sound ∧ ¬ moment.Lax ∧
      text = moment.text := by
  constructor
  · rintro ⟨moment, same, lexical, whole⟩
    obtain ⟨sound, strict, -⟩ := moment.lexical_iff.mp lexical
    exact ⟨moment, same, sound, strict, whole⟩
  · rintro ⟨moment, rfl, sound, strict, rfl⟩
    exact ⟨moment, rfl, moment.lexical_iff.mpr
      ⟨sound, strict, fun signed => era (signed.before sound strict)⟩, rfl⟩

/-- The checks are exact but where a number overflows, or where something is let pass
that XSD has not; where both come together they are exact again. -/
theorem temporal_exact_iff (type : Temporal) (text : String)
    (era : ¬ BeforeCommonEra type text.toList) :
    (refuses type.kind text = none ↔ LexicalSpace type text.toList) ↔
      ∀ moment : Moment, moment.type = type → moment.Sound → text.toList = moment.text →
        (moment.Overflows ↔ moment.Lax) := by
  rw [refuses_temporal, lexicalSpace_iff era]
  constructor
  · intro exact moment same sound whole
    constructor
    · intro overflows
      by_contra strict
      obtain ⟨other, type', sound', fits, whole'⟩ := exact.mpr ⟨moment, same, sound, strict, whole⟩
      exact fits
        ((Moment.judged sound sound' (same.trans type'.symm) (whole.symm.trans whole')).1.mp
        overflows)
    · intro lax
      by_contra fits
      obtain ⟨other, type', sound', strict, whole'⟩ := exact.mp ⟨moment, same, sound, fits, whole⟩
      exact strict
        ((Moment.judged sound sound' (same.trans type'.symm) (whole.symm.trans whole')).2.mp lax)
  · intro agree
    constructor
    · rintro ⟨moment, same, sound, fits, whole⟩
      exact ⟨moment, same, sound, fun lax => fits ((agree moment same sound whole).mpr lax), whole⟩
    · rintro ⟨moment, same, sound, strict, whole⟩
      exact ⟨moment, same, sound, fun overflows =>
        strict ((agree moment same sound whole).mp overflows), whole⟩

/-- One day, its digit of the Arabic script. -/
def arabicDay : String := "P\u0661D"

theorem arabicDay_foreign : ¬ Plain arabicDay.toList := by
  intro plain
  exact plain '\u0661' (by decide) ⟨by decide, by decide⟩

/-- It is taken, and no duration of XSD. -/
theorem arabicDay_taken :
    ¬ BeforeCommonEra .duration arabicDay.toList ∧ refuses Temporal.duration.kind arabicDay = none ∧
      ¬ LexicalSpace .duration arabicDay.toList := by
  refine ⟨?_, by decide +kernel, ?_⟩
  · rintro ⟨known, -⟩
    rcases known with same | same <;> cases same
  · rintro ⟨moment, same, lexical, whole⟩
    cases moment with
    | dateTime day hour zone => cases same
    | date day zone => cases same
    | time hour zone => cases same
    | duration span =>
      refine arabicDay_foreign ?_
      rw [whole]
      exact (span.lexical_iff.mp lexical).2

theorem leapDay_exact :
    (refuses Temporal.date.kind "2024-02-29" = none ↔ LexicalSpace .date "2024-02-29".toList) ↔
      ∀ moment : Moment, moment.type = .date → moment.Sound → "2024-02-29".toList = moment.text →
        (moment.Overflows ↔ moment.Lax) := by
  apply temporal_exact_iff .date "2024-02-29"
  rintro ⟨-, value, same, -⟩
  have first : some '2' = some '-' := congrArg List.head? same
  cases first

end Spaces

end OaGateway.Uci.Primitive
