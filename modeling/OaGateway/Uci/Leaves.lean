import OaGateway.Lib.Numeral
import OaGateway.Uci.Comments
import OaGateway.Uci.Validate

/-! A leaf's text on its way into the tree: how the two readers take it, and
what is left of it for the validator to judge. -/
namespace OaGateway.Uci

open Lib Lib.Json

section Kinds

/-- The classes of primitives the readers tell apart. -/
inductive Class (primitive : String) : Prop where
  | boolean (named : primitive = "xs:boolean") (known : Primitive.kind primitive = .boolean)
  | integer (min max : Int) (known : Primitive.kind primitive = .integer min max)
      (other : primitive ≠ "xs:boolean")
  | number (exponent special : Bool) (known : Primitive.kind primitive = .number exponent special)
      (other : primitive ≠ "xs:boolean") (numeric : numericTypes.contains primitive = true)
  | text (carried : ∀ text, parseText primitive text = .string text)
      (other : primitive ≠ "xs:boolean") (plain : numericTypes.contains primitive = false)
      (whole : ∀ min max, Primitive.kind primitive ≠ .integer min max)
      (decimal : ∀ exponent special, Primitive.kind primitive ≠ .number exponent special)

theorem class_of (primitive : String) : Class primitive := by
  cases known : Primitive.kind primitive with
  | boolean =>
    refine .boolean ?_ known
    unfold Primitive.kind at known
    split at known <;> first | rfl | cases known
  | integer min max =>
    refine .integer min max known ?_
    rintro rfl
    cases known
  | number exponent special =>
    refine .number exponent special known ?_ ?_
    · rintro rfl
      cases known
    · unfold Primitive.kind at known
      split at known <;> first | rfl | cases known
  | dateTime | date | time | duration | hexBinary | text =>
    refine .text ?_ ?_ ?_ (by simp [known]) (by simp [known])
    · intro text
      rw [parseText, known]
    · rintro rfl
      cases known
    · rw [← Bool.not_eq_true]
      intro member
      simp only [numericTypes, List.contains_iff_mem, List.mem_cons,
        List.not_mem_nil, or_false] at member
      rcases member with rfl | rfl | rfl | rfl | rfl | rfl | rfl | rfl <;> cases known

end Kinds

section Readers
variable {crates : Crates}

/-- The texts of a primitive that JSON and XML are read alike. The JSON reader
knows five of the integer types and tries a double where those overflow; it
reads a whole number of the other numeric types as an integer. -/
def ReadAlike (primitive text : String) : Prop :=
  match Primitive.kind primitive with
  | .integer _ _ =>
    if numericTypes.contains primitive then
      (parseI64 text).isSome = true ∨
        parseU64 text = none ∧ (F64.parse text).bind Number.fromF64 = none
    else parseI64 text = none ∧ parseU64 text = none
  | .number _ _ => parseI64 text = none
  | _ => True

/-- A double is not the number of an integer. -/
theorem ofI64_ne_fromF64 {value : Int} {double : F64} :
    Number.fromF64 double ≠ some (.ofI64 value) := by
  rw [Number.fromF64, Number.ofI64]
  split
  · split <;> simp
  · simp

theorem ofU64_ne_fromF64 {value : Nat} {double : F64} :
    Number.fromF64 double ≠ some (.ofU64 value) := by
  rw [Number.fromF64, Number.ofU64]
  split <;> simp

theorem parseNumericString_of_plain (plain : numericTypes.contains primitive = false)
    (text : String) :
    parseNumericString primitive text = none := by
  rw [parseNumericString, plain]
  rfl

/-- Both readers make the same leaf of a text exactly when it is one that is
read alike. -/
theorem leaf_readers_agree_iff (primitive text path : String) :
    readSimple crates (.string text) primitive path = .ok (parseText primitive text) ↔
      ReadAlike primitive text := by
  rw [readSimple, ReadAlike]
  cases class_of primitive with
  | boolean named known =>
    subst named
    rw [parseText, known, parseNumericString_of_plain rfl]
    by_cases yes : text = "true" ∨ text = "1"
    · simp [yes]
    · by_cases no : text = "false" ∨ text = "0" <;> simp [yes, no]
  | integer min max known other =>
    simp only [other, false_and, ↓reduceIte, known, parseText, Except.ok.injEq]
    by_cases numeric : numericTypes.contains primitive = true
    · simp only [numeric, ↓reduceIte, parseNumericString]
      cases parseI64 text with
      | some value => simp
      | none =>
        cases parseU64 text with
        | some value =>
          cases found : (F64.parse text).bind Number.fromF64 with
          | none => simp
          | some double =>
            obtain ⟨read, -, finite⟩ := Option.bind_eq_some_iff.mp found
            have different : double ≠ .ofU64 value.toNat :=
              fun same => ofU64_ne_fromF64 (same ▸ finite)
            simp [different]
        | none => cases (F64.parse text).bind Number.fromF64 <;> simp
    · rw [Bool.not_eq_true] at numeric
      simp only [numeric, parseNumericString_of_plain numeric, Bool.false_eq_true, ↓reduceIte]
      cases parseI64 text with
      | some value => simp
      | none => cases parseU64 text <;> simp
  | number exponent special known other numeric =>
    simp only [other, false_and, ↓reduceIte, known, parseText, Except.ok.injEq,
      parseNumericString, numeric]
    cases parseI64 text with
    | none => cases (F64.parse text).bind Number.fromF64 <;> simp
    | some value =>
      cases found : (F64.parse text).bind Number.fromF64 with
      | none => simp
      | some double =>
        obtain ⟨read, -, finite⟩ := Option.bind_eq_some_iff.mp found
        have different : Number.ofI64 value ≠ double := fun same => ofI64_ne_fromF64 (same ▸ finite)
        simp [different]
  | text carried other plain whole decimal =>
    simp only [other, false_and, ↓reduceIte, carried, parseNumericString_of_plain plain,
      Option.getD_none]

/-- A count in quotes stays a string in JSON and is a number in XML. -/
theorem leaf_readers_differ :
    readSimple bareCrates (.string "42") "xs:unsignedInt" "n" = .ok (.string "42") ∧
      parseText "xs:unsignedInt" "42" = .number (.posInt 42) := by decide

end Readers

section Judged
variable {crates : Crates} {schema : Schema}

/-- What the enumeration, the length facets and the patterns find in a text. -/
def formFindings (schema : Schema) (text typeName : String) : List ViolationKind :=
  let facets := schema.effectiveFacets typeName
  let (len, unit) := valueLength text (schema.primitive typeName)
  finding facets.enumeration (fun allowed => !allowed.contains text)
      (fun allowed => .notEnumerated text (allowed.take 4) allowed.length) ++
    (finding facets.length (len != ·)
      (fun exact => .length text len unit ("exactly " ++ toString exact)) ++
        finding facets.minLength (len < ·)
        (fun min => .length text len unit ("at least " ++ toString min)) ++
      finding facets.maxLength (len > ·)
        (fun max => .length text len unit ("at most " ++ toString max))) ++
    (facets.patterns.filter fun alternatives => !alternatives.any fun pattern =>
      pattern.accepts text).map
      fun alternatives => .patternMismatch text (alternatives.map Pattern.source)

/-- What the numeric bounds find in a text. -/
def rangeFindings (crates : Crates) (schema : Schema) (text typeName : String) :
    List ViolationKind :=
  let facets := schema.effectiveFacets typeName
  match F64.parse text with
  | none => []
  | some number =>
    finding facets.minInclusive (F64.lt number ·)
      (fun min => .range text ("at least " ++ crates.floatDisplay min)) ++
    finding facets.maxInclusive (F64.lt · number)
      (fun max => .range text ("at most " ++ crates.floatDisplay max)) ++
    finding facets.minExclusive (F64.le number ·)
      (fun min => .range text ("greater than " ++ crates.floatDisplay min)) ++
    finding facets.maxExclusive (F64.le · number)
      (fun max => .range text ("less than " ++ crates.floatDisplay max))

theorem valueFindings_eq (text typeName : String) :
    valueFindings crates schema text typeName =
      match Primitive.refuses (Primitive.kind (schema.primitive typeName)) text with
      | some expected => [.notLexical text (schema.primitive typeName) expected]
      | none => formFindings schema text typeName ++ rangeFindings crates schema text typeName := by
  rw [valueFindings]
  cases Primitive.refuses (Primitive.kind (schema.primitive typeName)) text <;> rfl

/-- The text a leaf was judged by. -/
def ViolationKind.judged : ViolationKind → Option String
  | .notEnumerated value _ _ | .length value _ _ _ | .range value _ | .patternMismatch value _
  | .notLexical value _ _ => some value
  | _ => none

private theorem judged_finding {Bound : Type} {bound : Option Bound} {broken : Bound → Bool}
    {kind : Bound → ViolationKind} (names : ∀ limit, (kind limit).judged = some text) :
    ∀ found ∈ finding bound broken kind, found.judged = some text := by
  intro found member
  unfold finding at member
  split at member
  · split at member
    · cases List.mem_singleton.mp member
      exact names _
    · simp at member
  · simp at member

/-- Every finding about a leaf names the text that was judged. -/
theorem judged_valueFindings {text typeName : String} :
    ∀ found ∈ valueFindings crates schema text typeName, found.judged = some text := by
  intro found member
  rw [valueFindings_eq] at member
  split at member
  · cases List.mem_singleton.mp member
    rfl
  · rcases List.mem_append.mp member with inForm | inRange
    · simp only [formFindings, List.mem_append, List.mem_map] at inForm
      rcases inForm with (enumerated | (exact | least) | most) | ⟨alternatives, -, rfl⟩
      · exact judged_finding (fun _ => rfl) found enumerated
      · exact judged_finding (fun _ => rfl) found exact
      · exact judged_finding (fun _ => rfl) found least
      · exact judged_finding (fun _ => rfl) found most
      · rfl
    · rw [rangeFindings] at inRange
      split at inRange
      · simp at inRange
      · simp only [List.mem_append] at inRange
        rcases inRange with ((first | second) | third) | fourth
        · exact judged_finding (fun _ => rfl) found first
        · exact judged_finding (fun _ => rfl) found second
        · exact judged_finding (fun _ => rfl) found third
        · exact judged_finding (fun _ => rfl) found fourth

theorem noteAll_eq (path : String) (kinds : List ViolationKind) (out : List Violation) :
    noteAll path kinds out = out ++ (kinds.map (⟨path, ·⟩)).take (maxViolations - out.length) := by
  induction kinds generalizing out with
  | nil => simp [noteAll]
  | cons kind kinds ih =>
    have step : noteAll path (kind :: kinds) out = noteAll path kinds (note path kind out) := rfl
    rw [step, ih, note]
    split
    · rename_i room
      have left : maxViolations - out.length = maxViolations - (out.length + 1) + 1 := by omega
      simp [left]
    · rename_i crowded
      have none : maxViolations - out.length = 0 := by omega
      simp [none]

/-- With room left, findings on two texts are reported alike only if there are
none, or the texts are the same. -/
theorem noteAll_valueFindings_eq_iff {text other typeName path : String} {out : List Violation}
    (room : full out = false) :
    noteAll path (valueFindings crates schema text typeName) out =
        noteAll path (valueFindings crates schema other typeName) out ↔
      text = other ∨
        valueFindings crates schema text typeName = [] ∧
            valueFindings crates schema other typeName = [] := by
  obtain ⟨left, more⟩ : ∃ left, maxViolations - out.length = left + 1 := by
    simp only [full, ge_iff_le, decide_eq_false_iff_not, Nat.not_le] at room
    exact ⟨maxViolations - out.length - 1, by omega⟩
  rw [noteAll_eq, noteAll_eq, List.append_cancel_left_eq, more]
  constructor
  · intro same
    cases first : valueFindings crates schema text typeName with
    | nil =>
      cases second : valueFindings crates schema other typeName with
      | nil => exact .inr ⟨rfl, rfl⟩
      | cons => simp [first, second] at same
    | cons found rest =>
      cases second : valueFindings crates schema other typeName with
      | nil => simp [first, second] at same
      | cons mark later =>
        left
        simp only [first, second, List.map_cons, List.take_succ_cons, List.cons.injEq,
          Violation.mk.injEq, true_and] at same
        have here := judged_valueFindings found (first ▸ List.mem_cons_self)
        have there := judged_valueFindings mark (second ▸ List.mem_cons_self)
        rw [same.1, there] at here
        exact (Option.some.inj here).symm
  · rintro (rfl | ⟨first, second⟩)
    · rfl
    · rw [first, second]

theorem numberPrint_ofI64 {value : Int} (lower : -2 ^ 63 ≤ value) (upper : value ≤ 2 ^ 63 - 1) :
    crates.numberPrint (.ofI64 value) = toString value := by
  rw [Number.ofI64]
  split
  · rename_i positive
    obtain ⟨number, rfl⟩ := Int.eq_ofNat_of_zero_le positive
    have small : number < 2 ^ 64 := by omega
    rw [Crates.numberPrint, Int.toNat_natCast, UInt64.toNat_ofNat', Nat.mod_eq_of_lt small]
    rfl
  · rw [Crates.numberPrint, Int64.toInt_ofInt_of_le (by omega) (by omega)]

theorem numberPrint_ofU64 {value : Int} (lower : 0 ≤ value) (upper : value ≤ 2 ^ 64 - 1) :
    crates.numberPrint (.ofU64 value.toNat) = toString value := by
  obtain ⟨number, rfl⟩ := Int.eq_ofNat_of_zero_le lower
  have small : number < 2 ^ 64 := by omega
  rw [Number.ofU64, Crates.numberPrint, Int.toNat_natCast, UInt64.toNat_ofNat',
    Nat.mod_eq_of_lt small]
  rfl

/-- The canonical form of a text: a boolean as a word, a numeral of 64 bits in
plain decimal. -/
def canonicalForm (kind : Primitive.Kind) (text : String) : String :=
  match kind with
  | .boolean => if text = "1" then "true" else if text = "0" then "false" else text
  | .integer _ _ =>
    if isNumeral text.toList ∧ -2 ^ 63 ≤ numeralValue text.toList ∧
        numeralValue text.toList < 2 ^ 64 then
      toString (numeralValue text.toList)
    else text
  | _ => text

/-- A numeral above the signed range has no minus. -/
theorem isNegative_of_large (large : 0 < numeralValue text) : isNegative text = false := by
  rw [numeralValue] at large
  split at large
  · omega
  · simpa using ‹¬ isNegative text = true›

/-- A numeral of 64 bits is read by one of the parsers. -/
theorem parse_of_small {text : String} (numeral : isNumeral text.toList = true)
    (lower : -2 ^ 63 ≤ numeralValue text.toList) (upper : numeralValue text.toList < 2 ^ 64) :
    parseI64 text ≠ none ∨ parseU64 text ≠ none := by
  by_cases small : numeralValue text.toList ≤ 2 ^ 63 - 1
  · left
    have read := parseInteger_eq_some.mpr ⟨numeral, fun _ => by decide, rfl, lower, small⟩
    rw [parseI64, read]
    exact Option.some_ne_none _
  · right
    have sign := isNegative_of_large (show 0 < numeralValue text.toList by omega)
    have read := @parseInteger_eq_some 0 (2 ^ 64 - 1) _ _ |>.mpr
      ⟨numeral, by simp [sign], rfl, by omega, by omega⟩
    rw [parseU64, read]
    exact Option.some_ne_none _

/-- What a boolean, an integer or a text is read as from XML prints as its canonical form. -/
theorem asText_of_parseText (exact : Primitive.kind primitive = .boolean ∨
    (∃ low high, Primitive.kind primitive = .integer low high) ∨ Primitive.kind primitive = .text)
    (text : String) : (parseText primitive text).asText crates =
      canonicalForm (Primitive.kind primitive) text := by
  rcases exact with known | ⟨low, high, known⟩ | known
  · rw [parseText, known, canonicalForm]
    by_cases yes : text = "true" ∨ text = "1"
    · rcases yes with rfl | rfl <;> simp [Simple.asText]
    · by_cases no : text = "false" ∨ text = "0"
      · rcases no with rfl | rfl <;> simp [Simple.asText]
      · simp only [not_or] at yes no
        simp [yes, no, Simple.asText]
  · rw [parseText, known, canonicalForm]
    dsimp only
    split
    · rename_i value read
      obtain ⟨numeral, -, same, lower, upper⟩ := parseInteger_eq_some.mp read
      rw [if_pos ⟨numeral, by omega, by omega⟩, Simple.asText, numberPrint_ofI64 lower upper, same]
    · rename_i unread
      split
      · rename_i value read
        obtain ⟨numeral, -, same, lower, upper⟩ := parseInteger_eq_some.mp read
        rw [if_pos ⟨numeral, by omega, by omega⟩, Simple.asText,
          numberPrint_ofU64 lower upper, same]
      · rename_i also
        rw [if_neg, Simple.asText]
        rintro ⟨numeral, lower, upper⟩
        rcases parse_of_small numeral lower upper with signed | large
        · exact signed unread
        · exact large also
  · rw [parseText, known]
    rfl

/-- The canonical form of an integer is the text, or another numeral for its number. -/
theorem canonicalForm_integer (low high : Int) (text : String) :
    canonicalForm (.integer low high) text = text ∨
      isNumeral text.toList = true ∧
      isNumeral (canonicalForm (.integer low high) text).toList = true ∧
        numeralValue (canonicalForm (.integer low high) text).toList =
            numeralValue text.toList := by
  rw [canonicalForm]
  split
  · rename_i small
    obtain ⟨printed, meant, -⟩ := numeral_toString (numeralValue text.toList)
    exact .inr ⟨small.1, printed, meant⟩
  · exact .inl rfl

theorem integral_eq (text : List Char) : Primitive.integral text = isNumeral text := by
  unfold Primitive.integral isNumeral unsigned
  split <;> split <;> simp_all

/-- Numerals for one number fit the same integer types. -/
theorem refuses_integer {first second : String} (numeral : isNumeral first.toList = true)
    (other : isNumeral second.toList = true)
    (same : numeralValue first.toList = numeralValue second.toList) (min max : Int) :
    Primitive.refuses (.integer min max) first = Primitive.refuses (.integer min max) second := by
  have parsed : parseI128 first = parseI128 second := by
    apply Option.ext
    intro value
    simp [parseI128, parseInteger_eq_some, numeral, other, same]
  simp only [Primitive.refuses, integral_eq, numeral, other, parsed]

theorem finding_eq_nil {Bound : Type} {bound : Option Bound} {broken : Bound → Bool}
    {kind : Bound → ViolationKind} : finding bound broken kind = [] ↔
      ∀ limit ∈ bound, broken limit = false := by
  cases bound with
  | none => simp [finding]
  | some limit => cases held : broken limit <;> simp [finding, held]

/-- Numerals for one number are in range alike. -/
theorem rangeFindings_integer {first second typeName : String}
    (numeral : isNumeral first.toList = true) (other : isNumeral second.toList = true)
    (same : numeralValue first.toList = numeralValue second.toList)
    (quiet : rangeFindings crates schema first typeName = []) :
    rangeFindings crates schema second typeName = [] := by
  obtain ⟨one, two, read, again, number, also, rank⟩ := F64.rank_numeral numeral other same
  simp only [rangeFindings, read, again, List.append_eq_nil_iff, finding_eq_nil, F64.lt,
    F64.le, number, also, rank] at quiet ⊢
  exact quiet

theorem canonicalForm_boolean (text : String) :
    canonicalForm .boolean text = text ∨ canonicalForm .boolean text = "true" ∨
      canonicalForm .boolean text = "false" := by
  rw [canonicalForm]
  split
  · exact .inr (.inl rfl)
  · split
    · exact .inr (.inr rfl)
    · exact .inl rfl

/-- A word has no range. -/
theorem rangeFindings_word {word typeName : String} (unread : F64.parse word = none) :
    rangeFindings crates schema word typeName = [] := by
  rw [rangeFindings, unread]

/-- A text that fits its type has a canonical form that does, as far as its
number and the bounds on it go. -/
theorem valueFindings_canonicalForm {text typeName : String}
    (exact : Primitive.kind (schema.primitive typeName) = .boolean ∨
      (∃ low high, Primitive.kind (schema.primitive typeName) = .integer low high) ∨
      Primitive.kind (schema.primitive typeName) = .text)
    (fits : valueFindings crates schema text typeName = [])
    (form : formFindings schema (canonicalForm (Primitive.kind (schema.primitive typeName)) text)
      typeName = []) :
    valueFindings crates schema (canonicalForm (Primitive.kind (schema.primitive typeName)) text)
      typeName = [] := by
  rw [valueFindings_eq] at fits ⊢
  rcases exact with known | ⟨low, high, known⟩ | known
  · rw [known] at form fits ⊢
    rcases canonicalForm_boolean text with same | same | same
    · rw [same]
      exact fits
    · rw [same] at form ⊢
      rw [form, rangeFindings_word (by decide)]
      rfl
    · rw [same] at form ⊢
      rw [form, rangeFindings_word (by decide)]
      rfl
  · rw [known] at form fits ⊢
    rcases canonicalForm_integer low high text with same | ⟨numeral, printed, value⟩
    · rw [same]
      exact fits
    · rw [refuses_integer printed numeral value]
      cases lexical : Primitive.refuses (.integer low high) text with
      | some expected => simp [lexical] at fits
      | none =>
        simp only [lexical, List.append_eq_nil_iff] at fits ⊢
        exact ⟨form, rangeFindings_integer numeral printed value.symm fits.2⟩
  · rw [known] at fits ⊢
    exact fits

/-- A leaf read from XML is judged as written exactly when the text is in
canonical form, or it fits the type and no enumeration, length or pattern tells
its canonical form from it. -/
theorem check_leaf_iff {node : Xml.Node} {leaf : Node} {typeName path place : String}
    {out : List Violation} (simple : schema.isSimple typeName = true)
    (exact : Primitive.kind (schema.primitive typeName) = .boolean ∨
      (∃ low high, Primitive.kind (schema.primitive typeName) = .integer low high) ∨
      Primitive.kind (schema.primitive typeName) = .text)
    (read : readElement schema (levels + 1) node typeName path = .ok leaf)
    (room : full out = false) :
    check crates schema (depth + 1) leaf typeName place out =
        noteAll place (valueFindings crates schema (leafText node) typeName) out ↔
      canonicalForm (Primitive.kind (schema.primitive typeName)) (leafText node) = leafText node ∨
        valueFindings crates schema (leafText node) typeName = [] ∧
          formFindings schema (canonicalForm (Primitive.kind (schema.primitive typeName))
            (leafText node)) typeName =
            [] := by
  rw [readElement_leaf (by simp [Schema.isLeaf, simple])] at read
  cases read
  rw [check, room]
  simp only [Bool.false_eq_true, ↓reduceIte]
  rw [asText_of_parseText exact, noteAll_valueFindings_eq_iff room]
  refine or_congr_right ?_
  constructor
  · rintro ⟨carried, fits⟩
    refine ⟨fits, ?_⟩
    rw [valueFindings_eq] at carried
    split at carried
    · cases carried
    · exact (List.append_eq_nil_iff.mp carried).1
  · rintro ⟨fits, form⟩
    exact ⟨valueFindings_canonicalForm exact fits form, fits⟩

/-- A type of booleans written as digits. -/
def flagSchema : Schema where
  globalElements := ∅
  complexTypes := ∅
  simpleTypes := Finmap.insert "FlagType" ⟨"xs:boolean", { enumeration := ["0", "1"] }⟩ ∅

def flagElement (text : String) : Xml.Node := .element ⟨none, "Flag"⟩ [] [.text text]

theorem check_leaf_true :
    check bareCrates flagSchema 1 (.simple (.bool true)) "xs:boolean" "Flag" [] =
      noteAll "Flag" (valueFindings bareCrates flagSchema "1" "xs:boolean") [] := by
  have read : readElement flagSchema 1 (flagElement "1") "xs:boolean" "Flag" =
    .ok (.simple (.bool true)) := rfl
  exact (check_leaf_iff (by decide) (.inl (by decide)) read (by decide)).mpr (.inr (by decide))

/-- An enumerated `1` is read as a boolean, and `true` is not enumerated. -/
theorem check_leaf_one :
    readElement flagSchema 1 (flagElement "1") "FlagType" "Flag" = .ok (.simple (.bool true)) ∧
      valueFindings bareCrates flagSchema "1" "FlagType" = [] ∧
      check bareCrates flagSchema 1 (.simple (.bool true)) "FlagType" "Flag" [] =
        [⟨"Flag", .notEnumerated "true" ["0", "1"] 2⟩] := by
  refine ⟨rfl, ?_, ?_⟩ <;> decide

end Judged

end OaGateway.Uci
