import OaGateway.Lib.Regex

/-! The texts a regular expression accepts, by the way it is built. -/
namespace OaGateway.Lib.Regex

section Derivatives

theorem accepts_nil (regex : Regex) : regex.accepts [] = regex.nullable := rfl

theorem accepts_cons (regex : Regex) (c : Char) (text : List Char) :
    regex.accepts (c :: text) = (regex.deriv c).accepts text := rfl

theorem accepts_never (text : List Char) : never.accepts text = false := by
  induction text with
  | nil => rfl
  | cons c text ih => exact ih

theorem accepts_empty {text : List Char} : empty.accepts text = true ↔ text = [] := by
  cases text with
  | nil => exact ⟨fun _ => rfl, fun _ => rfl⟩
  | cons c text => simp [accepts_cons, deriv, accepts_never]

theorem accepts_one {test : Char → Bool} {text : List Char} :
    (one test).accepts text = true ↔ ∃ c, text = [c] ∧ test c = true := by
  cases text with
  | nil => simp [accepts_nil, nullable]
  | cons c text =>
    rw [accepts_cons, deriv]
    split
    · rename_i passes
      rw [accepts_empty]
      constructor
      · rintro rfl
        exact ⟨c, rfl, passes⟩
      · rintro ⟨_, whole, _⟩
        exact (List.cons.inj whole).2
    · rename_i fails
      rw [accepts_never]
      refine ⟨nofun, ?_⟩
      rintro ⟨_, whole, passes⟩
      cases whole
      exact absurd passes fails

theorem accepts_alt {first second : Regex} {text : List Char} :
    (alt first second).accepts text = true ↔ first.accepts text = true ∨
      second.accepts text = true := by
  induction text generalizing first second with
  | nil => simp [accepts_nil, nullable]
  | cons c text ih =>
    rw [accepts_cons, deriv, ih]
    rfl

/-- A sequence takes a text that can be cut between its two parts. -/
theorem accepts_seq {first second : Regex} {text : List Char} :
    (seq first second).accepts text = true ↔
      ∃ front back, text = front ++ back ∧ first.accepts front = true ∧
          second.accepts back = true := by
  induction text generalizing first with
  | nil =>
    rw [accepts_nil, nullable, Bool.and_eq_true]
    constructor
    · exact fun both => ⟨[], [], rfl, both⟩
    · rintro ⟨front, back, whole, taken⟩
      obtain ⟨rfl, rfl⟩ := List.append_eq_nil_iff.mp whole.symm
      exact taken
  | cons c text ih =>
    -- The first part may be over before the character is read.
    have started : (seq (first.deriv c) second).accepts text = true ↔
        ∃ front back, c :: text = (c :: front) ++ back ∧ first.accepts (c :: front) = true ∧
          second.accepts back = true := by
      rw [ih]
      simp only [List.cons_append, List.cons.injEq, true_and]
      exact Iff.rfl
    have parted : (∃ front back, c :: text = front ++ back ∧ first.accepts front = true ∧
        second.accepts back = true) ↔
        (first.nullable = true ∧ (second.deriv c).accepts text = true) ∨
          (seq (first.deriv c) second).accepts text = true := by
      rw [started]
      constructor
      · rintro ⟨front, back, whole, taken, left⟩
        cases front with
        | nil =>
          rw [List.nil_append] at whole
          subst whole
          exact .inl ⟨taken, left⟩
        | cons head front =>
          obtain rfl : c = head := (List.cons.inj whole).1
          exact .inr ⟨front, back, whole, taken, left⟩
      · rintro (⟨finished, left⟩ | ⟨front, back, whole, taken, left⟩)
        · exact ⟨[], c :: text, rfl, finished, left⟩
        · exact ⟨c :: front, back, whole, taken, left⟩
    rw [parted, accepts_cons, deriv]
    split
    · rename_i finished
      rw [accepts_alt]
      simp [finished, or_comm]
    · rename_i more
      simp [more]

theorem accepts_star_cons {inner : Regex} {c : Char} {text : List Char} :
    (star inner).accepts (c :: text) = true ↔
      ∃ front back, text = front ++ back ∧ inner.accepts (c :: front) = true ∧
          (star inner).accepts back = true := by
  rw [accepts_cons, deriv, accepts_seq]
  exact Iff.rfl

end Derivatives

section Shapes
variable {inner : Regex} {test : Char → Bool} {text : List Char}

theorem accepts_star_one : (star (one test)).accepts text = true ↔ ∀ c ∈ text, test c = true := by
  induction text with
  | nil => exact ⟨fun _ => nofun, fun _ => rfl⟩
  | cons c text ih =>
    rw [accepts_star_cons, List.forall_mem_cons, ← ih]
    constructor
    · rintro ⟨front, back, rfl, taken, left⟩
      obtain ⟨head, whole, passes⟩ := accepts_one.mp taken
      cases whole
      exact ⟨passes, left⟩
    · rintro ⟨passes, left⟩
      exact ⟨[], text, rfl, accepts_one.mpr ⟨c, rfl, passes⟩, left⟩

theorem accepts_plus_one : (plus (one test)).accepts text = true ↔ text ≠ [] ∧
    ∀ c ∈ text, test c = true := by
  rw [plus, accepts_seq]
  constructor
  · rintro ⟨front, back, rfl, taken, left⟩
    obtain ⟨head, rfl, passes⟩ := accepts_one.mp taken
    exact ⟨List.cons_ne_nil _ _, List.forall_mem_cons.mpr ⟨passes, accepts_star_one.mp left⟩⟩
  · rintro ⟨some, passes⟩
    obtain ⟨head, tail, rfl⟩ := List.exists_cons_of_ne_nil some
    rw [List.forall_mem_cons] at passes
    exact ⟨[head], tail, rfl, accepts_one.mpr ⟨head, rfl, passes.1⟩, accepts_star_one.mpr passes.2⟩

theorem accepts_times_one {count : Nat} :
    (times count (one test)).accepts text = true ↔ text.length = count ∧
      ∀ c ∈ text, test c = true := by
  induction count generalizing text with
  | zero =>
    rw [times, accepts_empty, List.length_eq_zero_iff]
    exact ⟨fun none => ⟨none, by simp [none]⟩, And.left⟩
  | succ count ih =>
    rw [times, accepts_seq]
    constructor
    · rintro ⟨front, back, rfl, taken, left⟩
      obtain ⟨head, rfl, passes⟩ := accepts_one.mp taken
      obtain ⟨length, later⟩ := ih.mp left
      exact ⟨by simp [length], List.forall_mem_cons.mpr ⟨passes, later⟩⟩
    · rintro ⟨length, passes⟩
      obtain ⟨head, tail, rfl⟩ := List.exists_cons_of_length_eq_add_one length
      rw [List.forall_mem_cons] at passes
      exact ⟨[head], tail, rfl, accepts_one.mpr ⟨head, rfl, passes.1⟩,
        ih.mpr ⟨by simpa using length, passes.2⟩⟩

theorem accepts_optional : (optional inner).accepts text = true ↔ inner.accepts text = true ∨
    text = [] := by
  rw [optional, accepts_alt, accepts_empty]

theorem accepts_char {c : Char} : (char c).accepts text = true ↔ text = [c] := by
  rw [char, accepts_one]
  simp

theorem accepts_among {set : List Char} : (among set).accepts text = true ↔
    ∃ c ∈ set, text = [c] := by
  rw [among, accepts_one]
  simp [and_comm]

theorem accepts_range {first last : Char} :
    (range first last).accepts text = true ↔ ∃ c, text = [c] ∧ first ≤ c ∧ c ≤ last := by
  rw [range, accepts_one]
  simp

theorem accepts_all_nil : (all []).accepts text = true ↔ text = [] := accepts_empty

theorem accepts_all_cons {parts : List Regex} :
    (all (inner :: parts)).accepts text = true ↔
      ∃ front back, text = front ++ back ∧ inner.accepts front = true ∧
        (all parts).accepts back = true := accepts_seq

/-- A character in front of the rest. -/
theorem accepts_char_all {parts : List Regex} {c : Char} :
    (all (char c :: parts)).accepts text = true ↔
      ∃ back, text = c :: back ∧ (all parts).accepts back = true := by
  rw [accepts_all_cons]
  constructor
  · rintro ⟨front, back, rfl, taken, left⟩
    obtain rfl := accepts_char.mp taken
    exact ⟨back, rfl, left⟩
  · rintro ⟨back, rfl, left⟩
    exact ⟨[c], back, rfl, accepts_char.mpr rfl, left⟩

theorem accepts_text {literal : String} : (Regex.text literal).accepts text = true ↔
    text = literal.toList := by
  rw [Regex.text]
  generalize literal.toList = letters
  induction letters generalizing text with
  | nil => exact accepts_all_nil
  | cons c letters ih =>
    rw [List.map_cons, accepts_char_all]
    constructor
    · rintro ⟨back, rfl, left⟩
      rw [ih.mp left]
    · rintro rfl
      exact ⟨letters, rfl, ih.mpr rfl⟩

end Shapes

section Digits

/-- `\\d`. -/
def isDecimal (c : Char) : Bool :=
  digitRuns.any fun first => first ≤ c.toNat && c.toNat < first + 10

theorem digit_eq : digit = one isDecimal := rfl

theorem isDigit_iff {c : Char} : c.isDigit = true ↔ 48 ≤ c.toNat ∧ c.toNat ≤ 57 := by
  simp only [Char.isDigit, Bool.and_eq_true, decide_eq_true_eq, UInt32.le_iff_toNat_le]
  exact Iff.rfl

/-- A decimal digit is one of ASCII or lies far above it. -/
theorem isDecimal_cases {c : Char} (decimal : isDecimal c = true) : c.isDigit = true ∨
    0x660 ≤ c.toNat := by
  rw [isDecimal, List.any_eq_true] at decimal
  obtain ⟨first, run, inside⟩ := decimal
  simp only [Bool.and_eq_true, decide_eq_true_eq] at inside
  have runs : ∀ first ∈ digitRuns, first = 0x30 ∨ 0x660 ≤ first := by decide
  obtain rfl | above := runs first run
  · refine .inl ?_
    rw [isDigit_iff]
    omega
  · exact .inr (by omega)

theorem isDecimal_of_isDigit {c : Char} (digit : c.isDigit = true) : isDecimal c = true := by
  rw [isDigit_iff] at digit
  rw [isDecimal, List.any_eq_true]
  refine ⟨0x30, by decide, ?_⟩
  simp only [Bool.and_eq_true, decide_eq_true_eq]
  omega

/-- A decimal digit that is none of ASCII. -/
structure Foreign (c : Char) : Prop where
  decimal : isDecimal c = true
  outside : c.isDigit = false

theorem Foreign.ne {c other : Char} (odd : Foreign c) (plain : isDecimal other = false) :
    c ≠ other := by
  rintro rfl
  rw [odd.decimal] at plain
  cases plain

theorem toLower_of_isDecimal {c : Char} (decimal : isDecimal c = true) : c.toLower = c := by
  have upper : ¬ (c.val ≥ 'A'.val ∧ c.val ≤ 'Z'.val) := by
    rintro ⟨above, below⟩
    rw [ge_iff_le, UInt32.le_iff_toNat_le] at above
    rw [UInt32.le_iff_toNat_le] at below
    have low : ('A'.val).toNat = 65 := rfl
    have high : ('Z'.val).toNat = 90 := rfl
    have code : c.val.toNat = c.toNat := rfl
    obtain digit | far := isDecimal_cases decimal
    · rw [isDigit_iff] at digit
      omega
    · omega
  exact dif_neg upper

end Digits

end OaGateway.Lib.Regex
