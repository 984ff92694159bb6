import OaGateway.Lib.Numeral
import OaGateway.Lib.Utf8

/-! Text that is trimmed already, and the visible characters numbers are printed in. -/
namespace OaGateway.Lib

section Trim

private theorem trimStart_trimStart (text : List Char) : trimStart (trimStart text) =
    trimStart text := by
  induction text with
  | nil => rfl
  | cons c rest ih =>
    by_cases blank : isWhitespace c = true
    · have shorter : trimStart (c :: rest) = trimStart rest := List.dropWhile_cons_of_pos blank
      rw [shorter, ih]
    · have kept : trimStart (c :: rest) = c :: rest := List.dropWhile_cons_of_neg blank
      rw [kept, kept]

/-- The front of a text that starts with no white space has none either. -/
private theorem trimStart_of_prefix {front text : List Char} (start : front <+: text)
    (trimmed : trimStart text = text) : trimStart front = front := by
  cases front with
  | nil => rfl
  | cons c rest =>
    obtain ⟨back, rfl⟩ := start
    rw [trimStart, List.dropWhile_eq_self_iff] at trimmed ⊢
    exact fun _ => trimmed (by simp)

theorem trim_eq_self {text : List Char} (front : trimStart text = text)
    (back : trimStart text.reverse = text.reverse) : trim text = text := by
  rw [trim, front, back, List.reverse_reverse]

theorem trim_trim (text : List Char) : trim (trim text) = trim text := by
  have start : trim text <+: trimStart text := by
    rw [← List.reverse_suffix, trim, List.reverse_reverse]
    exact List.dropWhile_suffix _
  apply trim_eq_self
  · exact trimStart_of_prefix start (trimStart_trimStart text)
  · rw [trim, List.reverse_reverse, trimStart_trimStart]

theorem trim_sublist (text : List Char) : (trim text).Sublist text := by
  have front : (trimStart text).Sublist text := List.dropWhile_sublist _
  have back : (trimStart (trimStart text).reverse).Sublist (trimStart text).reverse :=
    List.dropWhile_sublist _
  have shorter : (trim text).Sublist (trimStart text) := by
    rw [trim]
    simpa using back.reverse
  exact shorter.trans front

theorem mem_of_mem_trim {text : List Char} (member : c ∈ trim text) : c ∈ text :=
  (trim_sublist text).subset member

theorem length_utf8_trimText (text : String) : (utf8 (trimText text)).length ≤
    (utf8 text).length := by
  have spelled : (trimText text).toList = trim text.toList := String.toList_ofList
  rw [utf8, spelled]
  exact (encode_sublist (trim_sublist _)).length_le

theorem trimText_trimText (text : String) : trimText (trimText text) = trimText text := by
  simp [trimText, trim_trim]

/-- The white space in front of a text. -/
def leading (text : List Char) : List Char := text.takeWhile isWhitespace

/-- The white space behind it, if there is anything else. -/
def trailing (text : List Char) : List Char :=
  ((trimStart text).reverse.takeWhile isWhitespace).reverse

theorem leading_append (text : List Char) : leading text ++ trimStart text = text :=
  List.takeWhile_append_dropWhile

theorem trim_append (text : List Char) : trim text ++ trailing text = trimStart text := by
  have parts : (trimStart text).reverse.takeWhile isWhitespace ++
    trimStart (trimStart text).reverse =
      (trimStart text).reverse := List.takeWhile_append_dropWhile
  rw [trim, trailing, ← List.reverse_append, parts, List.reverse_reverse]

theorem leading_blank (text : List Char) : (leading text).all isWhitespace = true :=
  List.all_takeWhile

theorem trailing_blank (text : List Char) : (trailing text).all isWhitespace = true := by
  rw [trailing, List.all_reverse]
  exact List.all_takeWhile

/-- Trimming both ends or the front leaves the same first character. -/
theorem head_trim (text : List Char) : (trim text).head? = (trimStart text).head? := by
  cases found : (trimStart text).head? with
  | none =>
    have empty : trimStart text = [] := List.head?_eq_none_iff.mp found
    rw [trim, empty]
    rfl
  | some first =>
    obtain ⟨rest, whole⟩ := List.head?_eq_some_iff.mp found
    have solid := List.head?_dropWhile_not isWhitespace text
    rw [trimStart] at found
    rw [found] at solid
    have visible : isWhitespace first = false := by simpa using solid
    have split := trim_append text
    cases kept : trim text with
    | cons c core =>
      rw [kept, List.cons_append, whole] at split
      rw [List.head?_cons, (List.cons.inj split).1]
    | nil =>
      rw [kept, List.nil_append, whole] at split
      have blank := List.all_eq_true.mp (trailing_blank text) first (split ▸ List.mem_cons_self)
      rw [visible] at blank
      cases blank

/-- A text with nothing to trim at either end. -/
theorem trim_of_ends {text : List Char} (starts : text.head? = some first)
    (solid : isWhitespace first = false) (ends : text.getLast? = some last)
    (closed : isWhitespace last = false) : trim text = text := by
  have reversed : text.reverse.head? = some last := by rw [List.head?_reverse, ends]
  apply trim_eq_self
  · obtain ⟨rest, rfl⟩ := List.head?_eq_some_iff.mp starts
    exact List.dropWhile_cons_of_neg (by simp [solid])
  · obtain ⟨rest, whole⟩ := List.head?_eq_some_iff.mp reversed
    rw [whole]
    exact List.dropWhile_cons_of_neg (by simp [closed])

section Spaced
variable {text : List Char}

theorem trimStart_append (starts : text.head? = some first) (solid : isWhitespace first = false)
    (after : List Char) :
    trimStart (text ++ after) = text ++ after := by
  obtain ⟨rest, rfl⟩ := List.head?_eq_some_iff.mp starts
  exact List.dropWhile_cons_of_neg (by simp [solid])

/-- Such a text comes back from before a blank. -/
theorem trim_spaced (starts : text.head? = some first) (solid : isWhitespace first = false)
    (trimmed : trim text = text) (white : isWhitespace blank = true) :
    trim (text ++ [blank]) = text := by
  have dropped (text : List Char) : trimStart (blank :: text) = trimStart text :=
    List.dropWhile_cons_of_pos white
  rw [trim, trimStart_append starts solid, List.reverse_append, List.reverse_singleton,
    List.singleton_append, dropped]
  have whole := trimStart_append starts solid []
  rw [List.append_nil] at whole
  rw [trim, whole] at trimmed
  exact trimmed

theorem trailing_spaced (starts : text.head? = some first) (solid : isWhitespace first = false)
    (trimmed : trim text = text) (white : isWhitespace blank = true) :
    trailing (text ++ [blank]) = [blank] := by
  have parts := trim_append (text ++ [blank])
  rw [trim_spaced starts solid trimmed white, trimStart_append starts solid] at parts
  exact List.append_cancel_left parts

end Spaced

end Trim

section Visible

/-- Printable ASCII but the space. -/
def isVisible (c : Char) : Bool := 0x21 ≤ c.toNat && c.toNat ≤ 0x7E

/-- Every character of a text is visible. -/
def Visible (text : List Char) : Prop := ∀ c ∈ text, isVisible c = true

theorem not_isWhitespace {c : Char} (visible : isVisible c = true) : isWhitespace c = false := by
  simp only [isVisible, Bool.and_eq_true, decide_eq_true_eq] at visible
  simp only [isWhitespace, Bool.or_eq_false_iff, Bool.and_eq_false_iff, beq_eq_false_iff_ne,
    decide_eq_false_iff_not]
  omega

theorem trim_of_visible {text : List Char} (visible : Visible text) : trim text = text := by
  have kept {letters : List Char} (known : Visible letters) : trimStart letters = letters := by
    rw [trimStart, List.dropWhile_eq_self_iff]
    intro some
    simp [not_isWhitespace (known _ (List.getElem_mem some))]
  exact trim_eq_self (kept visible) (kept fun c member => visible c (List.mem_reverse.mp member))

theorem trimText_of_visible {text : String} (visible : Visible text.toList) :
    trimText text = text := by
  rw [trimText, trim_of_visible visible, String.ofList_toList]

theorem isVisible_of_isDigit {c : Char} (digit : c.isDigit = true) : isVisible c = true := by
  simp only [Char.isDigit, Bool.and_eq_true, decide_eq_true_eq, ge_iff_le,
    UInt32.le_iff_toNat_le] at digit
  have low : ('0'.val).toNat = 48 := rfl
  have high : ('9'.val).toNat = 57 := rfl
  simp only [isVisible, Char.toNat, Bool.and_eq_true, decide_eq_true_eq]
  omega

theorem Visible.append {front back : List Char} (first : Visible front) (second : Visible back) :
    Visible (front ++ back) := by
  intro c member
  rcases List.mem_append.mp member with here | later
  · exact first c here
  · exact second c later

theorem Visible.cons {back : List Char} (first : isVisible c = true) (second : Visible back) :
    Visible (c :: back) :=
  List.forall_mem_cons.mpr ⟨first, second⟩

theorem Visible.nil : Visible [] := by simp [Visible]

theorem Visible.digits {text : List Char} (digits : ∀ c ∈ text, c.isDigit = true) : Visible text :=
  fun c member => isVisible_of_isDigit (digits c member)

/-- A text is visible when it is but for its sign. -/
theorem Visible.of_unsigned {text : List Char} (rest : Visible (unsigned text)) : Visible text := by
  unfold unsigned at rest
  split at rest
  · exact rest.cons (by decide)
  · exact rest.cons (by decide)
  · exact rest

theorem visible_of_isNumeral {text : List Char} (numeral : isNumeral text = true) :
    Visible text := by
  simp only [isNumeral, Bool.and_eq_true, List.all_eq_true] at numeral
  exact .of_unsigned (.digits numeral.2)

namespace F64

private theorem visible_of_power {text : List Char} {read : Option Int} {power : Int}
    (found : (if text.isEmpty || !text.all Char.isDigit then none else read) = some power) :
    Visible text := by
  split at found
  · cases found
  · rename_i digits
    simp only [Bool.or_eq_true, not_or, Bool.not_eq_true, Bool.not_eq_false',
      List.all_eq_true] at digits
    exact .digits digits.2

theorem visible_of_exponent {text : List Char} {power : Int} (read : exponent text = some power) :
    Visible text := by
  unfold exponent at read
  split at read
  · exact .nil
  · rename_i mark rest
    split at read
    · rename_i marked
      have first : isVisible mark = true := by
        rcases marked with rfl | rfl <;> decide
      refine .cons first ?_
      split at read
      rename_i negative body same
      have shown : Visible body := visible_of_power read
      split at same <;> cases same
      · exact shown.cons (by decide)
      · exact shown.cons (by decide)
      · exact shown
    · cases read

private theorem visible_digits (text : List Char) : Visible (digits text).1 := by
  refine .digits fun c member => ?_
  rw [digits, List.span_eq_takeWhile_dropWhile] at member
  exact List.mem_takeWhile_imp member

private theorem digits_append (text : List Char) : (digits text).1 ++ (digits text).2 = text := by
  rw [digits, List.span_eq_takeWhile_dropWhile]
  exact List.takeWhile_append_dropWhile

private theorem visible_of_rest {text : List Char} {bare : Bool} {image : Int → Nat}
    {magnitude : Nat} (found : (if bare then none else (exponent text).map image) =
      some magnitude) : Visible text := by
  split at found
  · cases found
  · obtain ⟨power, read, -⟩ := Option.map_eq_some_iff.mp found
    exact visible_of_exponent read

theorem visible_of_decimal {text : List Char} {magnitude : Nat}
    (read : decimal text = some magnitude) :
    Visible text := by
  rw [← digits_append text]
  refine (visible_digits text).append ?_
  unfold decimal at read
  dsimp only at read
  split at read
  · rename_i rest same
    rw [same, ← digits_append rest]
    exact .cons (by decide) ((visible_digits rest).append (visible_of_rest read))
  · exact visible_of_rest read

/-- A finite double is read from visible text. -/
theorem visible_of_parse {text : String} {value : F64} (read : parse text = some value)
    (finite : value.isFinite = true) : Visible text.toList := by
  rw [parse_eq] at read
  obtain ⟨magnitude, found, rfl⟩ := Option.map_eq_some_iff.mp read
  apply Visible.of_unsigned
  rw [parseUnsigned] at found
  split at found
  · cases found
    rw [isFinite, magnitude_ofMagnitude _ (by decide)] at finite
    simp at finite
  · split at found
    · cases found
      rw [isFinite, magnitude_ofMagnitude _ (by decide), decide_eq_true_eq] at finite
      omega
    · exact visible_of_decimal found

end F64

end Visible

end OaGateway.Lib
