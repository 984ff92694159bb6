import Mathlib.Data.Bool.AllAny
import OaGateway.Lib.Xml.Grammar
import OaGateway.Lib.Xml.Scan

/-! How the scanner passes complete pieces of a document. -/
namespace OaGateway.Lib.Xml

section Position

theorem position_prefix {pattern text : Bytes} (pos : pattern ≠ []) (starts : pattern <+: text) :
    position pattern text = some 0 := by
  cases text with
  | nil => exact absurd (List.prefix_nil.mp starts) pos
  | cons first rest => simp [position, List.isPrefixOf_iff_prefix.mpr starts]

/-- Bytes that cannot start the pattern are passed over. -/
theorem position_append {first : UInt8} {pattern bytes : Bytes} (absent : first ∉ bytes)
    (text : Bytes) :
    position (first :: pattern) (bytes ++ text) =
      (position (first :: pattern) text).map (· + bytes.length) := by
  induction bytes with
  | nil => simp
  | cons head rest ih =>
    have different : first ≠ head := fun same => absent (by simp [same])
    have later := ih fun member => absent (List.mem_cons_of_mem head member)
    simp only [List.cons_append, position, List.isPrefixOf, beq_eq_false_iff_ne.mpr different,
      Bool.false_and, Bool.false_eq_true, ↓reduceIte, later, Option.map_map, List.length_cons]
    congr 1

/-- A pattern that starts inside `body` and has its last byte nowhere else
cannot reach over the end of `body`. -/
private theorem prefix_within {front body text : Bytes} {last : UInt8} (unique : last ∉ front)
    (inside : body ≠ []) (starts : front ++ [last] <+: body ++ (front ++ [last]) ++ text) :
    front ++ [last] <+: body := by
  by_cases fits : (front ++ [last]).length ≤ body.length
  · rw [List.append_assoc] at starts
    exact List.prefix_of_prefix_length_le starts (List.prefix_append body _) fits
  · exfalso
    have short : body.length ≤ front.length := by
      simp only [List.length_append, List.length_singleton] at fits
      omega
    have positive : 0 < body.length := List.length_pos_iff.mpr inside
    obtain ⟨tail, same⟩ := starts
    have found : (body ++ (front ++ [last]) ++ text)[front.length]? = some last := by
      rw [← same]
      simp
    rw [List.append_assoc, List.getElem?_append_right short, List.append_assoc,
      List.getElem?_append_left (by omega)] at found
    exact unique (List.mem_of_getElem? found)

theorem prefix_of_encode {pattern text : List Char} (ascii : ∀ c ∈ pattern, IsAscii c)
    (starts : pattern.map byte <+: encode text) : pattern <+: text := by
  induction pattern generalizing text with
  | nil => exact List.nil_prefix
  | cons a rest ih =>
    cases text with
    | nil => simp at starts
    | cons c text =>
      have small : IsAscii a := ascii a (by simp)
      have head : byte a ∈ String.utf8EncodeChar c := by
        rw [encode_cons] at starts
        cases bytes : String.utf8EncodeChar c with
        | nil => exact absurd bytes String.utf8EncodeChar_ne_nil
        | cons b more =>
          rw [bytes] at starts
          simp only [List.map_cons, List.cons_append, List.cons_prefix_cons] at starts
          simp [starts.1]
      have same : a = c := (byte_mem_utf8EncodeChar small).mp head
      subst same
      rw [encode_cons, utf8EncodeChar_ascii small] at starts
      simp only [List.map_cons, List.singleton_append, List.cons_prefix_cons, true_and] at starts ⊢
      exact ih (fun c member => ascii c (by simp [member])) starts

/-- A pattern that does not start at a character is looked for after it. -/
private theorem position_char {a c : Char} {pattern text : Bytes} (ascii : IsAscii a)
    (notHere : ¬ byte a :: pattern <+: String.utf8EncodeChar c ++ text) :
    position (byte a :: pattern) (String.utf8EncodeChar c ++ text) =
      (position (byte a :: pattern) text).map (· + (String.utf8EncodeChar c).length) := by
  by_cases same : a = c
  · subst same
    rw [utf8EncodeChar_ascii ascii] at notHere ⊢
    rw [List.singleton_append] at notHere ⊢
    rw [position, if_neg (by rwa [List.isPrefixOf_iff_prefix])]
    rfl
  · exact position_append (fun member => same ((byte_mem_utf8EncodeChar ascii).mp member)) text

private theorem occurs_of_starts {pattern : List Char} {c : Char} {text : List Char}
    (starts : pattern <+: c :: text) : occurs pattern (c :: text) = true := by
  simp [occurs, List.isPrefixOf_iff_prefix.mpr starts]

/-- The first place a construct can close is where it does. -/
theorem position_close {front body : List Char} {last : Char}
    (ascii : ∀ c ∈ front ++ [last], IsAscii c) (unique : last ∉ front)
    (absent : occurs (front ++ [last]) body = false) (text : Bytes) :
    position ((front ++ [last]).map byte) (encode body ++ (front ++ [last]).map byte ++ text) =
      some (encode body).length := by
  have lastAscii : IsAscii last := ascii last (by simp)
  have uniqueByte : byte last ∉ front.map byte := by
    intro member
    obtain ⟨c, inFront, same⟩ := List.mem_map.mp member
    exact unique (byte_inj (ascii c (by simp [inFront])) lastAscii same ▸ inFront)
  induction body with
  | nil => exact position_prefix (by simp) (List.prefix_append _ _)
  | cons c body ih =>
    have later := ih (by
      simp only [occurs, Bool.or_eq_false_iff] at absent
      exact absent.2)
    have notHere : ¬ (front ++ [last]).map byte <+:
        encode (c :: body) ++ (front ++ [last]).map byte ++ text := by
      intro starts
      rw [List.map_append, List.map_singleton] at starts
      have inside := prefix_within uniqueByte
        (by simp [encode_cons, String.utf8EncodeChar_ne_nil]) starts
      rw [← List.map_singleton, ← List.map_append] at inside
      simp [occurs_of_starts (prefix_of_encode ascii inside)] at absent
    obtain ⟨a, pattern, split⟩ := List.exists_cons_of_ne_nil (l := front ++ [last]) (by simp)
    have small : IsAscii a := ascii a (by simp [split])
    rw [split, List.map_cons] at later notHere ⊢
    rw [encode_cons, List.append_assoc, List.append_assoc] at notHere ⊢
    rw [position_char small notHere, ← List.append_assoc, later]
    simp [Nat.add_comm]

end Position

section Constructs

def Construct.comment : Construct := ⟨['!', '-', '-'].map byte, ['-', '-', '>'].map byte⟩

def Construct.cdata : Construct :=
  ⟨['!', '[', 'C', 'D', 'A', 'T', 'A', '['].map byte, [']', ']', '>'].map byte⟩

def Construct.pi : Construct := ⟨['?'].map byte, ['?', '>'].map byte⟩

/-- A terminated construct is consumed exactly. -/
theorem skipPast_complete (opening : List Char) {front body : List Char} {last : Char}
    (ascii : ∀ c ∈ front ++ [last], IsAscii c) (unique : last ∉ front)
    (absent : occurs (front ++ [last]) body = false) (text : Bytes) :
    ∃ consumed, skipPast (opening.map byte ++ (encode body ++ (front ++ [last]).map byte ++ text))
        ⟨opening.map byte, (front ++ [last]).map byte⟩ = some consumed ∧
      (opening.map byte ++ (encode body ++ (front ++ [last]).map byte ++ text)).drop consumed =
          text := by
  have starts : (opening.map byte).isPrefixOf
      (opening.map byte ++ (encode body ++ (front ++ [last]).map byte ++ text)) = true :=
    List.isPrefixOf_iff_prefix.mpr (List.prefix_append _ _)
  refine ⟨(opening.map byte).length + ((encode body).length + ((front ++ [last]).map byte).length),
    ?_, ?_⟩
  · simp only [skipPast, starts, ↓reduceIte, List.drop_left, position_close ascii unique absent]
  · rw [← List.drop_drop, List.drop_left, ← List.length_append, List.drop_left]

theorem skipPast_of_not_prefix {rest : Bytes} {construct : Construct}
    (other : ¬ construct.opening <+: rest) : skipPast rest construct = none := by
  rw [skipPast, if_neg (by rwa [List.isPrefixOf_iff_prefix])]

/-- The scanner steps over comments and processing instructions, and over
nothing that starts a tag. -/
structure Skips (constructs : List Construct) : Prop where
  comment : ∀ rest, Construct.comment.opening <+: rest →
    constructs.findSome? (skipPast rest) = skipPast rest .comment
  pi : ∀ rest, Construct.pi.opening <+: rest →
    constructs.findSome? (skipPast rest) = skipPast rest .pi
  tag : ∀ rest, rest.head? ≠ some (byte '!') → rest.head? ≠ some (byte '?') →
    constructs.findSome? (skipPast rest) = none

private theorem head_of_opening {construct : Construct} (first : UInt8) {more rest : Bytes}
    (opens : construct.opening = first :: more) (starts : construct.opening <+: rest) :
    rest.head? = some first := by
  obtain ⟨tail, rfl⟩ := starts
  simp [opens]

private theorem skipPast_of_head {construct : Construct} (first : UInt8) {more rest : Bytes}
    (opens : construct.opening = first :: more) (other : rest.head? ≠ some first) :
    skipPast rest construct = none :=
  skipPast_of_not_prefix fun starts => other (head_of_opening first opens starts)

private theorem skipPast_isSome {rest : Bytes} (construct : Construct)
    (starts : construct.opening <+: rest) :
    ∃ consumed, skipPast rest construct = some consumed := by
  rw [skipPast, if_pos (List.isPrefixOf_iff_prefix.mpr starts)]
  exact ⟨_, rfl⟩

private theorem head_of_cdata {rest : Bytes} (head : rest.head? = some (byte '?')) :
    skipPast rest .cdata = none :=
  skipPast_of_head (byte '!') rfl (by rw [head]; decide)

private theorem head_of_comment {rest : Bytes} (head : rest.head? = some (byte '?')) :
    skipPast rest .comment = none :=
  skipPast_of_head (byte '!') rfl (by rw [head]; decide)

theorem skips_without_cdata : Skips [.comment, .pi] where
  comment rest starts := by
    obtain ⟨consumed, found⟩ := skipPast_isSome _ starts
    simp [List.findSome?, found]
  pi rest starts := by
    have head := head_of_opening (byte '?') rfl starts
    obtain ⟨consumed, found⟩ := skipPast_isSome _ starts
    simp [List.findSome?, head_of_comment head, found]
  tag rest bang question := by
    have comment : skipPast rest .comment = none := skipPast_of_head (byte '!') rfl bang
    have pi : skipPast rest .pi = none := skipPast_of_head (byte '?') rfl question
    simp [List.findSome?, comment, pi]

theorem skips_with_cdata : Skips [.comment, .cdata, .pi] where
  comment rest starts := by
    obtain ⟨consumed, found⟩ := skipPast_isSome _ starts
    simp [List.findSome?, found]
  pi rest starts := by
    have head := head_of_opening (byte '?') rfl starts
    obtain ⟨consumed, found⟩ := skipPast_isSome _ starts
    simp [List.findSome?, head_of_comment head, head_of_cdata head, found]
  tag rest bang question := by
    have comment : skipPast rest .comment = none := skipPast_of_head (byte '!') rfl bang
    have cdata : skipPast rest .cdata = none := skipPast_of_head (byte '!') rfl bang
    have pi : skipPast rest .pi = none := skipPast_of_head (byte '?') rfl question
    simp [List.findSome?, comment, cdata, pi]

end Constructs

section Transparent
variable {constructs : List Construct} {limit : Nat}

/-- The scan goes through `text` without a change of depth. -/
def Transparent (constructs : List Construct) (limit : Nat) (text : List Char) : Prop :=
  ∀ rest depth, exceeds constructs limit (encode text ++ rest) depth =
    exceeds constructs limit rest depth

theorem exceeds_plain {bytes : Bytes} (plain : byte '<' ∉ bytes) (rest : Bytes) (depth : Nat) :
    exceeds constructs limit (bytes ++ rest) depth = exceeds constructs limit rest depth := by
  induction bytes with
  | nil => rfl
  | cons b bytes ih =>
    have different : b ≠ byte '<' := fun same => plain (by simp [same])
    rw [List.cons_append, exceeds_cons, if_pos different]
    exact ih fun member => plain (List.mem_cons_of_mem b member)

theorem Transparent.plain {text : List Char} (plain : '<' ∉ text) :
    Transparent constructs limit text :=
  fun rest depth => exceeds_plain (by rwa [byte_mem_encode (by decide)]) rest depth

/-- After `<`, a construct the table knows is passed over. -/
theorem exceeds_skip {rest : Bytes} {consumed : Nat}
    (found : constructs.findSome? (skipPast rest) = some consumed) (depth : Nat) :
    exceeds constructs limit (byte '<' :: rest) depth =
      exceeds constructs limit (rest.drop consumed) depth := by
  rw [exceeds_cons, if_neg (by simp), found]

/-- A terminated construct the table knows is transparent. -/
theorem Transparent.skipped (opening front : List Char) (last : Char) {body : List Char}
    (known : ∀ rest, opening.map byte <+: rest → constructs.findSome? (skipPast rest) =
      skipPast rest ⟨opening.map byte, (front ++ [last]).map byte⟩)
    (opens : ∀ c ∈ opening, IsAscii c) (ascii : ∀ c ∈ front ++ [last], IsAscii c)
    (unique : last ∉ front) (absent : occurs (front ++ [last]) body = false) :
    Transparent constructs limit ('<' :: opening ++ body ++ (front ++ [last])) := by
  intro rest depth
  obtain ⟨consumed, found, left⟩ := skipPast_complete opening ascii unique absent rest
  have split : encode ('<' :: opening ++ body ++ (front ++ [last])) ++ rest = byte '<' ::
      (opening.map byte ++ (encode body ++ (front ++ [last]).map byte ++ rest)) := by
    rw [List.cons_append, List.cons_append, encode_cons, encode_append, encode_append,
      encode_ascii opens, encode_ascii ascii, utf8EncodeChar_ascii (by decide)]
    simp only [List.cons_append, List.nil_append, List.append_assoc]
  rw [split, exceeds_skip ((known _ (List.prefix_append _ _)).trans found), left]

theorem occurs_append_left {front back text : List Char}
    (longer : occurs (front ++ back) text = true) :
    occurs front text = true := by
  induction text with
  | nil =>
    simp only [occurs, List.isEmpty_iff, List.append_eq_nil_iff] at longer
    simp [occurs, longer.1]
  | cons c text ih =>
    simp only [occurs, Bool.or_eq_true, List.isPrefixOf_iff_prefix] at longer ⊢
    rcases longer with here | later
    · exact .inl ((List.prefix_append front back).trans here)
    · exact .inr (ih later)

theorem Transparent.comment (skips : Skips constructs) {body : List Char}
    (valid : Content.validComment body = true) :
    Transparent constructs limit (Content.renderComment body) := by
  have absent : occurs (['-', '-'] ++ ['>']) body = false := by
    simp only [Content.validComment, Bool.and_eq_true, Bool.not_eq_true'] at valid
    by_contra present
    simp [occurs_append_left (Bool.of_not_eq_false present)] at valid
  exact .skipped ['!', '-', '-'] ['-', '-'] '>' skips.comment
    (List.all_iff_forall_prop.mp (by decide)) (List.all_iff_forall_prop.mp (by decide))
      (by decide) absent

theorem occurs_append_of_notMem {a : Char} {pattern front text : List Char} (absent : a ∉ front) :
    occurs (a :: pattern) (front ++ text) = occurs (a :: pattern) text := by
  induction front with
  | nil => rfl
  | cons c front ih =>
    have different : a ≠ c := fun same => absent (by simp [same])
    rw [List.cons_append, occurs, ih fun member => absent (List.mem_cons_of_mem c member)]
    simp [List.isPrefixOf, different]

/-- A name holds no character that `isNameChar` refuses. -/
theorem notMem_of_isName {name : List Char} {c : Char} (named : isName name = true)
    (other : isNameChar c = false) : c ∉ name := by
  intro member
  cases name with
  | nil => simp at member
  | cons first rest =>
    simp only [isName, Bool.and_eq_true, List.all_eq_true] at named
    have accepted : isNameChar c = true := by
      rcases List.mem_cons.mp member with same | later
      · simp [same, isNameChar, named.1]
      · exact named.2 c later
    simp [accepted] at other

theorem Transparent.pi (skips : Skips constructs) {target body : List Char}
    (valid : Content.validPi target body = true) :
    Transparent constructs limit (Content.renderPi target body) := by
  simp only [Content.validPi, Bool.and_eq_true, Bool.not_eq_true'] at valid
  have named : '?' ∉ target := notMem_of_isName valid.1.1.1.1 (by decide)
  have absent : occurs (['?'] ++ ['>']) (target ++ body) = false :=
    (occurs_append_of_notMem named).trans valid.2
  have known := @Transparent.skipped constructs limit ['?'] ['?'] '>' _
    skips.pi (List.all_iff_forall_prop.mp (by decide)) (List.all_iff_forall_prop.mp (by decide))
      (by decide) absent
  simpa [Content.renderPi] using known

theorem Transparent.cdata {body : List Char} (valid : Content.validCdata body = true) :
    Transparent [.comment, .cdata, .pi] limit (Content.renderCdata body) := by
  have absent : occurs ([']', ']'] ++ ['>']) body = false := by
    simp only [Content.validCdata, Bool.and_eq_true, Bool.not_eq_true'] at valid
    exact valid.2
  refine .skipped ['!', '[', 'C', 'D', 'A', 'T', 'A', '['] [']', ']'] '>' ?_
    (List.all_iff_forall_prop.mp (by decide)) (List.all_iff_forall_prop.mp (by decide))
      (by decide) absent
  intro rest starts
  have other : skipPast rest .comment = none := by
    refine skipPast_of_not_prefix fun comment => ?_
    obtain ⟨tail, rfl⟩ := starts
    simp [Construct.comment, byte] at comment
  obtain ⟨consumed, found⟩ := skipPast_isSome .cdata starts
  simp only [List.findSome?, other, found]
  exact found.symm

end Transparent

section Tags

/-- Text inside a tag that the tag scanner reads through, ending outside any
quote and not at a slash. -/
def TagText (text : List Char) : Prop :=
  ∀ read prev, prev ≠ byte '/' → ∃ last, last ≠ byte '/' ∧
    ∀ rest, tagLoop read none prev (encode text ++ rest) =
      tagLoop (read + (encode text).length) none last rest

theorem TagText.nil : TagText [] := fun _ prev slash => ⟨prev, slash, fun _ => rfl⟩

theorem TagText.append {first second : List Char} (front : TagText first) (back : TagText second) :
    TagText (first ++ second) := by
  intro read prev slash
  obtain ⟨middle, slash, through⟩ := front read prev slash
  obtain ⟨last, slash, onward⟩ := back (read + (encode first).length) middle slash
  refine ⟨last, slash, fun rest => ?_⟩
  rw [encode_append, List.append_assoc, through, onward, List.length_append, Nat.add_assoc]

theorem TagText.flatMap {Item : Type*} {items : List Item} {render : Item → List Char}
    (each : ∀ item ∈ items, TagText (render item)) : TagText (items.flatMap render) := by
  induction items with
  | nil => exact .nil
  | cons item items ih =>
    exact (each item (by simp)).append (ih fun other member => each other (by simp [member]))

private theorem tagLoop_plain {bytes : Bytes}
    (plain : ∀ b ∈ bytes, b ≠ byte '"' ∧ b ≠ byte '\'' ∧ b ≠ byte '>' ∧ b ≠ byte '/')
    (read : Nat) (prev : UInt8) (slash : prev ≠ byte '/') :
    ∃ last, last ≠ byte '/' ∧ ∀ rest, tagLoop read none prev (bytes ++ rest) =
      tagLoop (read + bytes.length) none last rest := by
  induction bytes generalizing read prev with
  | nil => exact ⟨prev, slash, fun _ => rfl⟩
  | cons b bytes ih =>
    obtain ⟨double, single, close, slash⟩ := plain b (by simp)
    obtain ⟨last, ends, through⟩ :=
      ih (fun other member => plain other (by simp [member])) (read + 1) b slash
    refine ⟨last, ends, fun rest => ?_⟩
    simp only [List.cons_append, tagLoop, double, single, or_self, ↓reduceIte, close, through,
      List.length_cons]
    congr 1
    omega

theorem TagText.plain {text : List Char} (plain : ∀ c ∈ ['"', '\'', '>', '/'], c ∉ text) :
    TagText text := by
  refine fun read prev slash => tagLoop_plain ?_ read prev slash
  intro b member
  have other (c : Char) (listed : c ∈ ['"', '\'', '>', '/']) (ascii : IsAscii c) : b ≠ byte c := by
    rintro rfl
    exact plain c listed ((byte_mem_encode ascii text).mp member)
  exact ⟨other _ (by simp) (by decide), other _ (by simp) (by decide),
    other _ (by simp) (by decide), other _ (by simp) (by decide)⟩

private theorem tagLoop_quoted {bytes : Bytes} (quote : UInt8) (absent : quote ∉ bytes)
    (read : Nat) (prev : UInt8) :
    ∃ last, ∀ rest, tagLoop read (some quote) prev (bytes ++ rest) =
      tagLoop (read + bytes.length) (some quote) last rest := by
  induction bytes generalizing read prev with
  | nil => exact ⟨prev, fun _ => rfl⟩
  | cons b bytes ih =>
    have different : b ≠ quote := fun same => absent (by simp [same])
    obtain ⟨last, through⟩ := ih (fun member => absent (by simp [member])) (read + 1) b
    refine ⟨last, fun rest => ?_⟩
    simp only [List.cons_append, tagLoop, different, ↓reduceIte, through, List.length_cons]
    congr 1
    omega

/-- A quoted value, whatever it holds besides its own quote. -/
theorem TagText.quoted (quote : Quote) {value : List Char} (absent : quote.char ∉ value) :
    TagText (quote.char :: value ++ [quote.char]) := by
  have ascii : IsAscii quote.char := by cases quote <;> decide
  have opens : byte quote.char = byte '"' ∨ byte quote.char = byte '\'' := by
    cases quote
    · exact .inr rfl
    · exact .inl rfl
  intro read prev slash
  obtain ⟨last, through⟩ := tagLoop_quoted (byte quote.char)
    (fun member => absent ((byte_mem_encode ascii value).mp member)) (read + 1) (byte quote.char)
  refine ⟨byte quote.char, by cases quote <;> decide, fun rest => ?_⟩
  rw [List.cons_append, encode_cons, encode_append, encode_cons, encode_nil,
    utf8EncodeChar_ascii ascii]
  simp only [List.cons_append, List.nil_append, List.append_assoc, tagLoop, opens,
    ↓reduceIte, through, List.length_cons, List.length_append, List.length_nil]
  congr 1
  omega

theorem notMem_of_all {text : List Char} {accepts : Char → Bool} {c : Char}
    (all : text.all accepts = true) (other : accepts c = false) : c ∉ text := by
  intro member
  simp [List.all_eq_true.mp all c member] at other

theorem TagText.space {text : List Char} (space : text.all isSpace = true) : TagText text := by
  have refused : ∀ c ∈ ['"', '\'', '>', '/'], isSpace c = false :=
    List.all_iff_forall_prop.mp (by decide)
  exact .plain fun c listed => notMem_of_all space (refused c listed)

theorem TagText.name {text : List Char} (named : isName text = true) : TagText text := by
  have refused : ∀ c ∈ ['"', '\'', '>', '/'], isNameChar c = false :=
    List.all_iff_forall_prop.mp (by decide)
  exact .plain fun c listed => notMem_of_isName named (refused c listed)

private theorem isAlphanum_of_isHexDigit {c : Char} (hex : isHexDigit c = true) :
    c.isAlphanum = true := by
  have alpha : c.isAlpha = (c.isUpper || c.isLower) := rfl
  have upper : c.isUpper = decide (c.val ≥ 'A'.val ∧ c.val ≤ 'Z'.val) := rfl
  have lower : c.isLower = (decide (c.val ≥ 'a'.val) && decide (c.val ≤ 'z'.val)) := rfl
  simp only [isHexDigit, Char.isAlphanum, alpha, upper, lower, Char.isDigit,
    Bool.or_eq_true, Bool.and_eq_true, decide_eq_true_eq, Char.le_def,
      UInt32.le_iff_toNat_le, ge_iff_le]
    at hex ⊢
  have letters : 'a'.val.toNat = 97 ∧ 'f'.val.toNat = 102 ∧ 'A'.val.toNat = 65 ∧
    'F'.val.toNat = 70 ∧
      'z'.val.toNat = 122 ∧ 'Z'.val.toNat = 90 := by decide
  omega

/-- A reference is written in letters, digits and three signs. -/
theorem Reference.mem_render {reference : Reference} (valid : reference.valid = true) {c : Char}
    (member : c ∈ reference.render) : c.isAlphanum = true ∨ c ∈ ['&', '#', ';'] := by
  cases reference with
  | entity name =>
    have letters : ∀ c ∈ name.name, c.isAlphanum = true :=
      List.all_iff_forall_prop.mp (by cases name <;> decide)
    simp only [Reference.render, List.cons_append, List.mem_cons, List.mem_append, List.not_mem_nil,
      or_false] at member
    rcases member with rfl | inName | rfl
    · exact .inr (by simp)
    · exact .inl (letters c inName)
    · exact .inr (by simp)
  | decimal digits =>
    simp only [Reference.valid, Bool.and_eq_true, List.all_eq_true] at valid
    simp only [Reference.render, List.cons_append, List.nil_append, List.mem_cons, List.mem_append,
      List.not_mem_nil, or_false] at member
    rcases member with rfl | rfl | digit | rfl
    · exact .inr (by simp)
    · exact .inr (by simp)
    · exact .inl (by simp [Char.isAlphanum, valid.1.2 c digit])
    · exact .inr (by simp)
  | hex digits =>
    simp only [Reference.valid, Bool.and_eq_true, List.all_eq_true] at valid
    simp only [Reference.render, List.cons_append, List.nil_append, List.mem_cons, List.mem_append,
      List.not_mem_nil, or_false] at member
    rcases member with rfl | rfl | rfl | digit | rfl
    · exact .inr (by simp)
    · exact .inr (by simp)
    · exact .inl (by decide)
    · exact .inl (isAlphanum_of_isHexDigit (valid.1.2 c digit))
    · exact .inr (by simp)

/-- A sign that is excluded or starts markup is in no valid run of pieces. -/
theorem notMem_renderPieces {pieces : List Piece} {excluded : List Char} {c : Char}
    (valid : pieces.all (Piece.valid excluded) = true) (sign : c.isAlphanum = false)
    (other : c ∉ ['&', '#', ';']) (refused : c = '<' ∨ c ∈ excluded) : c ∉ renderPieces pieces := by
  intro member
  obtain ⟨piece, inPieces, inPiece⟩ := List.mem_flatMap.mp member
  have accepted := List.all_eq_true.mp valid piece inPieces
  cases piece with
  | char literal =>
    have same : c = literal := by simpa [Piece.render] using inPiece
    subst same
    simp only [Piece.valid, Bool.and_eq_true, bne_iff_ne, ne_eq] at accepted
    rcases refused with less | inExcluded
    · exact accepted.1.1.2 less
    · simp [inExcluded] at accepted
  | ref reference =>
    rcases Reference.mem_render accepted inPiece with letter | listed
    · simp [letter] at sign
    · exact other listed

theorem TagText.attribute {attr : Attribute} (valid : attr.valid = true) : TagText attr.render := by
  simp only [Attribute.valid, Bool.and_eq_true] at valid
  obtain ⟨⟨⟨⟨⟨-, space⟩, named⟩, before⟩, after⟩, value⟩ := valid
  have absent : attr.quote.char ∉ renderPieces attr.value :=
    notMem_renderPieces value (by cases attr.quote <;> decide) (by cases attr.quote <;> decide)
      (.inr (by simp))
  have equals : TagText ['='] := .plain (List.all_iff_forall_prop.mp (by decide))
  have parts :=
    (((((TagText.space space).append (.name named)).append (.space before)).append equals).append
    (.space after)).append (.quoted attr.quote absent)
  simpa [Attribute.render] using parts

theorem TagText.tag {tag : Tag} (valid : tag.valid = true) : TagText tag.render := by
  simp only [Tag.valid, Bool.and_eq_true, List.all_eq_true] at valid
  obtain ⟨⟨⟨named, attributes⟩, -⟩, space⟩ := valid
  refine (TagText.name named).append (.flatMap fun attr member => ?_) |>.append (.space ?_)
  · exact .attribute (attributes attr member)
  · exact List.all_eq_true.mpr space

theorem scanStartTag_start {text : List Char} (inside : TagText text) (rest : Bytes) :
    scanStartTag (encode text ++ byte '>' :: rest) = ((encode text).length + 1, false) := by
  obtain ⟨last, slash, through⟩ := inside 0 0 (by decide)
  rw [scanStartTag, through]
  simp [tagLoop, show byte '>' ≠ byte '"' by decide, show byte '>' ≠ byte '\'' by decide, slash]

theorem scanStartTag_empty {text : List Char} (inside : TagText text) (rest : Bytes) :
    scanStartTag (encode text ++ byte '/' :: byte '>' :: rest) =
      ((encode text).length + 2, true) := by
  obtain ⟨last, slash, through⟩ := inside 0 0 (by decide)
  rw [scanStartTag, through]
  simp [tagLoop, show byte '>' ≠ byte '"' by decide, show byte '>' ≠ byte '\'' by decide,
    show byte '/' ≠ byte '"' by decide, show byte '/' ≠ byte '\'' by decide,
    show byte '/' ≠ byte '>' by decide]

variable {constructs : List Construct} {limit : Nat}

theorem head_encode {a c : Char} (ascii : IsAscii a) (different : a ≠ c) (text : List Char)
    (rest : Bytes) : (encode (c :: text) ++ rest).head? ≠ some (byte a) := by
  rw [encode_cons]
  cases bytes : String.utf8EncodeChar c with
  | nil => exact absurd bytes String.utf8EncodeChar_ne_nil
  | cons b more =>
    intro same
    simp only [List.cons_append, List.head?_cons, Option.some.injEq] at same
    exact different ((byte_mem_utf8EncodeChar ascii).mp (by simp [bytes, same]))

/-- After `<` and a name's first character the scanner counts one level. -/
theorem exceeds_tag (skips : Skips constructs) {c : Char} (starts : isNameStart c = true)
    (text : List Char) (rest : Bytes) (depth : Nat) :
    exceeds constructs limit (encode ('<' :: c :: text) ++ rest) depth =
      if depth + 1 > limit then true
      else exceeds constructs limit
        ((encode (c :: text) ++ rest).drop (scanStartTag (encode (c :: text) ++ rest)).1)
        (if (scanStartTag (encode (c :: text) ++ rest)).2 then depth else depth + 1) := by
  have other (a : Char) (refused : isNameStart a = false) : a ≠ c := by
    rintro rfl
    simp [starts] at refused
  have bang := head_encode (a := '!') (by decide) (other '!' (by decide)) text rest
  have question := head_encode (a := '?') (by decide) (other '?' (by decide)) text rest
  have slash := head_encode (a := '/') (by decide) (other '/' (by decide)) text rest
  rw [encode_cons, utf8EncodeChar_ascii (by decide), List.singleton_append,
    List.cons_append, exceeds_cons, if_neg (by simp), skips.tag _ bang question]
  simp only [bang, slash, ↓reduceIte]

theorem isNameStart_of_valid {tag : Tag} (valid : tag.valid = true) :
    ∃ c text, tag.render = c :: text ∧ isNameStart c = true := by
  have named := Tag.isName_of_valid valid
  cases name : tag.name with
  | nil => simp [name, isName] at named
  | cons c text =>
    simp only [name, isName, Bool.and_eq_true] at named
    exact ⟨c, _, by rw [Tag.render, name, List.cons_append, List.cons_append], named.1⟩

theorem exceeds_start (skips : Skips constructs) {tag : Tag} (valid : tag.valid = true)
    (rest : Bytes) (depth : Nat) :
    exceeds constructs limit (encode (Content.renderStart tag) ++ rest) depth =
      (decide (limit < depth + 1) || exceeds constructs limit rest (depth + 1)) := by
  obtain ⟨c, text, split, starts⟩ := isNameStart_of_valid valid
  have close : encode (Content.renderStart tag) ++ rest =
      encode ('<' :: tag.render) ++ byte '>' :: rest := by
    simp [Content.renderStart, encode_cons, utf8EncodeChar_ascii]
  have scanned := scanStartTag_start (.tag valid) rest
  rw [split] at scanned close
  rw [close, exceeds_tag skips starts, scanned]
  by_cases deep : depth + 1 > limit
  · simp [deep]
  · simp [deep]

theorem exceeds_empty (skips : Skips constructs) {tag : Tag} (valid : tag.valid = true)
    (rest : Bytes) (depth : Nat) :
    exceeds constructs limit (encode (Content.renderEmpty tag) ++ rest) depth =
      (decide (limit < depth + 1) || exceeds constructs limit rest depth) := by
  obtain ⟨c, text, split, starts⟩ := isNameStart_of_valid valid
  have close : encode (Content.renderEmpty tag) ++ rest =
      encode ('<' :: tag.render) ++ byte '/' :: byte '>' :: rest := by
    simp [Content.renderEmpty, encode_cons, utf8EncodeChar_ascii]
  have scanned := scanStartTag_empty (.tag valid) rest
  rw [split] at scanned close
  rw [close, exceeds_tag skips starts, scanned]
  by_cases deep : depth + 1 > limit
  · simp [deep]
  · simp [deep]

theorem pastClose_append {bytes : Bytes} (absent : byte '>' ∉ bytes) (rest : Bytes) :
    pastClose (bytes ++ byte '>' :: rest) = bytes.length + 1 := by
  have found : (bytes ++ byte '>' :: rest).findIdx? (· == byte '>') = some bytes.length := by
    have none : bytes.findIdx? (· == byte '>') = Option.none := by
      refine List.findIdx?_eq_none_iff.mpr fun b member => beq_eq_false_iff_ne.mpr ?_
      rintro rfl
      exact absent member
    rw [List.findIdx?_append, none, List.findIdx?_cons]
    simp
  simp [pastClose, found]

theorem exceeds_end (skips : Skips constructs) {name space : List Char} (named : isName name = true)
    (spaced : space.all isSpace = true) (rest : Bytes) (depth : Nat) :
    exceeds constructs limit (encode (Content.renderEnd name space) ++ rest) depth =
      exceeds constructs limit rest (depth - 1) := by
  have absent : byte '>' ∉ byte '/' :: encode (name ++ space) := by
    rw [List.mem_cons, byte_mem_encode (by decide), List.mem_append]
    rintro (slash | inName | inSpace)
    · exact absurd slash (by decide)
    · exact notMem_of_isName named (by decide) inName
    · exact notMem_of_all spaced (by decide) inSpace
  have split : encode (Content.renderEnd name space) ++ rest =
      byte '<' :: ((byte '/' :: encode (name ++ space)) ++ byte '>' :: rest) := by
    simp [Content.renderEnd, encode_cons, utf8EncodeChar_ascii]
  rw [split, exceeds_cons, if_neg (by simp), skips.tag _ (by simp; decide) (by simp; decide),
    pastClose_append absent]
  have left : ((byte '/' :: encode (name ++ space)) ++ byte '>' :: rest).drop
      ((byte '/' :: encode (name ++ space)).length + 1) = rest := by
    rw [← List.drop_drop, List.drop_left]
    rfl
  rw [left]
  simp [show byte '/' ≠ byte '!' by decide]

end Tags

end OaGateway.Lib.Xml
