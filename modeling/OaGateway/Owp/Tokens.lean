import Mathlib.Data.List.TakeWhile
import OaGateway.Owp.Codec
import OaGateway.Lib.Utf8

/-! Fields between runs of spaces and tabs: what the scan over a frame's bytes cuts
out of it. -/
namespace OaGateway.Owp

open Lib

/-- A run of delimiters, which may be empty. -/
def Blank (text : List Char) : Prop := ∀ c ∈ text, isDelim c = true

/-- A field: characters that are no delimiters, at least one. -/
structure Token (text : List Char) : Prop where
  solid : text ≠ []
  plain : ∀ c ∈ text, isDelim c = false

/-- Text that does not start with a delimiter. -/
def Unled (text : List Char) : Prop := ∀ c ∈ text.head?, isDelim c = false

/-- `text` is a field, and what follows the delimiters after it. -/
structure Begins (text token rest : List Char) : Prop where
  field : Token token
  unled : Unled rest
  apart : ∃ lead gap, Blank lead ∧ Blank gap ∧ (rest ≠ [] → gap ≠ []) ∧
    text = lead ++ token ++ gap ++ rest

/-- `text` is these fields, with delimiters between them and perhaps around them. -/
inductive Fields : List Char → List (List Char) → Prop where
  | nil (blank : Blank text) : Fields text []
  | cons (begins : Begins text token rest) (more : Fields rest tokens) : Fields text
    (token :: tokens)

section Split

theorem dropWhile_blank {lead : List Char} (blank : Blank lead) (text : List Char) :
    (lead ++ text).dropWhile isDelim = text.dropWhile isDelim := List.dropWhile_append_of_pos blank

theorem dropWhile_unled {text : List Char} (unled : Unled text) :
    text.dropWhile isDelim = text := by
  cases text with
  | nil => rfl
  | cons c text => exact List.dropWhile_cons_of_neg (by simp [unled c rfl])

theorem unled_dropWhile (text : List Char) : Unled (text.dropWhile isDelim) := by
  intro c first
  have stopped := List.head?_dropWhile_not isDelim text
  rw [Option.mem_def] at first
  rw [first] at stopped
  simpa using stopped

theorem Token.unled (token : Token text) (rest : List Char) : Unled (text ++ rest) := by
  intro c first
  cases text with
  | nil => exact absurd rfl token.solid
  | cons head tail =>
    obtain rfl : head = c := by simpa using first
    exact token.plain head List.mem_cons_self

theorem splitFirstToken_eq_none {text : List Char} : splitFirstToken text = none ↔ Blank text := by
  rw [splitFirstToken]
  split
  · rename_i empty
    exact ⟨fun _ => List.dropWhile_eq_nil_iff.mp empty, fun _ => rfl⟩
  · rename_i start other
    refine ⟨nofun, fun blank => absurd (List.dropWhile_eq_nil_iff.mpr blank) other⟩

/-- The scan finds the first field and what follows it, and nothing else. -/
theorem splitFirstToken_eq_some {text token rest : List Char} :
    splitFirstToken text = some (token, rest) ↔ Begins text token rest := by
  rw [splitFirstToken]
  constructor
  · intro found
    split at found
    · cases found
    rename_i start other
    cases found
    refine ⟨⟨?solid, ?plain⟩, unled_dropWhile _, text.takeWhile isDelim,
      ((text.dropWhile isDelim).dropWhile fun c => !isDelim c).takeWhile isDelim, ?lead, ?gap,
        ?parted, ?whole⟩
    case solid =>
      obtain ⟨c, tail, whole⟩ := List.exists_cons_of_ne_nil other
      have unled := unled_dropWhile text
      rw [whole] at unled ⊢
      rw [List.takeWhile_cons_of_pos (by simp [unled c rfl])]
      exact List.cons_ne_nil _ _
    case plain =>
      intro c member
      simpa using List.all_eq_true.mp List.all_takeWhile c member
    case lead => exact fun c member => List.all_eq_true.mp List.all_takeWhile c member
    case gap => exact fun c member => List.all_eq_true.mp List.all_takeWhile c member
    case parted =>
      intro more
      cases after : (text.dropWhile isDelim).dropWhile fun c => !isDelim c with
      | nil =>
        rw [after] at more
        exact absurd rfl more
      | cons c tail =>
        have stopped := List.head?_dropWhile_not (fun c => !isDelim c) (text.dropWhile isDelim)
        rw [after] at stopped
        rw [List.takeWhile_cons_of_pos (by simpa using stopped)]
        exact List.cons_ne_nil _ _
    case whole =>
      rw [List.append_assoc, List.takeWhile_append_dropWhile, List.append_assoc,
        List.takeWhile_append_dropWhile, List.takeWhile_append_dropWhile]
  · rintro ⟨token, unled, lead, gap, blank, between, parted, rfl⟩
    rename_i name
    have start : (lead ++ name ++ gap ++ rest).dropWhile isDelim = name ++ (gap ++ rest) := by
      rw [List.append_assoc, List.append_assoc, dropWhile_blank blank,
        dropWhile_unled (token.unled _)]
    have solid : ∀ c ∈ name, (!isDelim c) = true := by simpa using token.plain
    have stops : (gap ++ rest).head?.all (fun c => isDelim c) = true := by
      cases gap with
      | nil =>
        have empty : rest = [] := Decidable.byContradiction fun more => parted more rfl
        rw [empty]
        rfl
      | cons c gap => simpa using between c List.mem_cons_self
    have taken : (name ++ (gap ++ rest)).takeWhile (fun c => !isDelim c) = name := by
      rw [List.takeWhile_append_of_pos solid]
      cases whole : gap ++ rest with
      | nil => simp
      | cons c tail =>
        rw [whole] at stops
        rw [List.takeWhile_cons_of_neg (by simpa using stops), List.append_nil]
    have left : (name ++ (gap ++ rest)).dropWhile (fun c => !isDelim c) = gap ++ rest := by
      rw [List.dropWhile_append_of_pos solid]
      cases whole : gap ++ rest with
      | nil => rfl
      | cons c tail =>
        rw [whole] at stops
        exact List.dropWhile_cons_of_neg (by simpa using stops)
    rw [start]
    split
    · rename_i empty
      exact absurd (List.append_eq_nil_iff.mp empty).1 token.solid
    · rw [taken, left, dropWhile_blank between, dropWhile_unled unled]

end Split

section Tokenize

/-- Fields are read off one by one. -/
theorem fields_cons {text token : List Char} {tokens : List (List Char)} :
    Fields text (token :: tokens) ↔
      ∃ rest, splitFirstToken text = some (token, rest) ∧ Fields rest tokens := by
  constructor
  · intro fields
    cases fields with
    | cons begins more => exact ⟨_, splitFirstToken_eq_some.mpr begins, more⟩
  · rintro ⟨rest, found, more⟩
    exact .cons (splitFirstToken_eq_some.mp found) more

theorem fields_nil {text : List Char} : Fields text [] ↔ splitFirstToken text = none := by
  rw [splitFirstToken_eq_none]
  exact ⟨fun fields => by cases fields; assumption, .nil⟩

/-- With room for one more, the tokens are the fields. -/
theorem tokenize_eq_iff {max : Nat} {text : List Char} {tokens : List (List Char)}
    (room : tokens.length < max) :
    tokenize max text = tokens.map String.ofList ↔ Fields text tokens := by
  induction tokens generalizing max text with
  | nil =>
    cases max with
    | zero => cases room
    | succ max =>
      rw [tokenize, fields_nil]
      cases splitFirstToken text <;> simp
  | cons token tokens ih =>
    cases max with
    | zero => cases room
    | succ max =>
      rw [tokenize, fields_cons]
      cases splitFirstToken text with
      | none => simp
      | some found =>
        obtain ⟨first, rest⟩ := found
        have later := @ih max rest (by simpa using room)
        simp [later, String.ofList_inj]

end Tokenize

section Bytes

/-- Space or tab. -/
def isDelimByte (b : UInt8) : Bool := b == byte ' ' || b == byte '\t'

/-- The scan as the code runs it, over bytes. An inner `none` is a slice that is no
UTF-8, where the code would panic. -/
def sliceFirstToken (text : String) : Option (Option String × Option String) :=
  let bytes := utf8 text
  (bytes.findIdx? fun b => !isDelimByte b).map fun start =>
    let stop := ((bytes.drop start).findIdx? isDelimByte).elim bytes.length (start + ·)
    let restStart := ((bytes.drop stop).findIdx? fun b => !isDelimByte b).elim
      bytes.length (stop + ·)
    (fromUtf8 ((bytes.take stop).drop start), fromUtf8 (bytes.drop restStart))

/-- A delimiter is one byte, and no other character's encoding holds one. -/
theorem isDelimByte_eq {c : Char} {b : UInt8} (member : b ∈ String.utf8EncodeChar c) :
    isDelimByte b = isDelim c := by
  have spelled (delim : Char) (ascii : IsAscii delim) : (b == byte delim) = (c == delim) := by
    rw [Bool.eq_iff_iff, beq_iff_eq, beq_iff_eq]
    constructor
    · rintro rfl
      exact ((byte_mem_utf8EncodeChar ascii).mp member).symm
    · rintro rfl
      rw [utf8EncodeChar_ascii ascii] at member
      exact List.mem_singleton.mp member
  rw [isDelimByte, isDelim, spelled ' ' (by decide), spelled '\t' (by decide)]

section Spans
variable {test : Char → Bool} {reads : UInt8 → Bool}

theorem dropWhile_encode (same : ∀ c, ∀ b ∈ String.utf8EncodeChar c, reads b = test c)
    (text : List Char) : (encode text).dropWhile reads = encode (text.dropWhile test) := by
  induction text with
  | nil => rfl
  | cons c text ih =>
    rw [encode_cons]
    by_cases passes : test c = true
    · rw [List.dropWhile_cons_of_pos passes, List.dropWhile_append_of_pos, ih]
      intro b member
      rw [same c b member, passes]
    · rw [List.dropWhile_cons_of_neg passes, encode_cons]
      obtain ⟨b, more, whole⟩ := List.exists_cons_of_ne_nil (@String.utf8EncodeChar_ne_nil c)
      have first := same c b (whole ▸ List.mem_cons_self)
      rw [whole]
      exact List.dropWhile_cons_of_neg (by rwa [first])

theorem takeWhile_encode (same : ∀ c, ∀ b ∈ String.utf8EncodeChar c, reads b = test c)
    (text : List Char) : (encode text).takeWhile reads = encode (text.takeWhile test) := by
  have dropped := dropWhile_encode same text
  have whole : (encode text).takeWhile reads ++ (encode text).dropWhile reads =
      encode (text.takeWhile test) ++ encode (text.dropWhile test) := by
    rw [List.takeWhile_append_dropWhile, ← encode_append, List.takeWhile_append_dropWhile]
  rw [dropped] at whole
  exact List.append_cancel_right whole

end Spans

theorem elim_findIdx? (test : UInt8 → Bool) (bytes : Bytes) {start : Nat}
    (inside : start ≤ bytes.length) : ((bytes.drop start).findIdx? test).elim bytes.length
      (start + ·) = start + (bytes.drop start).findIdx test := by
  have length : start + (bytes.drop start).length = bytes.length := by
    rw [List.length_drop]
    omega
  rw [List.findIdx_eq_getD_findIdx?]
  cases (bytes.drop start).findIdx? test with
  | none => exact length.symm
  | some found => rfl

/-- The slices fall between characters: the scan over bytes cuts out what the scan
over characters does. -/
theorem sliceFirstToken_eq (text : String) :
    sliceFirstToken text = (splitFirstToken text.toList).map fun split =>
      (some (.ofList split.1), some (.ofList split.2)) := by
  have drops : ∀ c, ∀ b ∈ String.utf8EncodeChar c, isDelimByte b = isDelim c :=
    fun c b => isDelimByte_eq
  have solid : ∀ c, ∀ b ∈ String.utf8EncodeChar c, (!isDelimByte b) = !isDelim c := by
    intro c b member
    rw [drops c b member]
  have decoded (part : List Char) : fromUtf8 (encode part) = some (.ofList part) := by
    have again := fromUtf8_utf8 (.ofList part)
    rwa [utf8, String.toList_ofList] at again
  have lead := dropWhile_encode drops text.toList
  rw [sliceFirstToken, splitFirstToken, utf8]
  cases found : (encode text.toList).findIdx? fun b => !isDelimByte b with
  | none =>
    rw [List.findIdx?_eq_none_iff] at found
    have empty : (encode text.toList).dropWhile isDelimByte = [] :=
      List.dropWhile_eq_nil_iff.mpr fun b member => by simpa using found b member
    rw [lead] at empty
    split
    · rfl
    · rename_i start other
      exact absurd empty (encode_ne_nil other)
  | some start =>
    obtain ⟨inside, first⟩ := List.findIdx?_eq_some_iff_findIdx_eq.mp found
    have opened : (encode text.toList).drop start = encode (text.toList.dropWhile isDelim) := by
      rw [← first, ← List.dropWhile_eq_drop_findIdx_not, lead]
    split
    · rename_i empty
      rw [empty, encode_nil, List.drop_eq_nil_iff] at opened
      omega
    · rename_i rest other
      have ends := (takeWhile_encode solid (text.toList.dropWhile isDelim))
      have after := (dropWhile_encode solid (text.toList.dropWhile isDelim))
      rw [List.takeWhile_eq_take_findIdx_not] at ends
      rw [List.dropWhile_eq_drop_findIdx_not] at after
      simp only [Bool.not_not, ← opened] at ends after
      have stop := elim_findIdx? isDelimByte (encode text.toList) (Nat.le_of_lt inside)
      have within : start + ((encode text.toList).drop start).findIdx isDelimByte ≤
          (encode text.toList).length := by
        have bound := @List.findIdx_le_length _ isDelimByte ((encode text.toList).drop start)
        rw [List.length_drop] at bound
        omega
      have restStart := elim_findIdx? (fun b => !isDelimByte b) (encode text.toList) within
      have left := dropWhile_encode drops
        ((text.toList.dropWhile isDelim).dropWhile fun c => !isDelim c)
      rw [← after, List.dropWhile_eq_drop_findIdx_not] at left
      simp only [List.drop_drop] at left
      simp only [Option.map_some, stop, restStart]
      rw [List.drop_take, Nat.add_sub_cancel_left, ends, decoded, left, decoded]

end Bytes

end OaGateway.Owp
