/-! UTF-8 as a list of bytes, next to the character lists it encodes. -/
namespace OaGateway.Lib

abbrev Bytes := List UInt8

/-- The byte of an ASCII character literal. -/
def byte (c : Char) : UInt8 := UInt8.ofNat c.toNat

def encode (text : List Char) : Bytes := text.flatMap String.utf8EncodeChar

/-- The bytes of a string. -/
def utf8 (text : String) : Bytes := encode text.toList

/-- The string some bytes encode, if they are UTF-8. -/
def fromUtf8 (bytes : Bytes) : Option String := String.fromUTF8? bytes.toByteArray

/-- An upper-case hexadecimal digit. -/
def hexDigit (n : Nat) : Char := if n < 10 then Char.ofNat (48 + n) else Char.ofNat (55 + n)

/-- Bytes in hexadecimal, two upper-case digits each. -/
def upperHex (bytes : Bytes) : String :=
  .ofList (bytes.flatMap fun b => [hexDigit (b.toNat / 16), hexDigit (b.toNat % 16)])

@[simp] theorem encode_nil : encode [] = [] := rfl

theorem encode_cons (c : Char) (text : List Char) :
    encode (c :: text) = String.utf8EncodeChar c ++ encode text := rfl

@[simp] theorem encode_append (first second : List Char) :
    encode (first ++ second) = encode first ++ encode second := by
  simp [encode]

private theorem encode_toByteArray (text : List Char) : (encode text).toByteArray =
    text.utf8Encode := rfl

theorem fromUtf8_utf8 (text : String) : fromUtf8 (utf8 text) = some text := by
  have same : (utf8 text).toByteArray = text.toByteArray := by
    rw [utf8, encode_toByteArray, String.utf8Encode_toList]
  simp only [fromUtf8, String.fromUTF8?, same, text.isValidUTF8, ↓reduceDIte]
  rfl

theorem utf8_of_fromUtf8 {bytes : Bytes} {text : String} (decoded : fromUtf8 bytes = some text) :
    utf8 text = bytes := by
  rw [fromUtf8, String.fromUTF8?] at decoded
  split at decoded
  · obtain rfl := Option.some.inj decoded
    have same : (utf8 (String.fromUTF8 bytes.toByteArray ‹_›)).toByteArray = bytes.toByteArray := by
      rw [utf8, encode_toByteArray, String.utf8Encode_toList]
      rfl
    exact List.toByteArray_inj.mp same
  · cases decoded

theorem length_utf8 (text : String) : (utf8 text).length = text.utf8ByteSize := by
  have same : (utf8 text).toByteArray = text.toByteArray := String.utf8Encode_toList
  rw [← List.size_toByteArray, same, String.size_toByteArray]

theorem encode_sublist {part text : List Char} (inside : part.Sublist text) :
    (encode part).Sublist (encode text) := by
  induction inside with
  | slnil => exact .slnil
  | cons c _ ih => exact ih.trans (List.sublist_append_right _ _)
  | cons_cons c _ ih => exact ih.append_left _

theorem encode_ne_nil {text : List Char} (nonempty : text ≠ []) : encode text ≠ [] := by
  cases text with
  | nil => exact absurd rfl nonempty
  | cons c rest =>
    have positive : 0 < (String.utf8EncodeChar c).length := by
      rw [String.length_utf8EncodeChar]
      exact Char.utf8Size_pos c
    rw [encode_cons]
    exact List.append_ne_nil_of_left_ne_nil (List.ne_nil_of_length_pos positive) _

/-! ASCII characters are single bytes below 128, and no other character's
encoding holds one. -/

abbrev IsAscii (c : Char) : Prop := c.toNat < 128

theorem utf8EncodeChar_ascii {c : Char} (ascii : IsAscii c) : String.utf8EncodeChar c =
    [byte c] := by
  have small : c.val.toNat ≤ 0x7f := Nat.le_of_lt_succ ascii
  simp only [String.utf8EncodeChar, small, ↓reduceIte]
  rfl

theorem utf8EncodeChar_high {c : Char} (high : ¬ IsAscii c) :
    ∀ b ∈ String.utf8EncodeChar c, 128 ≤ b.toNat := by
  have large : ¬ c.val.toNat ≤ 0x7f := fun small => high (Nat.lt_succ_of_le small)
  intro b member
  simp only [String.utf8EncodeChar, large, ↓reduceIte] at member
  split at member
  · simp at member
    rcases member with rfl | rfl <;> simp <;> omega
  · split at member
    · simp at member
      rcases member with rfl | rfl | rfl <;> simp <;> omega
    · simp at member
      rcases member with rfl | rfl | rfl | rfl <;> simp <;> omega

theorem byte_toNat {c : Char} (ascii : IsAscii c) : (byte c).toNat = c.toNat := by
  have small : c.toNat < 2 ^ 8 := by
    have : c.toNat < 128 := ascii
    omega
  rw [byte, UInt8.toNat_ofNat', Nat.mod_eq_of_lt small]

theorem byte_inj {a c : Char} (first : IsAscii a) (second : IsAscii c)
    (same : byte a = byte c) : a = c := by
  have numbers := congrArg UInt8.toNat same
  rw [byte_toNat first, byte_toNat second] at numbers
  exact Char.ext (UInt32.toNat_inj.mp numbers)

/-- The byte of an ASCII character stands only where the character does. -/
theorem byte_mem_utf8EncodeChar {a c : Char} (ascii : IsAscii a) :
    byte a ∈ String.utf8EncodeChar c ↔ a = c := by
  by_cases small : IsAscii c
  · rw [utf8EncodeChar_ascii small, List.mem_singleton]
    exact ⟨byte_inj ascii small, congrArg byte⟩
  · constructor
    · intro member
      have high := utf8EncodeChar_high small _ member
      rw [byte_toNat ascii] at high
      have low : a.toNat < 128 := ascii
      omega
    · rintro rfl
      exact absurd ascii small

theorem byte_mem_encode {a : Char} (ascii : IsAscii a) (text : List Char) :
    byte a ∈ encode text ↔ a ∈ text := by
  simp [encode, List.mem_flatMap, byte_mem_utf8EncodeChar ascii]

theorem encode_ascii {text : List Char} (ascii : ∀ c ∈ text, IsAscii c) :
    encode text = text.map byte := by
  induction text with
  | nil => rfl
  | cons c rest ih =>
    rw [encode_cons, utf8EncodeChar_ascii (ascii c (by simp)),
      ih fun c member => ascii c (by simp [member])]
    rfl

/-- Where bytes stop being UTF-8: how many are good, and how many of the next
are known to be bad. None are known when the bytes end too soon. -/
def utf8Fault (good : Nat) : Bytes → Option (Nat × Option Nat)
  | [] => none
  | a :: rest =>
    let continues (b : UInt8) : Bool := 0x80 ≤ b && b ≤ 0xBF
    if a < 0x80 then utf8Fault (good + 1) rest
    else if 0xC2 ≤ a && a ≤ 0xDF then
      match rest with
      | [] => some (good, none)
      | b :: rest => if continues b then utf8Fault (good + 2) rest else some (good, some 1)
    else if 0xE0 ≤ a && a ≤ 0xEF then
      let low : UInt8 := if a == 0xE0 then 0xA0 else 0x80
      let high : UInt8 := if a == 0xED then 0x9F else 0xBF
      match rest with
      | [] => some (good, none)
      | b :: rest =>
        if !(low ≤ b && b ≤ high) then some (good, some 1)
        else match rest with
          | [] => some (good, none)
          | c :: rest => if continues c then utf8Fault (good + 3) rest else some (good, some 2)
    else if 0xF0 ≤ a && a ≤ 0xF4 then
      let low : UInt8 := if a == 0xF0 then 0x90 else 0x80
      let high : UInt8 := if a == 0xF4 then 0x8F else 0xBF
      match rest with
      | [] => some (good, none)
      | b :: rest =>
        if !(low ≤ b && b ≤ high) then some (good, some 1)
        else match rest with
          | [] => some (good, none)
          | c :: rest =>
            if !continues c then some (good, some 2)
            else match rest with
              | [] => some (good, none)
              | d :: rest => if continues d then utf8Fault (good + 4) rest else some (good, some 3)
    else some (good, some 1)

/-- How a `Utf8Error` displays. -/
def utf8ErrorText (bytes : Bytes) : String :=
  match utf8Fault 0 bytes with
  | some (good, some bad) =>
    "invalid utf-8 sequence of " ++ toString bad ++ " bytes from index " ++ toString good
  | some (good, none) => "incomplete utf-8 byte sequence from index " ++ toString good
  | none => ""

end OaGateway.Lib
