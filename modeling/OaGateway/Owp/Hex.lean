import OaGateway.Agra.Hex
import OaGateway.Owp.Convert
import OaGateway.Uci.JsonTrip

/-! The two hexBinary readers of the gateway compared, and why a payload in hex
is never taken for a number. -/
namespace OaGateway.Owp

open Lib Lib.Json OaGateway.Core

theorem hexNibble_eq_ok {b value : UInt8} : hexNibble b = .ok value ↔
    Agra.nibble b = some value := by
  rw [hexNibble]
  cases Agra.nibble b <;> simp

theorem decodePairs_cons {high low : UInt8} {rest out : Bytes} :
    decodePairs (high :: low :: rest) = .ok out ↔
      ∃ hi lo tail, Agra.nibble high = some hi ∧ Agra.nibble low = some lo ∧
      decodePairs rest = .ok tail ∧
        out = ((hi <<< 4) ||| lo) :: tail := by
  rw [decodePairs]
  constructor
  · intro run
    obtain ⟨hi, first, run⟩ := bind_eq_ok.mp run
    obtain ⟨lo, second, run⟩ := bind_eq_ok.mp run
    obtain ⟨tail, later, run⟩ := bind_eq_ok.mp run
    exact ⟨hi, lo, tail, hexNibble_eq_ok.mp first, hexNibble_eq_ok.mp second, later,
      (Except.ok.inj run).symm⟩
  · rintro ⟨hi, lo, tail, first, second, later, rfl⟩
    exact bind_eq_ok.mpr ⟨hi, hexNibble_eq_ok.mpr first,
      bind_eq_ok.mpr ⟨lo, hexNibble_eq_ok.mpr second, bind_eq_ok.mpr ⟨tail, later, rfl⟩⟩⟩

/-- The digits of some bytes. -/
def digitsOf (bytes : Bytes) : Bytes := bytes.filter fun b => !Agra.isAsciiWhitespace b

/-- Digits and the bytes they stand for, two for one. -/
inductive Spells : Bytes → Bytes → Prop where
  | nil : Spells [] []
  | cons (high : Agra.nibble first = some hi) (low : Agra.nibble second = some lo)
      (rest : Spells digits bytes) :
      Spells (first :: second :: digits) (((hi <<< 4) ||| lo) :: bytes)

theorem Spells.length_eq (spells : Spells digits bytes) : digits.length = 2 * bytes.length := by
  induction spells with
  | nil => rfl
  | cons high low rest ih =>
    simp only [List.length_cons, ih]
    omega

/-- Digits stand for the same bytes only. -/
theorem Spells.unique (spells : Spells digits bytes) (other : Spells digits others) :
    bytes = others := by
  induction spells generalizing others with
  | nil =>
    cases other
    rfl
  | cons high low rest ih =>
    cases other with
    | cons upper lower more =>
      cases high.symm.trans upper
      cases low.symm.trans lower
      rw [ih more]

/-- Digits that come in pairs stand for some bytes. -/
theorem exists_spells (even : digits.length % 2 = 0)
    (known : ∀ b ∈ digits, (Agra.nibble b).isSome = true) :
    ∃ bytes, Spells digits bytes := by
  induction digits using decodePairs.induct with
  | case1 high low rest ih =>
    obtain ⟨upper, lower, more⟩ := by simpa using known
    obtain ⟨hi, first⟩ := Option.isSome_iff_exists.mp upper
    obtain ⟨lo, second⟩ := Option.isSome_iff_exists.mp lower
    simp only [List.length_cons] at even
    obtain ⟨bytes, later⟩ := ih (by omega) more
    exact ⟨_, .cons first second later⟩
  | case2 digits short =>
    match digits, short with
    | [], _ => exact ⟨[], .nil⟩
    | [_], _ => cases even
    | high :: low :: rest, short => exact absurd rfl (short high low rest)

theorem Spells.known (spells : Spells digits bytes) :
    ∀ b ∈ digits, (Agra.nibble b).isSome = true := by
  induction spells with
  | nil => nofun
  | cons high low rest ih => simpa [high, low] using ih

/-- This reader takes its digits pair by pair. -/
theorem decodePairs_eq_ok (even : digits.length % 2 = 0) : decodePairs digits = .ok bytes ↔
    Spells digits bytes := by
  induction digits using decodePairs.induct generalizing bytes with
  | case1 high low rest ih =>
    simp only [List.length_cons] at even
    have later (bytes : Bytes) := @ih bytes (by omega)
    rw [decodePairs_cons]
    constructor
    · rintro ⟨hi, lo, tail, first, second, decoded, rfl⟩
      exact .cons first second ((later tail).mp decoded)
    · intro spells
      cases spells with
      | cons first second rest => exact ⟨_, _, _, first, second, (later _).mpr rest, rfl⟩
  | case2 digits short =>
    match digits, short with
    | [], _ =>
      rw [decodePairs, Except.ok.injEq]
      · exact ⟨fun same => same ▸ .nil, fun spells => by cases spells; rfl⟩
      · nofun
    | [_], _ => cases even
    | high :: low :: rest, short => exact absurd rfl (short high low rest)

/-- The wrapper's reader takes them one by one. `held` is the digit of the half
byte still open. -/
theorem decodeLoop_eq_ok {text held out : Bytes} {high : Option UInt8}
    (first : held.map Agra.nibble = high.toList.map some) :
    Agra.decodeLoop text high out = .ok bytes ↔
      ∃ rest, Spells (held ++ digitsOf text) rest ∧ bytes = out ++ rest := by
  induction text generalizing high held out with
  | nil =>
    cases high with
    | none =>
      obtain rfl : held = [] := by simpa using first
      rw [Agra.decodeLoop, Except.ok.injEq]
      constructor
      · rintro rfl
        exact ⟨[], .nil, (List.append_nil _).symm⟩
      · rintro ⟨rest, spells, rfl⟩
        cases spells
        exact (List.append_nil _).symm
    | some hi =>
      obtain ⟨one, rfl, known⟩ : ∃ one, held = [one] ∧ Agra.nibble one = some hi := by
        simpa [List.map_eq_cons_iff] using first
      rw [Agra.decodeLoop]
      constructor
      · intro refused
        cases refused
      · rintro ⟨rest, spells, -⟩
        cases spells
  | cons b text ih =>
    rw [Agra.decodeLoop]
    split
    · rename_i blank
      have skipped : digitsOf (b :: text) = digitsOf text := by simp [digitsOf, blank]
      rw [skipped]
      exact ih first
    · rename_i solid
      have kept : digitsOf (b :: text) = b :: digitsOf text := by simp [digitsOf, solid]
      rw [kept]
      split
      · rename_i foreign
        constructor
        · intro refused
          cases refused
        · rintro ⟨rest, spells, -⟩
          have known := spells.known b (List.mem_append_right _ List.mem_cons_self)
          rw [foreign] at known
          cases known
      · rename_i low digit
        cases high with
        | none =>
          obtain rfl : held = [] := by simpa using first
          exact @ih [b] out (some low) (by simp [digit])
        | some hi =>
          obtain ⟨one, rfl, known⟩ : ∃ one, held = [one] ∧ Agra.nibble one = some hi := by
            simpa [List.map_eq_cons_iff] using first
          have later := @ih [] (out ++ [(hi <<< 4) ||| low]) none rfl
          dsimp only
          rw [later]
          constructor
          · rintro ⟨rest, spells, rfl⟩
            exact ⟨_, .cons known digit spells, List.append_assoc ..⟩
          · rintro ⟨rest, spells, rfl⟩
            cases spells with
            | cons first second spells =>
              cases known.symm.trans first
              cases digit.symm.trans second
              exact ⟨_, spells, by simp⟩

theorem decodeLoop_spells {text : Bytes} : Agra.decodeLoop text none [] = .ok bytes ↔
    Spells (digitsOf text) bytes := by
  rw [@decodeLoop_eq_ok _ _ [] _ none rfl]
  simp

theorem decodeHex_eq_ok {text : String} : decodeHex text = .ok bytes ↔
    Spells (digitsOf (utf8 text)) bytes := by
  rw [decodeHex, ← digitsOf]
  split
  · rename_i odd
    constructor
    · nofun
    · intro spells
      have even := spells.length_eq
      exact absurd (by omega) odd
  · rename_i even
    exact decodePairs_eq_ok (by simpa using even)

/-- More digits than an `EncodedPayload` may have. -/
def Oversized (text : String) : Prop := Agra.maxDecodedPayload < (digitsOf (utf8 text)).length / 2

theorem agra_decodeHex (text : String) : Oversized text ∧
    Agra.decodeHex text = .error .payloadTooLarge ∨ ¬ Oversized text ∧
      Agra.decodeHex text = Agra.decodeLoop (utf8 text) none [] := by
  have fewer : (digitsOf (utf8 text)).length ≤ (utf8 text).length := List.length_filter_le _ _
  rw [Oversized, Agra.decodeHex, ← digitsOf]
  simp only [Bool.and_eq_true, decide_eq_true_eq]
  split
  · rename_i large
    exact .inl ⟨large.2, rfl⟩
  · rename_i small
    exact .inr ⟨fun large => small ⟨by omega, large⟩, rfl⟩

theorem agra_decodeHex_eq_ok {text : String} :
    Agra.decodeHex text = .ok bytes ↔ Spells (digitsOf (utf8 text)) bytes ∧ ¬ Oversized text := by
  obtain ⟨large, refused⟩ | ⟨small, same⟩ := agra_decodeHex text
  · simp [refused, large]
  · rw [same, decodeLoop_spells]
    simp [small]

/-- What the wrapper's reader decodes, this one decodes to the same. -/
theorem decodeHex_of_agra {text : String} (decoded : Agra.decodeHex text = .ok bytes) :
    decodeHex text = .ok bytes :=
  decodeHex_eq_ok.mpr (agra_decodeHex_eq_ok.mp decoded).1

theorem spells_hexBytes (bytes : Bytes) : Spells (digitsOf (Agra.hexBytes bytes)) bytes :=
  decodeLoop_spells.mp (Agra.decodeLoop_hexBytes bytes [])

theorem utf8_encodeHexUpper (bytes : Bytes) : utf8 (encodeHexUpper bytes) = Agra.hexBytes bytes :=
  Agra.utf8_upperHex bytes

theorem decodeHex_encodeHexUpper (bytes : Bytes) : decodeHex (encodeHexUpper bytes) =
    .ok bytes := by
  rw [decodeHex_eq_ok, utf8_encodeHexUpper]
  exact spells_hexBytes bytes

/-- A hexadecimal digit in ASCII, of either case. -/
def IsHexDigit (b : UInt8) : Prop :=
  byte '0' ≤ b ∧ b ≤ byte '9' ∨ byte 'A' ≤ b ∧ b ≤ byte 'F' ∨ byte 'a' ≤ b ∧ b ≤ byte 'f'

instance (b : UInt8) : Decidable (IsHexDigit b) := inferInstanceAs (Decidable (_ ∨ _))

theorem nibble_table : ∀ b : Fin 256, (Agra.nibble (UInt8.ofNat b)).isSome = true ↔
    IsHexDigit (UInt8.ofNat b) := by
  decide +kernel

theorem nibble_isSome (b : UInt8) : (Agra.nibble b).isSome = true ↔ IsHexDigit b := by
  have table := nibble_table ⟨b.toNat, b.toNat_lt⟩
  rwa [UInt8.ofNat_toNat] at table

/-- What a reader of hex accepts: digits in pairs. -/
def IsHex (digits : Bytes) : Prop := digits.length % 2 = 0 ∧ ∀ b ∈ digits, IsHexDigit b

theorem isHex_iff : IsHex digits ↔ ∃ bytes, Spells digits bytes := by
  constructor
  · intro hex
    exact exists_spells hex.1 fun b member => (nibble_isSome b).mpr (hex.2 b member)
  · rintro ⟨bytes, spells⟩
    refine ⟨?_, fun b member => (nibble_isSome b).mp (spells.known b member)⟩
    rw [spells.length_eq]
    exact Nat.mul_mod_right 2 _

theorem decodeHex_isHex {text : String} : (∃ bytes, decodeHex text = .ok bytes) ↔
    IsHex (digitsOf (utf8 text)) := by
  rw [isHex_iff]
  exact exists_congr fun bytes => decodeHex_eq_ok

theorem spells_encodeHexUpper {text : String}
    (digits : digitsOf (utf8 text) = utf8 (encodeHexUpper bytes)) :
    Spells (digitsOf (utf8 text)) bytes := by
  have same : digitsOf (digitsOf (utf8 text)) = digitsOf (utf8 text) :=
    List.filter_filter .. |>.trans (by simp [digitsOf])
  rw [← same, digits, utf8_encodeHexUpper]
  exact spells_hexBytes bytes

theorem not_oversized {text : String}
    (few : (digitsOf (utf8 text)).length ≤ 2 * Agra.maxDecodedPayload + 1) :
    ¬ Oversized text := by
  rw [Oversized]
  omega

theorem decodeLoop_ne_payloadTooLarge {text out : Bytes} {high : Option UInt8} :
    Agra.decodeLoop text high out ≠ .error .payloadTooLarge := by
  fun_induction Agra.decodeLoop text high out with
  | case1 | case2 =>
    intro refused
    cases refused
  | case3 b rest high out blank ih => exact ih
  | case4 =>
    intro refused
    cases refused
  | case5 b rest out blank low digit ih => exact ih
  | case6 b rest out blank low digit hi ih => exact ih

theorem agra_decodeHex_payloadTooLarge {text : String} :
    Agra.decodeHex text = .error .payloadTooLarge ↔ Oversized text := by
  obtain ⟨large, refused⟩ | ⟨small, same⟩ := agra_decodeHex text
  · simp [refused, large]
  · rw [same]
    exact ⟨fun refused => absurd refused decodeLoop_ne_payloadTooLarge,
      fun large => absurd large small⟩

/-- The two readers of hex agree on every text of no more digits than the
wrapper's takes, accept what is hex and undo the writer. -/
theorem hex_decoders (text : String) :
    ((digitsOf (utf8 text)).length ≤ 2 * Agra.maxDecodedPayload + 1 →
      (∀ bytes, Agra.decodeHex text = .ok bytes ↔ decodeHex text = .ok bytes) ∧
      ((∃ bytes, Agra.decodeHex text = .ok bytes ∧ decodeHex text = .ok bytes) ↔
        IsHex (digitsOf (utf8 text)))) ∧
    (Agra.decodeHex text = .error .payloadTooLarge ↔
      Agra.maxDecodedPayload < (digitsOf (utf8 text)).length / 2) ∧
    (∀ bytes, Agra.decodeHex text = .ok bytes → bytes.length ≤ Agra.maxDecodedPayload) ∧
    ∀ bytes : Bytes, bytes.length ≤ Agra.maxDecodedPayload →
      digitsOf (utf8 text) = utf8 (encodeHexUpper bytes) →
      Agra.decodeHex text = .ok bytes ∧ decodeHex text = .ok bytes := by
  refine ⟨?agree, agra_decodeHex_payloadTooLarge, ?bounded, ?undoes⟩
  case agree =>
    intro few
    have small := not_oversized few
    have same (bytes : Bytes) : Agra.decodeHex text = .ok bytes ↔ decodeHex text = .ok bytes := by
      rw [agra_decodeHex_eq_ok, decodeHex_eq_ok, and_iff_left small]
    refine ⟨same, ?_⟩
    rw [← decodeHex_isHex]
    exact exists_congr fun bytes => ⟨And.right, fun decoded => ⟨(same bytes).mpr decoded, decoded⟩⟩
  case bounded =>
    intro bytes decoded
    obtain ⟨spells, small⟩ := agra_decodeHex_eq_ok.mp decoded
    have length := spells.length_eq
    rw [Oversized] at small
    omega
  case undoes =>
    intro bytes fits digits
    have spells := spells_encodeHexUpper digits
    have length := spells.length_eq
    refine ⟨agra_decodeHex_eq_ok.mpr ⟨spells, not_oversized ?_⟩, decodeHex_eq_ok.mpr spells⟩
    omega

section Letters

/-- A digit stands for less than sixteen, and one for eleven or twelve is a letter. -/
theorem nibble_spec :
    ∀ b : Fin 256, (Agra.nibble (UInt8.ofNat b)).all (fun value => value.toNat < 16 &&
    (value != 11 && value != 12 || isForeign (Char.ofNat b) && byte (Char.ofNat b) ==
      UInt8.ofNat b)) = true := by
  decide +kernel

/-- `<` and `{` end in eleven or twelve. -/
theorem low_of_join : ∀ hi lo : Fin 16, (UInt8.ofNat hi <<< 4) ||| UInt8.ofNat lo = byte '<' ∨
    (UInt8.ofNat hi <<< 4) ||| UInt8.ofNat lo = byte '{' → lo = 11 ∨ lo = 12 := by
  decide +kernel

/-- A digit that is a letter, in bytes that decode to `<` or `{` somewhere. -/
theorem foreign_of_decodePairs {digits out : Bytes}
    (decoded : decodePairs digits = .ok out) {b : UInt8} (member : b ∈ out)
    (markup : b = byte '<' ∨ b = byte '{') :
    ∃ c, byte c ∈ digits ∧ isForeign c = true := by
  induction digits using decodePairs.induct generalizing out with
  | case1 high low rest ih =>
    obtain ⟨hi, lo, tail, first, second, later, rfl⟩ := decodePairs_cons.mp decoded
    rcases List.mem_cons.mp member with rfl | below
    · have one := nibble_spec ⟨high.toNat, high.toNat_lt⟩
      have two := nibble_spec ⟨low.toNat, low.toNat_lt⟩
      simp only [UInt8.ofNat_toNat, first, second, Option.all_some, Bool.and_eq_true,
        decide_eq_true_eq, Bool.or_eq_true, bne_iff_ne, beq_iff_eq] at one two
      have ends := low_of_join ⟨hi.toNat, one.1⟩ ⟨lo.toNat, two.1⟩ (by simpa using markup)
      have letter : lo = 11 ∨ lo = 12 := by
        rcases ends with same | same
        · have number : lo.toNat = 11 := congrArg Fin.val same
          exact .inl (UInt8.toNat_inj.mp number)
        · have number : lo.toNat = 12 := congrArg Fin.val same
          exact .inr (UInt8.toNat_inj.mp number)
      rcases two.2 with ⟨not11, not12⟩ | ⟨foreign, spelled⟩
      · rcases letter with same | same
        · exact absurd same not11
        · exact absurd same not12
      · exact ⟨_, by simp [spelled], foreign⟩
    · obtain ⟨c, inside, foreign⟩ := ih later below
      exact ⟨c, by simp [inside], foreign⟩
  | case2 digits short =>
    rw [decodePairs] at decoded
    · cases decoded
      cases member
    · exact short

/-- Hex that decodes to markup has a letter no number is written with. -/
theorem foreign_of_decodeHex {text : String} (decoded : decodeHex text = .ok out) {b : UInt8}
    (member : b ∈ out) (markup : b = byte '<' ∨ b = byte '{') :
    ∃ c ∈ text.toList, isForeign c = true := by
  rw [decodeHex] at decoded
  split at decoded
  · cases decoded
  · obtain ⟨c, inside, foreign⟩ := foreign_of_decodePairs decoded member markup
    have ascii : IsAscii c := by
      rcases isForeign_cases foreign with rfl | rfl | rfl | rfl <;> decide
    exact ⟨c, (byte_mem_encode ascii _).mp (List.mem_of_mem_filter inside), foreign⟩

/-- The JSON reader takes such a text for a string, whatever the type. -/
theorem kept_of_foreign {text : String} (foreign : isForeign c = true) (member : c ∈ text.toList)
    (primitive : String) :
    Uci.Kept primitive (.string text) := by
  have other {word : String} (without : (word.toList.all fun c => !isForeign c) = true) :
      text ≠ word := by
    rintro rfl
    have plain := List.all_eq_true.mp without c member
    simp [foreign] at plain
  have unread : Uci.parseNumericString primitive text = none := by
    rw [Uci.parseNumericString, parseI64, parseInteger_foreign foreign member,
      F64.parse_foreign foreign member]
    split <;> rfl
  refine ⟨?_, ?_, unread⟩
  · rintro ⟨-, same | same⟩
    · exact other (by decide) same
    · exact other (by decide) same
  · rintro ⟨-, same | same⟩
    · exact other (by decide) same
    · exact other (by decide) same

end Letters

end OaGateway.Owp
