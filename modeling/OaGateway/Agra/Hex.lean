import OaGateway.Agra.Wrapper

/-! HexBinary as the gateway writes it and as it reads it back. -/
namespace OaGateway.Agra

open Lib

/-- The digits of some bytes, as bytes. -/
def hexBytes (bytes : Bytes) : Bytes :=
  bytes.flatMap fun b => [byte (hexDigit (b.toNat / 16)), byte (hexDigit (b.toNat % 16))]

/-- A digit is one byte, no white space, and read as its value. -/
theorem hexDigit_spec : ∀ n : Fin 16, IsAscii (hexDigit n) ∧
    isAsciiWhitespace (byte (hexDigit n)) = false ∧
      nibble (byte (hexDigit n)) = some (UInt8.ofNat n) := by
  decide

theorem join_nibbles : ∀ b : Fin 256,
    (UInt8.ofNat (b.val / 16) <<< 4) ||| UInt8.ofNat (b.val % 16) = UInt8.ofNat b.val := by
  decide +kernel

theorem nibble_high (b : UInt8) : b.toNat / 16 < 16 := by
  have := b.toNat_lt
  omega

theorem nibble_low (b : UInt8) : b.toNat % 16 < 16 := Nat.mod_lt _ (by decide)

theorem utf8_upperHex (bytes : Bytes) : utf8 (upperHex bytes) = hexBytes bytes := by
  have spelled : (upperHex bytes).toList =
      bytes.flatMap fun b => [hexDigit (b.toNat / 16), hexDigit (b.toNat % 16)] :=
        String.toList_ofList
  have ascii : ∀ c ∈ bytes.flatMap fun b => [hexDigit (b.toNat / 16), hexDigit (b.toNat % 16)],
      IsAscii c := by
    intro c member
    obtain ⟨b, -, digit⟩ := List.mem_flatMap.mp member
    rcases List.mem_pair.mp digit with rfl | rfl
    · exact (hexDigit_spec ⟨_, nibble_high b⟩).1
    · exact (hexDigit_spec ⟨_, nibble_low b⟩).1
  rw [utf8, spelled, encode_ascii ascii, hexBytes, List.map_flatMap]
  rfl

theorem length_hexBytes (bytes : Bytes) : (hexBytes bytes).length = 2 * bytes.length := by
  simp [hexBytes, Nat.mul_comm]

theorem decodeLoop_hexBytes (bytes out : Bytes) : decodeLoop (hexBytes bytes) none out =
    .ok (out ++ bytes) := by
  induction bytes generalizing out with
  | nil => simp [hexBytes, decodeLoop]
  | cons b rest ih =>
    obtain ⟨-, highSpace, high⟩ := hexDigit_spec ⟨_, nibble_high b⟩
    obtain ⟨-, lowSpace, low⟩ := hexDigit_spec ⟨_, nibble_low b⟩
    have joined : (UInt8.ofNat (b.toNat / 16) <<< 4) ||| UInt8.ofNat (b.toNat % 16) = b := by
      have := join_nibbles ⟨b.toNat, b.toNat_lt⟩
      rwa [UInt8.ofNat_toNat] at this
    have spelled : hexBytes (b :: rest) =
        byte (hexDigit (b.toNat / 16)) :: byte (hexDigit (b.toNat % 16)) :: hexBytes rest := rfl
    rw [spelled, decodeLoop, highSpace, if_neg Bool.false_ne_true, high]
    simp only
    rw [decodeLoop, lowSpace, if_neg Bool.false_ne_true, low]
    simp only
    rw [joined, ih, List.append_assoc]
    rfl

/-- What is written in hex, and not too long, is read back. -/
theorem decodeHex_upperHex {bytes : Bytes} (fits : bytes.length ≤ maxDecodedPayload) :
    decodeHex (upperHex bytes) = .ok bytes := by
  have short : ¬ (hexBytes bytes).length / 2 > maxDecodedPayload := by
    rw [length_hexBytes]
    omega
  rw [decodeHex, utf8_upperHex]
  simp only [decide_eq_false short, Bool.false_and, Bool.false_eq_true, ↓reduceIte]
  exact decodeLoop_hexBytes bytes []

/-- A loop over the digits writes at most one byte for each. -/
theorem length_decodeLoop {text out bytes : Bytes} {high : Option UInt8}
    (run : decodeLoop text high out = .ok bytes) : bytes.length ≤ out.length + text.length := by
  fun_induction decodeLoop text high out with
  | case1 out =>
    obtain rfl := Except.ok.inj run
    exact Nat.le_refl _
  | case2 => cases run
  | case3 b rest high out blank ih =>
    have := ih run
    simp only [List.length_cons]
    omega
  | case4 => cases run
  | case5 b rest out blank low digit ih =>
    have := ih run
    simp only [List.length_cons]
    omega
  | case6 b rest out blank low digit hi ih =>
    have := ih run
    simp only [List.length_append, List.length_cons, List.length_nil] at this ⊢
    omega

theorem length_decodeHex {text : String} {bytes : Bytes} (run : decodeHex text = .ok bytes) :
    bytes.length ≤ (utf8 text).length := by
  simp only [decodeHex] at run
  split at run
  · cases run
  · simpa using length_decodeLoop run

end OaGateway.Agra
