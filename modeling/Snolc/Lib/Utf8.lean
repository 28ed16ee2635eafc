import Snolc.Lib.Text

/-! The decoder of UTF-8 accepts exactly the encodings of texts. -/

namespace Snolc

theorem byte_toNat (n : Nat) (small : n < 256) : (UInt8.ofNat n).toNat = n := by
  rw [UInt8.toNat_ofNat']
  omega

theorem continuation_byte (n : Nat) :
    continuation (UInt8.ofNat (n % 64 + 128)) = some (n % 64) := by
  rw [continuation, byte_toNat _ (by omega), if_pos (by omega)]
  congr 1
  omega

theorem char_valid (c : Char) :
    c.val.toNat < 0xD800 ∨ 0xDFFF < c.val.toNat ∧ c.val.toNat < 0x110000 :=
  c.valid

/-- The decoder reads the encoding of one character off the front. -/
theorem decodeUtf8_encodeChar (c : Char) (rest : List UInt8) :
    decodeUtf8 (String.utf8EncodeChar c ++ rest) = (decodeUtf8 rest).map (c :: ·) := by
  -- One case for each length of the encoding; the value is put together again from its digits.
  have valid := char_valid c
  have same : Char.ofNat c.val.toNat = c := Char.ofNat_toNat c
  unfold String.utf8EncodeChar
  generalize c.val.toNat = v at valid same ⊢
  dsimp only
  by_cases one : v ≤ 0x7f
  · rw [if_pos one, List.singleton_append, decodeUtf8.eq_def]
    simp only [byte_toNat v (by omega), if_pos (show v < 0x80 by omega), same]
  by_cases two : v ≤ 0x7ff
  · rw [if_neg one, if_pos two]
    simp only [List.cons_append, List.nil_append]
    rw [decodeUtf8]
    simp only [byte_toNat (v / 64 % 32 + 192) (by omega), continuation_byte,
      if_neg (show ¬ v / 64 % 32 + 192 < 0x80 by omega),
      if_pos (show (v / 64 % 32 + 192) / 32 = 6 by omega)]
    rw [show (v / 64 % 32 + 192) % 32 * 64 + v % 64 = v by omega, if_neg (by omega), same]
  by_cases three : v ≤ 0xffff
  · rw [if_neg one, if_neg two, if_pos three]
    simp only [List.cons_append, List.nil_append]
    rw [decodeUtf8]
    simp only [byte_toNat (v / 4096 % 16 + 224) (by omega), continuation_byte,
      if_neg (show ¬ v / 4096 % 16 + 224 < 0x80 by omega),
      if_neg (show ¬ (v / 4096 % 16 + 224) / 32 = 6 by omega),
      if_pos (show (v / 4096 % 16 + 224) / 16 = 14 by omega)]
    rw [show ((v / 4096 % 16 + 224) % 16 * 64 + v / 64 % 64) * 64 + v % 64 = v by omega,
      if_neg (by omega), same]
  · rw [if_neg one, if_neg two, if_neg three]
    simp only [List.cons_append, List.nil_append]
    rw [decodeUtf8]
    simp only [byte_toNat (v / 262144 % 8 + 240) (by omega), continuation_byte,
      if_neg (show ¬ v / 262144 % 8 + 240 < 0x80 by omega),
      if_neg (show ¬ (v / 262144 % 8 + 240) / 32 = 6 by omega),
      if_neg (show ¬ (v / 262144 % 8 + 240) / 16 = 14 by omega)]
    rw [show (((v / 262144 % 8 + 240) % 8 * 64 + v / 4096 % 64) * 64 + v / 64 % 64) * 64 + v % 64
      = v by omega, if_neg (by omega), same]

theorem toUtf8_eq (text : String) : toUtf8 text = text.toList.flatMap String.utf8EncodeChar := by
  rw [toUtf8, ← String.utf8Encode_toList, List.utf8Encode]
  simp

theorem toNat_ofNat_valid {code : Nat} (valid : code < 0xD800 ∨ 0xDFFF < code ∧ code < 0x110000) :
    (Char.ofNat code).val.toNat = code := by
  have ok : code.isValidChar := valid
  rw [Char.ofNat, dif_pos ok]
  rfl

theorem eq_ofNat (byte : UInt8) {n : Nat} (same : byte.toNat = n) : UInt8.ofNat n = byte := by
  rw [← same, UInt8.ofNat_toNat]

theorem continuation_some {byte : UInt8} {low : Nat} (found : continuation byte = some low) :
    byte.toNat = low + 128 ∧ low < 64 := by
  have bound := byte.toNat_lt
  unfold continuation at found
  split at found
  · rw [Option.some.injEq] at found
    omega
  · simp at found

/-- What the decoder accepts is the encoding of the characters it returns. -/
theorem decodeUtf8_eq_some {bytes : List UInt8} {chars : List Char}
    (decoded : decodeUtf8 bytes = some chars) : bytes = chars.flatMap String.utf8EncodeChar := by
  -- The recursion of the decoder; the refused forms have no characters.
  fun_induction decodeUtf8 bytes generalizing chars with
  | case1 =>
    cases decoded
    rfl
  | case2 first rest lead =>
    rename_i ih
    obtain ⟨tail, found, rfl⟩ := Option.map_eq_some_iff.mp decoded
    rw [List.flatMap_cons, ← ih found, String.utf8EncodeChar]
    simp only [toNat_ofNat_valid (show lead < 0xD800 ∨ _ by omega)]
    rw [if_pos (by omega), eq_ofNat first rfl, List.singleton_append]
  | case5 first lead one second rest low found two code =>
    rename_i ih
    obtain ⟨tail, rest_found, rfl⟩ := Option.map_eq_some_iff.mp decoded
    obtain ⟨second_eq, low_lt⟩ := continuation_some found
    have lead_eq : first.toNat = lead := rfl
    have code_eq : lead % 32 * 64 + low = code := rfl
    rw [List.flatMap_cons, ← ih rest_found, String.utf8EncodeChar]
    simp only [toNat_ofNat_valid (show code < 0xD800 ∨ _ by omega)]
    rw [if_neg (by omega), if_pos (by omega), eq_ofNat first (by omega),
      eq_ofNat second (by omega)]
    rfl
  | case8 first lead one second low found two third rest low3 found3 three code =>
    rename_i ih
    obtain ⟨tail, rest_found, rfl⟩ := Option.map_eq_some_iff.mp decoded
    obtain ⟨second_eq, low_lt⟩ := continuation_some found
    obtain ⟨third_eq, low3_lt⟩ := continuation_some found3
    have lead_eq : first.toNat = lead := rfl
    have code_eq : (lead % 16 * 64 + low) * 64 + low3 = code := rfl
    rw [List.flatMap_cons, ← ih rest_found, String.utf8EncodeChar]
    simp only [toNat_ofNat_valid (show code < 0xD800 ∨ 0xDFFF < code ∧ code < 0x110000 by omega)]
    rw [if_neg (by omega), if_neg (by omega), if_pos (by omega),
      eq_ofNat first (by omega), eq_ofNat second (by omega),
      eq_ofNat third (by omega)]
    rfl
  | case11 first lead one second low found two third low3 found3 three fourth rest low4 found4 code
      least =>
    rename_i ih
    obtain ⟨tail, rest_found, rfl⟩ := Option.map_eq_some_iff.mp decoded
    obtain ⟨second_eq, low_lt⟩ := continuation_some found
    obtain ⟨third_eq, low3_lt⟩ := continuation_some found3
    obtain ⟨fourth_eq, low4_lt⟩ := continuation_some found4
    have lead_eq : first.toNat = lead := rfl
    have code_eq : ((lead % 8 * 64 + low) * 64 + low3) * 64 + low4 = code := rfl
    rw [List.flatMap_cons, ← ih rest_found, String.utf8EncodeChar]
    simp only [toNat_ofNat_valid (show code < 0xD800 ∨ 0xDFFF < code ∧ code < 0x110000 by omega)]
    rw [if_neg (by omega), if_neg (by omega), if_neg (by omega),
      eq_ofNat first (by omega), eq_ofNat second (by omega),
      eq_ofNat third (by omega), eq_ofNat fourth (by omega)]
    rfl
  | _ => simp at decoded

theorem decodeUtf8_flatMap (chars : List Char) :
    decodeUtf8 (chars.flatMap String.utf8EncodeChar) = some chars := by
  induction chars with
  | nil => rw [List.flatMap_nil, decodeUtf8]
  | cons c rest ih => rw [List.flatMap_cons, decodeUtf8_encodeChar, ih, Option.map_some]

/-- The bytes of a text decode to the text. -/
@[simp] theorem fromUtf8_toUtf8 (text : String) : fromUtf8 (toUtf8 text) = some text := by
  rw [fromUtf8, toUtf8_eq, decodeUtf8_flatMap, Option.map_some, String.ofList_toList]

/-- Bytes that decode are the bytes of their text. -/
theorem fromUtf8_eq_some {bytes : List UInt8} {text : String}
    (decoded : fromUtf8 bytes = some text) : bytes = toUtf8 text := by
  obtain ⟨chars, found, rfl⟩ := Option.map_eq_some_iff.mp decoded
  rw [toUtf8_eq, String.toList_ofList, ← decodeUtf8_eq_some found]

end Snolc
