import BeaconApi.Proofs.Text.Encoding
import BeaconApi.Text.Decimal
import BeaconApi.Wire.Shape

namespace BeaconApi

theorem readDigits_append (bound value : Nat) (first second : List Char) :
    readDigits bound value (first ++ second) =
      (readDigits bound value first).bind fun value => readDigits bound value second := by
  induction first generalizing value with
  | nil => rfl
  | cons c first ih =>
    simp only [List.cons_append, readDigits]
    split
    · rfl
    · split
      · exact ih _
      · rfl

theorem digitValue?_digitChar : ∀ digit < 10, digitValue? (Nat.digitChar digit) = some digit := by
  decide

/-- The digits of a number within bounds are read as the number. -/
theorem readDigits_toDigits {bound n : Nat} (h : n < bound) :
    readDigits bound 0 (Nat.toDigits 10 n) = .ok n := by
  have hdigit (value digit : Nat) (hdigit : digit < 10) (hbound : value * 10 + digit < bound) :
      readDigits bound value [Nat.digitChar digit] = .ok (value * 10 + digit) := by
    simp [readDigits, digitValue?_digitChar digit hdigit, hbound]
  induction n using Nat.strongRecOn with
  | ind n ih =>
    by_cases hsingle : n < 10
    · rw [Nat.toDigits_of_lt_base hsingle, hdigit 0 n hsingle (by omega)]
      simp
    · have hvalue : n / 10 * 10 + n % 10 = n := by omega
      rw [Nat.toDigits_of_base_le (by decide) (by omega), readDigits_append,
        ih (n / 10) (by omega) (by omega)]
      change readDigits bound (n / 10) [Nat.digitChar (n % 10)] = _
      rw [hdigit _ _ (Nat.mod_lt _ (by decide)) (by omega), hvalue]

theorem decimalDigits_cons {c : Char} (h : c ≠ '+') (cs : List Char) :
    decimalDigits (c :: cs) = .ok (c :: cs) := by
  unfold decimalDigits
  split
  next heq => cases heq
  next heq => exact absurd (List.cons.inj heq).1 h
  next heq => exact absurd (List.cons.inj heq).1 h
  next heq => rfl

theorem readUInt64_toString (n : UInt64) : readUInt64 (toString n.toNat) = .ok n := by
  have hdigits : decimalDigits (toString n.toNat).toList = .ok (Nat.toDigits 10 n.toNat) := by
    rw [Nat.toString_eq_ofList_toDigits, String.toList_ofList]
    cases htext : Nat.toDigits 10 n.toNat with
    | nil => exact absurd htext Nat.toDigits_ne_nil
    | cons c cs =>
      have hdigit : c.isDigit :=
        Nat.isDigit_of_mem_toDigits (b := 10) (n := n.toNat) (by decide) (by decide)
          (htext ▸ List.mem_cons_self)
      exact decimalDigits_cons (by rintro rfl; exact absurd hdigit (by decide)) cs
  unfold readUInt64
  rw [hdigits]
  change (readDigits UInt64.size 0 (Nat.toDigits 10 n.toNat)).bind _ = _
  rw [readDigits_toDigits n.toNat_lt_size]
  exact congrArg Except.ok UInt64.ofNat_toNat

namespace Hex

theorem digit_byte : ∀ value < 16, String.utf8EncodeChar (digit value) =
    [UInt8.ofNat (digit value).toNat] ∧ value? (UInt8.ofNat (digit value).toNat) = some value := by
  decide

/-- The bytes of the digits of a byte string. -/
theorem flatMap_digits_cons (byte : UInt8) (bytes : List UInt8) :
    ∃ high low, (digits (byte :: bytes)).flatMap String.utf8EncodeChar =
        high :: low :: (digits bytes).flatMap String.utf8EncodeChar ∧
      value? high = some (byte.toNat / 16) ∧ value? low = some (byte.toNat % 16) := by
  have hbyte := byte.toNat_lt
  obtain ⟨hhigh, hhighValue⟩ := digit_byte (byte.toNat / 16) (by omega)
  obtain ⟨hlow, hlowValue⟩ := digit_byte (byte.toNat % 16) (by omega)
  refine ⟨_, _, ?_, hhighValue, hlowValue⟩
  simp only [digits, List.flatMap_cons, pair, List.cons_append, List.nil_append, hhigh, hlow]

theorem length_flatMap_digits (bytes : List UInt8) :
    ((digits bytes).flatMap String.utf8EncodeChar).length = 2 * bytes.length := by
  induction bytes with
  | nil => rfl
  | cons byte bytes ih =>
    obtain ⟨high, low, hdigits, _⟩ := flatMap_digits_cons byte bytes
    rw [hdigits, List.length_cons, List.length_cons, ih, List.length_cons]
    omega

theorem readPairs_digits (position : Nat) (bytes : List UInt8) :
    readPairs position ((digits bytes).flatMap String.utf8EncodeChar) = .ok bytes := by
  induction bytes generalizing position with
  | nil => rfl
  | cons byte bytes ih =>
    obtain ⟨high, low, hdigits, hhigh, hlow⟩ := flatMap_digits_cons byte bytes
    have hvalue : 16 * (byte.toNat / 16) + byte.toNat % 16 = byte.toNat := Nat.div_add_mod ..
    rw [hdigits, readPairs, hhigh, hlow]
    change (readPairs _ _).map _ = _
    rw [ih, Except.map, hvalue, UInt8.ofNat_toNat]

/-- The hexadecimal text of a byte string is read as the byte string. -/
theorem readBytes_hexText {length : Nat} (v : Vector UInt8 length) :
    readBytes length (Wire.hexText v.toList) = .ok v := by
  have htext : (Wire.hexText v.toList).toUTF8.data.toList =
      0x30 :: 0x78 :: (digits v.toList).flatMap String.utf8EncodeChar := by
    change Utf8.encode _ = _
    rw [Wire.hexText, Utf8.encode_ofList]
    rfl
  have hlength := length_flatMap_digits v.toList
  rw [Vector.length_toList] at hlength
  unfold readBytes
  rw [htext, afterMark?]
  dsimp only
  rw [if_neg (by omega), if_neg (by omega), readPairs_digits]
  change (if h : v.toList.length = length then _ else _ : Except HexError (Vector UInt8 length)) = _
  rw [dif_pos Vector.length_toList]
  rfl

end Hex

end BeaconApi
