import BeaconApi.Proofs.Text.Encoding
import BeaconApi.Text.Percent

namespace BeaconApi.Percent

open String (utf8EncodeChar)

/-- The bytes that are written for one byte. -/
def codes (byte : UInt8) : List UInt8 := (encodeByte byte).flatMap utf8EncodeChar

theorem encode_codes (s : String) : Utf8.encode (encode s) = (Utf8.encode s).flatMap codes := by
  rw [encode, Utf8.encode_ofList, List.flatMap_assoc]
  rfl

theorem codes_of_isUnreserved {byte : UInt8} (h : isUnreserved byte) : codes byte = [byte] := by
  have hcodes : ∀ n < 256, isUnreserved (UInt8.ofNat n) →
      utf8EncodeChar (Char.ofNat (UInt8.ofNat n).toNat) = [UInt8.ofNat n] := by decide +kernel
  have hbyte := hcodes byte.toNat byte.toNat_lt
  rw [UInt8.ofNat_toNat] at hbyte
  rw [codes, encodeByte, if_pos h, List.flatMap_singleton, hbyte h]

theorem digit_byte : ∀ value < 16, utf8EncodeChar (digit value) = [UInt8.ofNat (digit value).toNat] ∧
    Hex.value? (UInt8.ofNat (digit value).toNat) = some value ∧
      isUnreserved (UInt8.ofNat (digit value).toNat) := by
  decide

theorem codes_of_not_isUnreserved {byte : UInt8} (h : ¬ isUnreserved byte) :
    ∃ high low, codes byte = [0x25, high, low] ∧ (isUnreserved high ∧ isUnreserved low) ∧
      Hex.value? high = some (byte.toNat / 16) ∧ Hex.value? low = some (byte.toNat % 16) := by
  have hbyte := byte.toNat_lt
  obtain ⟨hhigh, hhighValue, hhighPlain⟩ := digit_byte (byte.toNat / 16) (by omega)
  obtain ⟨hlow, hlowValue, hlowPlain⟩ := digit_byte (byte.toNat % 16) (by omega)
  refine ⟨_, _, ?_, ⟨hhighPlain, hlowPlain⟩, hhighValue, hlowValue⟩
  rw [codes, encodeByte, if_neg h]
  simp only [List.flatMap_cons, List.flatMap_nil, hhigh, hlow]
  rfl

/-- A byte that is no percent sign stands for itself. -/
theorem decode_cons_of_ne {byte : UInt8} (h : byte ≠ 0x25) (rest : List UInt8) :
    decode (byte :: rest) = byte :: decode rest := by
  rw [decode]
  rintro high low tail rfl
  exact absurd rfl h

theorem decode_codes_append (byte : UInt8) (rest : List UInt8) :
    decode (codes byte ++ rest) = byte :: decode rest := by
  by_cases hplain : isUnreserved byte
  · have hne : byte ≠ 0x25 := by
      rintro rfl
      exact absurd hplain (by decide)
    rw [codes_of_isUnreserved hplain, List.singleton_append, decode_cons_of_ne hne]
  · obtain ⟨high, low, hcodes, _, hhigh, hlow⟩ := codes_of_not_isUnreserved hplain
    have hvalue : 16 * (byte.toNat / 16) + byte.toNat % 16 = byte.toNat := Nat.div_add_mod ..
    rw [hcodes, List.cons_append, List.cons_append, List.singleton_append, decode, hhigh, hlow]
    dsimp only
    rw [hvalue, UInt8.ofNat_toNat]

/-- Decoding undoes encoding. -/
theorem decode_flatMap_codes (bytes : List UInt8) : decode (bytes.flatMap codes) = bytes := by
  induction bytes with
  | nil => rfl
  | cons byte bytes ih => rw [List.flatMap_cons, decode_codes_append, ih]

/-- What is written for bytes is percent signs and bytes that stand for themselves. -/
theorem mem_flatMap_codes {bytes : List UInt8} {code : UInt8} (h : code ∈ bytes.flatMap codes) :
    code = 0x25 ∨ isUnreserved code := by
  obtain ⟨byte, _, hcode⟩ := List.mem_flatMap.mp h
  by_cases hplain : isUnreserved byte
  · rw [codes_of_isUnreserved hplain] at hcode
    obtain rfl := List.mem_singleton.mp hcode
    exact .inr hplain
  · obtain ⟨high, low, hcodes, ⟨hhigh, hlow⟩, _⟩ := codes_of_not_isUnreserved hplain
    rw [hcodes] at hcode
    simp only [List.mem_cons, List.not_mem_nil, or_false] at hcode
    rcases hcode with rfl | rfl | rfl
    · exact .inl rfl
    · exact .inr hhigh
    · exact .inr hlow

theorem decode_of_not_mem {bytes : List UInt8} (h : 0x25 ∉ bytes) : decode bytes = bytes := by
  induction bytes with
  | nil => rfl
  | cons byte bytes ih =>
    simp only [List.mem_cons, not_or] at h
    rw [decode_cons_of_ne (Ne.symm h.1), ih h.2]

end BeaconApi.Percent
