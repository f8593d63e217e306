import BeaconApi.Node.Endpoint.Basic
import BeaconApi.Proofs.Text.Digits
import BeaconApi.Proofs.Text.Percent

namespace BeaconApi

/-- A text that stands for itself as a segment of a path. -/
structure IsSegment (s : String) : Prop where
  ne_nil : s.toList ≠ []
  slash : '/' ∉ s.toList
  question : '?' ∉ s.toList
  hash : '#' ∉ s.toList
  percent : '%' ∉ s.toList

namespace IsSegment

theorem of_all {s : String} (hne : s.toList ≠ [])
    (h : ∀ c ∈ s.toList, c ≠ '/' ∧ c ≠ '?' ∧ c ≠ '#' ∧ c ≠ '%') : IsSegment s where
  ne_nil := hne
  slash hmem := (h _ hmem).1 rfl
  question hmem := (h _ hmem).2.1 rfl
  hash hmem := (h _ hmem).2.2.1 rfl
  percent hmem := (h _ hmem).2.2.2 rfl

end IsSegment

/-- A character of one byte is found among the bytes of a text only where it stands. -/
theorem Utf8.mem_toList_of_mem_encode {s : String} {c : Char} (hc : c.toNat < 0x80)
    (h : UInt8.ofNat c.toNat ∈ encode s) : c ∈ s.toList := by
  have hbyte : (UInt8.ofNat c.toNat).toNat = c.toNat := by
    rw [UInt8.toNat_ofNat']
    omega
  rw [encode_eq_flatMap] at h
  obtain ⟨d, hd, hmem⟩ := List.mem_flatMap.mp h
  by_cases hsingle : d.toNat < 0x80
  · rw [utf8EncodeChar_of_lt hsingle] at hmem
    have heq := congrArg UInt8.toNat (List.mem_singleton.mp hmem)
    rw [hbyte, UInt8.toNat_ofNat', Nat.mod_eq_of_lt (by omega)] at heq
    rwa [Char.toNat_inj.mp heq]
  · have hle := UInt8.le_iff_toNat_le.mp (le_of_mem_utf8EncodeChar (Nat.not_lt.mp hsingle) hmem)
    rw [hbyte] at hle
    exact absurd hle (Nat.not_le.mpr hc)

namespace Quantity

variable {m : Measure} (q : Quantity m)

theorem isDigit_of_mem_display {c : Char} (h : c ∈ q.display.toList) : c.isDigit := by
  rw [display, Nat.toString_eq_ofList_toDigits, String.toList_ofList] at h
  exact Nat.isDigit_of_mem_toDigits (b := 10) (by decide) (by decide) h

theorem display_isSegment : IsSegment q.display := by
  refine .of_all ?_ fun c hc => ?_
  · rw [display, Nat.toString_eq_ofList_toDigits, String.toList_ofList]
    exact Nat.toDigits_ne_nil
  · have hdigit := q.isDigit_of_mem_display hc
    refine ⟨?_, ?_, ?_, ?_⟩ <;> rintro rfl <;> exact absurd hdigit (by decide)

theorem ofString_display : Quantity.ofString q.display = .ok q := by
  rw [Quantity.ofString, display, readUInt64_toString]
  rfl

theorem ofText_display : Param.ofText q.display = .ok q := by
  change (Quantity.ofString q.display).mapError _ = _
  rw [q.ofString_display]
  rfl

/-- The text of an integer is not taken for a byte string. -/
theorem bytes_ofString_display (length : Nat) :
    (Bytes.ofString q.display : Except HexError (Bytes length)) = .error .missingMark := by
  have hx : (0x78 : UInt8) ∉ Utf8.encode q.display := by
    intro hmem
    have hc : 'x' ∈ q.display.toList := Utf8.mem_toList_of_mem_encode (by decide) hmem
    exact absurd (q.isDigit_of_mem_display hc) (by decide)
  have hmark : Hex.afterMark? (Utf8.encode q.display) = none := by
    unfold Hex.afterMark?
    split
    next hbytes => exact absurd (hbytes ▸ by simp) hx
    · rfl
  have hread : Hex.readBytes length q.display = .error .missingMark := by
    unfold Hex.readBytes
    rw [← Utf8.encode, hmark]
  rw [Bytes.ofString, hread]
  rfl

end Quantity

namespace Bytes

variable {n : Nat} (b : Bytes n)

theorem display_isSegment : IsSegment b.display := by
  have hdigit : ∀ value < 16, Hex.digit value ≠ '/' ∧ Hex.digit value ≠ '?' ∧ Hex.digit value ≠ '#' ∧
      Hex.digit value ≠ '%' := by decide
  rw [display, Wire.hexText]
  refine .of_all (by simp) fun c hc => ?_
  rw [String.toList_ofList] at hc
  rcases List.mem_cons.mp hc with rfl | hc
  · decide
  rcases List.mem_cons.mp hc with rfl | hc
  · decide
  obtain ⟨byte, _, hc⟩ := List.mem_flatMap.mp hc
  have hbyte := byte.toNat_lt
  simp only [Hex.pair, List.mem_cons, List.not_mem_nil, or_false] at hc
  rcases hc with rfl | rfl
  · exact hdigit _ (by omega)
  · exact hdigit _ (by omega)

theorem ofString_display : Bytes.ofString b.display = .ok b := by
  rw [Bytes.ofString, display, toList, Hex.readBytes_hexText]
  rfl

theorem ofText_display : Param.ofText b.display = .ok b := by
  change (Bytes.ofString b.display).mapError _ = _
  rw [b.ofString_display]
  rfl

end Bytes

section Identifiers

variable {α : Type} {length : Nat} {m : Measure} {kind : String} {ofBytes : Bytes length → α}
  {ofQuantity : Quantity m → α} {keywords : List (String × α)}

theorem readIdentifier_bytes (b : Bytes length) :
    readIdentifier kind ofBytes ofQuantity keywords b.display = .ok (ofBytes b) := by
  rw [readIdentifier, b.ofString_display]

/-- No keyword is the text of an integer. -/
theorem readIdentifier_quantity (hkeywords : ∀ k ∈ keywords, ¬ k.1.toList.all Char.isDigit)
    (q : Quantity m) :
    readIdentifier kind ofBytes ofQuantity keywords q.display = .ok (ofQuantity q) := by
  have hother : ∀ k ∈ keywords, q.display ≠ k.1 := by
    intro k hk heq
    refine hkeywords k hk (List.all_eq_true.mpr fun c hc => ?_)
    rw [← heq] at hc
    exact q.isDigit_of_mem_display hc
  have hlookup : keywords.lookup q.display = none :=
    List.lookup_eq_none_iff.mpr fun k hk => by simpa using hother k hk
  rw [readIdentifier, q.bytes_ofString_display]
  dsimp only
  rw [hlookup, q.ofString_display]

end Identifiers

theorem BlockId.ofString_display (id : BlockId) : BlockId.ofString id.display = .ok id := by
  cases id with
  | root r => exact readIdentifier_bytes r
  | slot s => exact readIdentifier_quantity (by decide) s
  | head | genesis | finalized => rfl

theorem BlockId.ofText_display (id : BlockId) : Param.ofText id.display = .ok id := by
  change (BlockId.ofString id.display).mapError _ = _
  rw [id.ofString_display]
  rfl

theorem BlockId.display_isSegment (id : BlockId) : IsSegment id.display := by
  cases id with
  | root r => exact r.display_isSegment
  | slot s => exact s.display_isSegment
  | head | genesis | finalized => constructor <;> decide

theorem StateId.ofString_display (id : StateId) : StateId.ofString id.display = .ok id := by
  cases id with
  | root r => exact readIdentifier_bytes r
  | slot s => exact readIdentifier_quantity (by decide) s
  | head | genesis | finalized | justified => rfl

theorem StateId.ofText_display (id : StateId) : Param.ofText id.display = .ok id := by
  change (StateId.ofString id.display).mapError _ = _
  rw [id.ofString_display]
  rfl

theorem StateId.display_isSegment (id : StateId) : IsSegment id.display := by
  cases id with
  | root r => exact r.display_isSegment
  | slot s => exact s.display_isSegment
  | head | genesis | finalized | justified => constructor <;> decide

theorem ValidatorId.ofString_display (id : ValidatorId) : ValidatorId.ofString id.display = .ok id := by
  cases id with
  | pubkey k => exact readIdentifier_bytes k
  | index i => exact readIdentifier_quantity (by simp) i

end BeaconApi
