import BeaconApi.Text.Utf8

namespace BeaconApi.Utf8

theorem encode_append (s t : String) : encode (s ++ t) = encode s ++ encode t := by
  simp [encode, String.toByteArray_append]

theorem encode_ofList (cs : List Char) :
    encode (String.ofList cs) = cs.flatMap String.utf8EncodeChar := by
  simp [encode, List.utf8Encode]

theorem encode_push (s : String) (c : Char) :
    encode (s.push c) = encode s ++ String.utf8EncodeChar c := by
  simp [encode, String.toByteArray_push, List.utf8Encode_singleton]

theorem encode_eq_flatMap (s : String) : encode s = s.toList.flatMap String.utf8EncodeChar := by
  rw [← encode_ofList, String.ofList_toList]

theorem utf8EncodeChar_of_lt {c : Char} (h : c.toNat < 0x80) :
    String.utf8EncodeChar c = [UInt8.ofNat c.toNat] := by
  have hle : c.val.toNat ≤ 0x7f := Nat.le_of_lt_succ h
  unfold String.utf8EncodeChar
  exact if_pos hle

/-- The bytes of a character that needs several lie above those of the characters that need one. -/
theorem le_of_mem_utf8EncodeChar {c : Char} (h : 0x80 ≤ c.toNat) {byte : UInt8}
    (hbyte : byte ∈ String.utf8EncodeChar c) : 0x80 ≤ byte := by
  have hseveral : ¬ c.val.toNat ≤ 0x7f := Nat.not_le.mpr h
  unfold String.utf8EncodeChar at hbyte
  simp only [if_neg hseveral] at hbyte
  rw [UInt8.le_iff_toNat_le]
  change 128 ≤ byte.toNat
  split at hbyte
  · simp only [List.mem_cons, List.not_mem_nil, or_false] at hbyte
    rcases hbyte with rfl | rfl <;> simp <;> omega
  · split at hbyte
    · simp only [List.mem_cons, List.not_mem_nil, or_false] at hbyte
      rcases hbyte with rfl | rfl | rfl <;> simp <;> omega
    · simp only [List.mem_cons, List.not_mem_nil, or_false] at hbyte
      rcases hbyte with rfl | rfl | rfl | rfl <;> simp <;> omega

theorem encode_inj {s t : String} : encode s = encode t ↔ s = t := by
  refine ⟨fun h => ?_, congrArg encode⟩
  have hdecode := congrArg decode? h
  rw [decode?_encode, decode?_encode] at hdecode
  exact Option.some.inj hdecode

theorem flatMap_utf8EncodeChar_inj {cs ds : List Char} :
    cs.flatMap String.utf8EncodeChar = ds.flatMap String.utf8EncodeChar ↔ cs = ds := by
  rw [← encode_ofList, ← encode_ofList, encode_inj, String.ofList_inj]

/-- The byte of a one-byte character begins a text only if the character does. -/
theorem flatMap_eq_cons_iff {cs : List Char} {c : Char} (hc : c.toNat < 0x80) {rest : List UInt8} :
    cs.flatMap String.utf8EncodeChar = UInt8.ofNat c.toNat :: rest ↔
      ∃ ds, cs = c :: ds ∧ ds.flatMap String.utf8EncodeChar = rest := by
  constructor
  · intro h
    cases cs with
    | nil => cases h
    | cons d ds =>
      rw [List.flatMap_cons] at h
      by_cases hd : d.toNat < 0x80
      · rw [utf8EncodeChar_of_lt hd] at h
        obtain ⟨hbyte, hrest⟩ := List.cons.inj h
        have hnat := congrArg UInt8.toNat hbyte
        rw [UInt8.toNat_ofNat', UInt8.toNat_ofNat', Nat.mod_eq_of_lt (by omega),
          Nat.mod_eq_of_lt (by omega)] at hnat
        exact ⟨ds, by rw [Char.toNat_inj.mp hnat], hrest⟩
      · obtain ⟨byte, bytes, hbytes⟩ := List.exists_cons_of_ne_nil (String.utf8EncodeChar_ne_nil (c := d))
        have hlarge := le_of_mem_utf8EncodeChar (Nat.not_lt.mp hd) (hbytes ▸ List.mem_cons_self)
        rw [hbytes, List.cons_append] at h
        rw [(List.cons.inj h).1, UInt8.le_iff_toNat_le, UInt8.toNat_ofNat', Nat.mod_eq_of_lt (by omega)] at hlarge
        exact absurd hlarge (Nat.not_le.mpr hc)
  · rintro ⟨ds, rfl, rfl⟩
    rw [List.flatMap_cons, utf8EncodeChar_of_lt hc]
    rfl

end BeaconApi.Utf8
