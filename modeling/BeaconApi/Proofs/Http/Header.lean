import BeaconApi.Http.Message
import BeaconApi.Proofs.Text.Encoding

namespace BeaconApi.Http

/-- The characters of header names. -/
def IsTokenChar (c : Char) : Prop := c.isAlphanum ∨ c ∈ "!#$%&'*+-.^_`|~".toList

instance (c : Char) : Decidable (IsTokenChar c) := inferInstanceAs (Decidable (_ ∨ _))

/-- The characters of header values. -/
def IsValueChar (c : Char) : Prop := c = '\t' ∨ ' ' ≤ c ∧ c ≠ '\x7f'

instance (c : Char) : Decidable (IsValueChar c) := inferInstanceAs (Decidable (_ ∨ _))

/-- A text that can be the name of a header. -/
structure IsHeaderName (name : String) : Prop where
  ne_empty : name ≠ ""
  length : (Utf8.encode name).length ≤ maxHeaderName
  token : ∀ c ∈ name.toList, IsTokenChar c

/-- A name and a value that can be sent as a header. -/
structure IsHeader (name value : String) : Prop where
  name : IsHeaderName name
  value : ∀ c ∈ value.toList, IsValueChar c

theorem IsTokenChar.lt {c : Char} (h : IsTokenChar c) : c.toNat < 0x80 := by
  rcases h with h | h
  · rcases Bool.or_eq_true_iff.mp h with hletter | hdigit
    · rcases Bool.or_eq_true_iff.mp hletter with hupper | hlower
      · have hle : c.toNat ≤ 90 := (of_decide_eq_true hupper).2
        omega
      · have hle : c.toNat ≤ 122 := of_decide_eq_true (Bool.and_eq_true_iff.mp hlower).2
        omega
    · have hle : c.toNat ≤ 57 := of_decide_eq_true (Bool.and_eq_true_iff.mp hdigit).2
      omega
  · have hmarks : "!#$%&'*+-.^_`|~".toList.all (·.toNat < 0x80) := by decide
    exact of_decide_eq_true (List.all_eq_true.mp hmarks c h)

/-- A property of the bytes of a text is one of its characters, if it is for the characters of one byte and
for those of several. -/
theorem forall_mem_encode_iff {P : UInt8 → Prop} {Q : Char → Prop}
    (hone : ∀ n < 128, P (UInt8.ofNat n) ↔ Q (Char.ofNat n))
    (hmore : ∀ c : Char, 0x80 ≤ c.toNat → ((∀ byte ∈ String.utf8EncodeChar c, P byte) ↔ Q c)) {s : String} :
    (∀ byte ∈ Utf8.encode s, P byte) ↔ ∀ c ∈ s.toList, Q c := by
  have hchar (c : Char) : (∀ byte ∈ String.utf8EncodeChar c, P byte) ↔ Q c := by
    by_cases hc : c.toNat < 0x80
    · rw [Utf8.utf8EncodeChar_of_lt hc, List.forall_mem_singleton, hone _ hc, Char.ofNat_toNat]
    · exact hmore c (Nat.not_lt.mp hc)
  rw [Utf8.encode_eq_flatMap]
  simp only [List.mem_flatMap, forall_exists_index, and_imp]
  constructor
  · exact fun h c hc => (hchar c).mp fun byte hbyte => h byte c hc hbyte
  · exact fun h byte c hc hbyte => (hchar c).mpr (h c hc) byte hbyte

theorem toNat_lt_of_isTokenByte {byte : UInt8} (h : isTokenByte byte = true) : byte.toNat < 0x80 := by
  have hall : ∀ n < 256, isTokenByte (UInt8.ofNat n) = true → n < 0x80 := by decide +kernel
  exact hall byte.toNat byte.toNat_lt (UInt8.ofNat_toNat ▸ h)

theorem forall_isTokenByte_iff {s : String} :
    (∀ byte ∈ Utf8.encode s, isTokenByte byte = true) ↔ ∀ c ∈ s.toList, IsTokenChar c := by
  refine forall_mem_encode_iff (by decide +kernel) fun c hc => iff_of_false (fun h => ?_) fun h => ?_
  · obtain ⟨byte, bytes, hbytes⟩ := List.exists_cons_of_ne_nil (String.utf8EncodeChar_ne_nil (c := c))
    have hmem : byte ∈ String.utf8EncodeChar c := hbytes ▸ List.mem_cons_self
    have hlarge := UInt8.le_iff_toNat_le.mp (Utf8.le_of_mem_utf8EncodeChar hc hmem)
    exact absurd (toNat_lt_of_isTokenByte (h byte hmem)) (Nat.not_lt.mpr hlarge)
  · exact absurd h.lt (Nat.not_lt.mpr hc)

/-- The value of a header has no controls but tabs. -/
theorem isHeaderValue_iff {value : String} :
    isHeaderValue value = true ↔ ∀ c ∈ value.toList, IsValueChar c := by
  rw [isHeaderValue, ← Array.all_toList, List.all_eq_true]
  refine forall_mem_encode_iff (by decide +kernel) fun c hc => iff_of_true (fun byte hbyte => ?_) (.inr ⟨?_, ?_⟩)
  · have hlarge := UInt8.le_iff_toNat_le.mp (Utf8.le_of_mem_utf8EncodeChar hc hbyte)
    change 128 ≤ byte.toNat at hlarge
    have hne : byte ≠ 0x7f := by
      rintro rfl
      exact absurd hlarge (by decide)
    have hspace : (0x20 : UInt8) ≤ byte := UInt8.le_iff_toNat_le.mpr (Nat.le_trans (by decide) hlarge)
    simp [hspace, hne]
  · exact Char.le_def.mpr (UInt32.le_iff_toNat_le.mpr (Nat.le_trans (by decide) hc))
  · rintro rfl
    exact absurd hc (by decide)

/-- A header is kept under its name in lowercase. -/
theorem headerName?_eq_some_iff {name key : String} :
    headerName? name = some key ↔ IsHeaderName name ∧ name.toLower = key := by
  have hempty : name.toUTF8.data.isEmpty = true ↔ name = "" := by
    rw [Array.isEmpty_iff, ← Array.toList_eq_nil_iff]
    exact Utf8.encode_inj (t := "")
  have hsize : name.toUTF8.data.size = (Utf8.encode name).length := rfl
  have htokens : name.toUTF8.data.all isTokenByte = true ↔ ∀ c ∈ name.toList, IsTokenChar c := by
    rw [← Array.all_toList, List.all_eq_true]
    exact forall_isTokenByte_iff
  have hname : IsHeaderName name ↔
      ¬ (name.toUTF8.data.isEmpty || maxHeaderName < name.toUTF8.data.size
        || !name.toUTF8.data.all isTokenByte) = true := by
    rw [Bool.or_eq_true, Bool.or_eq_true, Bool.not_eq_true', ← Bool.not_eq_true, hempty, htokens, hsize,
      decide_eq_true_eq, not_or, not_or, Classical.not_not, Nat.not_lt]
    exact ⟨fun h => ⟨⟨h.ne_empty, h.length⟩, h.token⟩, fun ⟨⟨hne, hlength⟩, htoken⟩ => ⟨hne, hlength, htoken⟩⟩
  rw [hname, headerName?]
  split
  next hbad => exact iff_of_false nofun fun h => h.1 hbad
  next hgood => rw [Option.some.injEq, and_iff_right hgood]

end BeaconApi.Http
