import BeaconApi.Proofs.Text.Encoding

namespace BeaconApi.Utf8

/-- Characters end where the planes of their numbering do. -/
theorem toNat_val_lt (d : Char) : d.val.toNat < 0x110000 := by
  rcases d.valid with h | h
  · exact Nat.lt_trans h (by decide)
  · exact h.2

/-- Numbers are compared by their digits in base 64. -/
theorem digits_lt {v w : Nat} (h : v < w) :
    v / 262144 < w / 262144 ∨ v / 262144 = w / 262144 ∧
      (v / 4096 % 64 < w / 4096 % 64 ∨ v / 4096 % 64 = w / 4096 % 64 ∧
        (v / 64 % 64 < w / 64 % 64 ∨ v / 64 % 64 = w / 64 % 64 ∧ v % 64 < w % 64)) := by
  have hstep (a b : Nat) (h : a < b) : a / 64 < b / 64 ∨ a / 64 = b / 64 ∧ a % 64 < b % 64 := by omega
  have h2 (a : Nat) : a / 4096 = a / 64 / 64 := by omega
  have h3 (a : Nat) : a / 262144 = a / 64 / 64 / 64 := by omega
  rw [h2, h2, h3, h3]
  rcases hstep _ _ h with h | h
  · rcases hstep _ _ h with h | h
    · rcases hstep _ _ h with h | h
      · exact .inl h
      · exact .inr ⟨h.1, .inl h.2⟩
    · exact .inr ⟨by rw [h.1], .inr ⟨by rw [h.1], .inl h.2⟩⟩
  · exact .inr ⟨by rw [h.1], .inr ⟨by rw [h.1], .inr ⟨by rw [h.1], h.2⟩⟩⟩

/-- A character with a larger number has larger bytes: a longer form begins with a larger byte, and within
a form the digits decide. -/
theorem utf8EncodeChar_append_lt {c d : Char} (h : c < d) (xs ys : List UInt8) :
    String.utf8EncodeChar c ++ xs < String.utf8EncodeChar d ++ ys := by
  have hval : c.val.toNat < d.val.toNat := UInt32.lt_iff_toNat_lt.mp (Char.lt_def.mp h)
  have hbound : d.val.toNat < 0x110000 := toNat_val_lt d
  have hdigits := digits_lt hval
  unfold String.utf8EncodeChar
  dsimp only
  generalize c.val.toNat = v at hval hdigits
  generalize d.val.toNat = w at hval hbound hdigits
  by_cases hrest : xs < ys
  all_goals
    repeat' split
    all_goals
      simp only [List.cons_append, List.nil_append, List.cons_lt_cons_iff, UInt8.lt_iff_toNat_lt,
        ← UInt8.toNat_inj, UInt8.toNat_ofNat', hrest, and_true, and_false, or_false]
      simp (disch := omega) only [Nat.mod_eq_of_lt, Nat.add_lt_add_iff_right, Nat.add_right_cancel_iff]
      omega

theorem flatMap_utf8EncodeChar_lt {cs ds : List Char} (h : cs < ds) :
    cs.flatMap String.utf8EncodeChar < ds.flatMap String.utf8EncodeChar := by
  induction cs generalizing ds with
  | nil =>
    cases ds with
    | nil => exact absurd h (List.lt_irrefl [])
    | cons d ds =>
      obtain ⟨byte, bytes, hbytes⟩ := List.exists_cons_of_ne_nil (String.utf8EncodeChar_ne_nil (c := d))
      rw [List.flatMap_cons, hbytes]
      exact List.nil_lt_cons ..
  | cons c cs ih =>
    cases ds with
    | nil => exact absurd h (List.not_lt_nil _)
    | cons d ds =>
      rw [List.flatMap_cons, List.flatMap_cons]
      rcases List.cons_lt_cons_iff.mp h with hlt | ⟨rfl, hlt⟩
      · exact utf8EncodeChar_append_lt hlt _ _
      · exact List.append_left_lt (ih hlt)

/-- Texts are in the order of their bytes. -/
theorem encode_lt_encode_iff {s t : String} : encode s < encode t ↔ s < t := by
  have hmono {s t : String} (h : s < t) : encode s < encode t := by
    rw [encode_eq_flatMap, encode_eq_flatMap]
    exact flatMap_utf8EncodeChar_lt (String.lt_iff.mp h)
  refine ⟨fun h => ?_, hmono⟩
  rcases Std.le_total (a := s) (b := t) with hle | hle
  · refine Std.lt_of_le_of_ne hle ?_
    rintro rfl
    exact List.lt_irrefl _ h
  · by_cases heq : s = t
    · exact absurd (heq ▸ h) (List.lt_irrefl _)
    · exact absurd (hmono (Std.lt_of_le_of_ne hle (Ne.symm heq))) (List.lt_asymm h)

theorem encode_le_encode_iff {s t : String} : encode s ≤ encode t ↔ s ≤ t := by
  rw [← List.not_lt, encode_lt_encode_iff, Std.not_lt]

end BeaconApi.Utf8
