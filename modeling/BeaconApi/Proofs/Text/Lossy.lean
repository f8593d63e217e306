import BeaconApi.Proofs.Text.Encoding

namespace BeaconApi.Utf8

open String (utf8EncodeChar)

section Start

variable {lead : Nat}

theorem toNat_ofNat_of_lt {n : Nat} (h : n < 256) : (UInt8.ofNat n).toNat = n := by
  rw [UInt8.toNat_ofNat']
  omega

theorem start_one (h : lead < 0x80) : start (UInt8.ofNat lead) = .ok (Char.ofNat lead) := by
  have hvalue : (UInt8.ofNat lead).toNat = lead := toNat_ofNat_of_lt (by omega)
  simp [start, UInt8.lt_iff_toNat_lt, hvalue, h]

/-- The character under way owes some bytes, the next of which may be the one that stands for six
given bits. -/
structure Pending.Owes (p : Pending) (value missing bits : Nat) : Prop where
  value_eq : p.value = value
  missing_eq : p.missing = missing
  low_le : p.low ≤ UInt8.ofNat (bits + 0x80)
  le_high : UInt8.ofNat (bits + 0x80) ≤ p.high

/-- A character owes what lies within the bounds that hold at its place. -/
theorem Pending.owes {p : Pending} {bits : Nat} (h : bits < 0x40) (hlow : p.low.toNat ≤ bits + 0x80)
    (hhigh : bits + 0x80 ≤ p.high.toNat) : p.Owes p.value p.missing bits := by
  have hbyte : (UInt8.ofNat (bits + 0x80)).toNat = bits + 0x80 := toNat_ofNat_of_lt (by omega)
  refine ⟨rfl, rfl, ?_, ?_⟩
  · rwa [UInt8.le_iff_toNat_le, hbyte]
  · rwa [UInt8.le_iff_toNat_le, hbyte]

theorem owes_of_lt {value missing bits : Nat} (h : bits < 0x40) :
    Pending.Owes ⟨value, missing, 0x80, 0xbf⟩ value missing bits := by
  refine Pending.owes h (Nat.le_add_left ..) ?_
  change bits + 128 ≤ 191
  omega

variable {bits : Nat} (hbits : bits < 0x40)
include hbits

theorem start_two (lead : Nat) (hlow : 2 ≤ lead) (hhigh : lead < 0x20) :
    ∃ p, start (UInt8.ofNat (lead + 0xc0)) = .error (some p) ∧ p.Owes lead 1 bits := by
  have hstart : ∀ lead < 0x20, 2 ≤ lead → start (UInt8.ofNat (lead + 0xc0)) =
      .error (some ⟨lead, 1, 0x80, 0xbf⟩) := by
    intro lead hlead hlow
    have hvalue : (UInt8.ofNat (lead + 0xc0)).toNat = lead + 0xc0 := toNat_ofNat_of_lt (by omega)
    have hone : ¬ lead + 192 < 128 := by omega
    have hnone : ¬ lead + 192 < 194 := by omega
    have htwo : lead + 192 < 224 := by omega
    simp only [start, UInt8.lt_iff_toNat_lt, hvalue, UInt8.reduceToNat, hone, hnone, htwo, if_true,
      if_false]
    simp
  exact ⟨_, hstart lead hhigh hlow, owes_of_lt hbits⟩

/-- No character of three bytes has a value below those of two, or one that is set apart. -/
theorem start_three (lead : Nat) (hlead : lead < 16) (hlow : 0x20 ≤ lead * 0x40 + bits)
    (hsurrogate : lead = 0xd → bits < 0x20) :
    ∃ p, start (UInt8.ofNat (lead + 0xe0)) = .error (some p) ∧ p.Owes lead 2 bits := by
  match lead, hlead, hlow, hsurrogate with
  | 0, _, hlow, _ =>
    refine ⟨_, rfl, Pending.owes hbits ?_ ?_⟩
    · change 160 ≤ bits + 128
      omega
    · change bits + 128 ≤ 191
      omega
  | 13, _, _, hsurrogate =>
    have hbits' := hsurrogate rfl
    refine ⟨_, rfl, Pending.owes hbits (Nat.le_add_left ..) ?_⟩
    change bits + 128 ≤ 159
    omega
  | 1, _, _, _ | 2, _, _, _ | 3, _, _, _ | 4, _, _, _ | 5, _, _, _ | 6, _, _, _ | 7, _, _, _ | 8, _, _, _
  | 9, _, _, _ | 10, _, _, _ | 11, _, _, _ | 12, _, _, _ | 14, _, _, _ | 15, _, _, _ =>
    exact ⟨_, rfl, owes_of_lt hbits⟩
  | lead + 16, hlead, _, _ => exact absurd hlead (by omega)

theorem start_four (lead : Nat) (hlow : 0x10 ≤ lead * 0x40 + bits) (hhigh : lead * 0x40 + bits < 0x110) :
    ∃ p, start (UInt8.ofNat (lead + 0xf0)) = .error (some p) ∧ p.Owes lead 3 bits := by
  have hlead : lead < 5 := by omega
  match lead, hlead with
  | 0, _ =>
    refine ⟨_, rfl, Pending.owes hbits ?_ ?_⟩
    · change 144 ≤ bits + 128
      omega
    · change bits + 128 ≤ 191
      omega
  | 4, _ =>
    refine ⟨_, rfl, Pending.owes hbits (Nat.le_add_left ..) ?_⟩
    change bits + 128 ≤ 143
    omega
  | 1, _ | 2, _ | 3, _ => exact ⟨_, rfl, owes_of_lt hbits⟩

end Start

namespace Reader

variable {text : List Char} {p : Pending} {value bits : Nat} (hbits : bits < 0x40)
include hbits

theorem feed_more {missing : Nat} (h : p.Owes value (missing + 2) bits) :
    feed ⟨text, some p⟩ (UInt8.ofNat (bits + 0x80)) =
      ⟨text, some ⟨value * 0x40 + bits, missing + 1, 0x80, 0xbf⟩⟩ := by
  have hbyte : (UInt8.ofNat (bits + 0x80)).toNat = bits + 0x80 := toNat_ofNat_of_lt (by omega)
  rw [feed]
  dsimp only
  rw [if_pos ⟨h.low_le, h.le_high⟩, h.value_eq, h.missing_eq, hbyte, if_neg (by omega), Nat.add_sub_cancel]
  rfl

theorem feed_last (h : p.Owes value 1 bits) :
    feed ⟨text, some p⟩ (UInt8.ofNat (bits + 0x80)) = ⟨Char.ofNat (value * 0x40 + bits) :: text, none⟩ := by
  have hbyte : (UInt8.ofNat (bits + 0x80)).toNat = bits + 0x80 := toNat_ofNat_of_lt (by omega)
  rw [feed]
  dsimp only
  rw [if_pos ⟨h.low_le, h.le_high⟩, h.value_eq, h.missing_eq, hbyte, if_pos rfl, Nat.add_sub_cancel]

end Reader

theorem Reader.feed_first {text : List Char} {byte : UInt8} {p : Pending}
    (h : start byte = .error (some p)) : feed ⟨text, none⟩ byte = ⟨text, some p⟩ := by
  change Reader.begin text byte = _
  rw [Reader.begin, h]

/-- The bytes of a character are read as the character. -/
theorem foldl_utf8EncodeChar (c : Char) (text : List Char) :
    (utf8EncodeChar c).foldl Reader.feed ⟨text, none⟩ = ⟨c :: text, none⟩ := by
  have hvalid : c.val.toNat < 0xd800 ∨ (0xdfff < c.val.toNat ∧ c.val.toNat < 0x110000) := c.valid
  have hchar : Char.ofNat c.val.toNat = c := Char.ofNat_toNat c
  unfold utf8EncodeChar
  generalize c.val.toNat = v at hchar hvalid
  have hbits (n : Nat) : n % 64 < 64 := Nat.mod_lt _ (by decide)
  dsimp only
  split
  next hone =>
    rw [List.foldl_cons]
    change Reader.begin text (UInt8.ofNat v) = _
    rw [Reader.begin, start_one (by omega), hchar]
  split
  next _ htwo =>
    have hlead : v / 64 % 32 = v / 64 := by omega
    have hvalue : v / 64 * 64 + v % 64 = v := by omega
    obtain ⟨p, hstart, howes⟩ := start_two (hbits v) (v / 64) (by omega) (by omega)
    rw [hlead, List.foldl_cons, Reader.feed_first hstart, List.foldl_cons,
      Reader.feed_last (hbits v) howes, hvalue, hchar, List.foldl_nil]
  split
  next _ hthree =>
    have hlead : v / 4096 % 16 = v / 4096 := by omega
    have hvalue : (v / 4096 * 64 + v / 64 % 64) * 64 + v % 64 = v := by omega
    obtain ⟨p, hstart, howes⟩ := start_three (hbits (v / 64)) (v / 4096) (by omega) (by omega)
      (by omega)
    rw [hlead, List.foldl_cons, Reader.feed_first hstart, List.foldl_cons,
      Reader.feed_more (hbits (v / 64)) howes, List.foldl_cons,
      Reader.feed_last (hbits v) (owes_of_lt (hbits v)), hvalue, hchar, List.foldl_nil]
  next _ hfour =>
    have hlead : v / 262144 % 8 = v / 262144 := by omega
    have hvalue : ((v / 262144 * 64 + v / 4096 % 64) * 64 + v / 64 % 64) * 64 + v % 64 = v := by omega
    obtain ⟨p, hstart, howes⟩ := start_four (hbits (v / 4096)) (v / 262144) (by omega) (by omega)
    rw [hlead, List.foldl_cons, Reader.feed_first hstart, List.foldl_cons,
      Reader.feed_more (hbits (v / 4096)) howes, List.foldl_cons,
      Reader.feed_more (hbits (v / 64)) (owes_of_lt (hbits (v / 64))), List.foldl_cons,
      Reader.feed_last (hbits v) (owes_of_lt (hbits v)), hvalue, hchar, List.foldl_nil]

theorem decodeLossy_encode (s : String) : decodeLossy (encode s) = s := by
  have hread (cs text : List Char) :
      (cs.flatMap utf8EncodeChar).foldl Reader.feed ⟨text, none⟩ = ⟨cs.reverse ++ text, none⟩ := by
    induction cs generalizing text with
    | nil => rfl
    | cons c cs ih =>
      rw [List.flatMap_cons, List.foldl_append, foldl_utf8EncodeChar, ih, List.reverse_cons,
        List.append_assoc, List.singleton_append]
  rw [decodeLossy, encode_eq_flatMap, hread, Reader.finish, List.append_nil]
  dsimp only
  rw [List.reverse_reverse, String.ofList_toList]

end BeaconApi.Utf8
