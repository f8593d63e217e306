import BeaconApi.Proofs.Except
import BeaconApi.Proofs.Text.Digits

namespace BeaconApi

/-- A decimal text with its digits: one or more of them, after an optional plus sign. -/
structure IsNumeral (s : String) (digits : List Char) : Prop where
  text : s.toList = digits ∨ s.toList = '+' :: digits
  ne_nil : digits ≠ []
  isDigit : ∀ c ∈ digits, c.isDigit = true

theorem digitValue?_eq_some_iff {c : Char} {value : Nat} :
    digitValue? c = some value ↔ c.isDigit = true ∧ c.toNat - '0'.toNat = value := by
  have hdigit : c.isDigit = true ↔ '0' ≤ c ∧ c ≤ '9' := by
    simp [Char.isDigit, Char.le_def]
  unfold digitValue?
  rw [hdigit]
  split
  next hrange => simp [hrange]
  next hother => exact iff_of_false nofun fun h => hother h.1

/-- Digits only add to the value before them. -/
theorem le_ofDigitChars (value : Nat) (digits : List Char) : value ≤ Nat.ofDigitChars 10 digits value := by
  induction digits generalizing value with
  | nil => exact Nat.le_refl value
  | cons c digits ih =>
    rw [Nat.ofDigitChars_cons]
    exact Nat.le_trans (by omega) (ih _)

/-- Digits are read as long as their value stays within bounds. -/
theorem readDigits_eq_ok_iff {bound value n : Nat} {digits : List Char} (hvalue : value < bound) :
    readDigits bound value digits = .ok n ↔
      (∀ c ∈ digits, c.isDigit = true) ∧ Nat.ofDigitChars 10 digits value = n ∧ n < bound := by
  induction digits generalizing value with
  | nil =>
    simp only [readDigits, Except.ok.injEq, Nat.ofDigitChars_nil, List.not_mem_nil, false_implies, implies_true,
      true_and]
    exact ⟨fun h => ⟨h, h ▸ hvalue⟩, And.left⟩
  | cons c digits ih =>
    rw [readDigits, List.forall_mem_cons, Nat.ofDigitChars_cons, Nat.mul_comm 10 value]
    cases hc : digitValue? c with
    | none =>
      constructor
      · rintro ⟨⟩
      · rintro ⟨⟨hdigit, _⟩, _⟩
        cases hc.symm.trans (digitValue?_eq_some_iff.mpr ⟨hdigit, rfl⟩)
    | some digit =>
      obtain ⟨hdigit, rfl⟩ := digitValue?_eq_some_iff.mp hc
      dsimp only
      split
      next hroom =>
        rw [ih hroom, and_assoc]
        simp [hdigit]
      next hfull =>
        constructor
        · rintro ⟨⟩
        · rintro ⟨_, rfl, hbound⟩
          exact absurd (Nat.lt_of_le_of_lt (le_ofDigitChars _ digits) hbound) hfull

theorem decimalDigits_eq_ok_iff {s : String} {digits : List Char} (hdigits : ∀ c ∈ digits, c.isDigit = true) :
    decimalDigits s.toList = .ok digits ↔ IsNumeral s digits := by
  have hplus {cs : List Char} (h : digits = '+' :: cs) : False :=
    absurd (hdigits '+' (h ▸ List.mem_cons_self)) (by decide)
  have hnumeral : IsNumeral s digits ↔ (s.toList = digits ∨ s.toList = '+' :: digits) ∧ digits ≠ [] :=
    ⟨fun h => ⟨h.text, h.ne_nil⟩, fun h => ⟨h.1, h.2, hdigits⟩⟩
  rw [hnumeral]
  cases s.toList with
  | nil => exact iff_of_false nofun fun ⟨htext, hne⟩ => hne (by simpa using htext)
  | cons c cs =>
    by_cases hc : c = '+'
    · subst hc
      cases cs with
      | nil =>
        refine iff_of_false nofun fun ⟨htext, hne⟩ => ?_
        rcases htext with htext | htext
        · exact hplus htext.symm
        · exact hne (List.cons.inj htext).2.symm
      | cons d ds =>
        change (.ok (d :: ds) : Except DecimalError (List Char)) = .ok digits ↔ _
        constructor
        · rintro ⟨⟩
          exact ⟨.inr rfl, nofun⟩
        · rintro ⟨htext | htext, _⟩
          · exact (hplus htext.symm).elim
          · rw [(List.cons.inj htext).2]
    · rw [decimalDigits_cons hc]
      constructor
      · rintro ⟨⟩
        exact ⟨.inl rfl, nofun⟩
      · rintro ⟨htext | htext, _⟩
        · rw [htext]
        · exact absurd (List.cons.inj htext).1 hc

/-- The texts that are read as 64-bit integers. -/
theorem readUInt64_eq_ok_iff {s : String} {n : UInt64} :
    readUInt64 s = .ok n ↔ ∃ digits, IsNumeral s digits ∧ Nat.ofDigitChars 10 digits 0 = n.toNat := by
  unfold readUInt64
  rw [bind_eq_ok_iff]
  constructor
  · rintro ⟨digits, htext, hread⟩
    obtain ⟨value, hvalue, hn⟩ := bind_eq_ok_iff.mp hread
    obtain ⟨hdigits, hvalue, hbound⟩ := (readDigits_eq_ok_iff (by decide)).mp hvalue
    obtain rfl := Except.ok.inj hn
    exact ⟨digits, (decimalDigits_eq_ok_iff hdigits).mp htext,
      hvalue.trans (UInt64.toNat_ofNat_of_lt hbound).symm⟩
  · rintro ⟨digits, hnumeral, hvalue⟩
    have hread : readDigits UInt64.size 0 digits = .ok n.toNat :=
      (readDigits_eq_ok_iff (by decide)).mpr ⟨hnumeral.isDigit, hvalue, n.toNat_lt_size⟩
    refine ⟨digits, (decimalDigits_eq_ok_iff hnumeral.isDigit).mpr hnumeral, ?_⟩
    rw [hread]
    exact congrArg Except.ok UInt64.ofNat_toNat

namespace Hex

/-- A hexadecimal digit of either case. -/
def IsDigit (c : Char) : Prop := c ∈ "0123456789abcdefABCDEF".toList

instance : DecidablePred IsDigit := fun c => inferInstanceAs (Decidable (c ∈ _))

/-- A digit is one byte, which has the value of its lowercase form. -/
theorem IsDigit.exists_value? {c : Char} (h : IsDigit c) :
    ∃ byte value, String.utf8EncodeChar c = [byte] ∧ value? byte = some value ∧ value < 16 ∧
      digit value = c.toLower := by
  have hall : ("0123456789abcdefABCDEF".toList.all fun c =>
      String.utf8EncodeChar c = [UInt8.ofNat c.toNat] ∧
        (value? (UInt8.ofNat c.toNat)).any fun value => value < 16 ∧ digit value = c.toLower) = true := by
    decide
  obtain ⟨hbyte, hsome⟩ := of_decide_eq_true (List.all_eq_true.mp hall c h)
  rw [Option.any_eq_true] at hsome
  obtain ⟨value, hvalue, hdigit⟩ := hsome
  obtain ⟨hbound, hdigit⟩ := of_decide_eq_true hdigit
  exact ⟨_, value, hbyte, hvalue, hbound, hdigit⟩

/-- Every byte that has a value is a digit. -/
theorem exists_isDigit_of_value? {byte : UInt8} {value : Nat} (h : value? byte = some value) :
    ∃ c, IsDigit c ∧ String.utf8EncodeChar c = [byte] ∧ value < 16 ∧ digit value = c.toLower := by
  have hall : ∀ n < 256, (value? (UInt8.ofNat n)).all fun value =>
      IsDigit (Char.ofNat n) ∧ String.utf8EncodeChar (Char.ofNat n) = [UInt8.ofNat n] ∧ value < 16 ∧
        digit value = (Char.ofNat n).toLower := by
    decide +kernel
  have hbyte := hall byte.toNat byte.toNat_lt
  rw [UInt8.ofNat_toNat, Option.all_eq_true] at hbyte
  exact ⟨_, of_decide_eq_true (hbyte value h)⟩

theorem pair_ofNat {high low : Nat} (hhigh : high < 16) (hlow : low < 16) :
    pair (UInt8.ofNat (16 * high + low)) = [digit high, digit low] := by
  have hvalue : (UInt8.ofNat (16 * high + low)).toNat = 16 * high + low := by
    rw [UInt8.toNat_ofNat']
    omega
  have hdiv : (16 * high + low) / 16 = high := by omega
  have hmod : (16 * high + low) % 16 = low := by omega
  rw [pair, hvalue, hdiv, hmod]

/-- An even number of digits is read as the bytes that are written with them in lowercase. -/
theorem exists_readPairs : ∀ (position : Nat) {cs : List Char}, (∀ c ∈ cs, IsDigit c) → cs.length % 2 = 0 →
    ∃ bytes, readPairs position (cs.flatMap String.utf8EncodeChar) = .ok bytes ∧
      digits bytes = cs.map Char.toLower
  | _, [], _, _ => ⟨[], rfl, rfl⟩
  | _, [_], _, heven => absurd heven (by simp)
  | position, c :: d :: cs, hdigits, heven => by
    rw [List.forall_mem_cons, List.forall_mem_cons] at hdigits
    obtain ⟨hc, hd, hcs⟩ := hdigits
    obtain ⟨high, h, hhigh, hhighValue, hh, hhDigit⟩ := hc.exists_value?
    obtain ⟨low, l, hlow, hlowValue, hl, hlDigit⟩ := hd.exists_value?
    have hrest : cs.length % 2 = 0 := by
      rw [List.length_cons, List.length_cons] at heven
      omega
    obtain ⟨bytes, hread, hbytes⟩ := exists_readPairs (position + 2) hcs hrest
    refine ⟨UInt8.ofNat (16 * h + l) :: bytes, ?_, ?_⟩
    · rw [List.flatMap_cons, List.flatMap_cons, hhigh, hlow]
      change readPairs position (high :: low :: cs.flatMap String.utf8EncodeChar) = _
      rw [readPairs, hhighValue, hlowValue, hread]
      rfl
    · rw [digits, List.flatMap_cons, pair_ofNat hh hl, hhDigit, hlDigit, ← digits, hbytes]
      rfl

/-- Bytes that are read in pairs are digits. -/
theorem exists_digits_of_readPairs : ∀ (position : Nat) {text bytes : List UInt8},
    readPairs position text = .ok bytes → text.length % 2 = 0 →
    ∃ cs : List Char, (∀ c ∈ cs, IsDigit c) ∧ cs.flatMap String.utf8EncodeChar = text
  | _, [], _, _, _ => ⟨[], nofun, rfl⟩
  | _, [_], _, _, heven => absurd heven (by simp)
  | position, high :: low :: rest, _, h, heven => by
    rw [readPairs] at h
    cases hhigh : value? high with
    | none => simp [hhigh] at h
    | some x =>
      cases hlow : value? low with
      | none => simp [hhigh, hlow] at h
      | some y =>
        simp only [hhigh, hlow] at h
        obtain ⟨_, hread, _⟩ := map_eq_ok_iff.mp h
        obtain ⟨c, hc, hcByte, _⟩ := exists_isDigit_of_value? hhigh
        obtain ⟨d, hd, hdByte, _⟩ := exists_isDigit_of_value? hlow
        have hrest : rest.length % 2 = 0 := by
          rw [List.length_cons, List.length_cons] at heven
          omega
        obtain ⟨cs, hcs, htext⟩ := exists_digits_of_readPairs (position + 2) hread hrest
        refine ⟨c :: d :: cs, ?_, ?_⟩
        · rw [List.forall_mem_cons, List.forall_mem_cons]
          exact ⟨hc, hd, hcs⟩
        · rw [List.flatMap_cons, List.flatMap_cons, hcByte, hdByte, htext]
          rfl

theorem length_flatMap_of_isDigit {cs : List Char} (h : ∀ c ∈ cs, IsDigit c) :
    (cs.flatMap String.utf8EncodeChar).length = cs.length := by
  induction cs with
  | nil => rfl
  | cons c cs ih =>
    rw [List.forall_mem_cons] at h
    obtain ⟨byte, _, hbyte, _⟩ := h.1.exists_value?
    rw [List.flatMap_cons, hbyte, List.length_append, ih h.2, List.length_singleton, List.length_cons,
      Nat.add_comm]

/-- A text has the mark if its first two characters are those of the mark. -/
theorem afterMark?_eq_some_iff {s : String} {text : List UInt8} :
    afterMark? (Utf8.encode s) = some text ↔
      ∃ cs, s.toList = '0' :: 'x' :: cs ∧ cs.flatMap String.utf8EncodeChar = text := by
  rw [Utf8.encode_eq_flatMap]
  constructor
  · intro h
    have hbytes : s.toList.flatMap String.utf8EncodeChar = 0x30 :: 0x78 :: text := by
      unfold afterMark? at h
      split at h
      · rename_i hbytes
        rw [hbytes, Option.some.inj h]
      · cases h
    obtain ⟨cs, hzero, hcs⟩ := (Utf8.flatMap_eq_cons_iff (c := '0') (by decide)).mp hbytes
    obtain ⟨ds, rfl, hds⟩ := (Utf8.flatMap_eq_cons_iff (c := 'x') (by decide)).mp hcs
    exact ⟨ds, hzero, hds⟩
  · rintro ⟨cs, hmark, rfl⟩
    rw [hmark]
    rfl

theorem digits_inj {bytes other : List UInt8} : digits bytes = digits other ↔ bytes = other := by
  refine ⟨fun h => ?_, congrArg digits⟩
  have hread := readPairs_digits 0 bytes
  rw [h, readPairs_digits] at hread
  exact (Except.ok.inj hread).symm

/-- The text of a byte string of a length, with its digits: two for each byte, of either case, behind
the mark. -/
structure IsHexText (length : Nat) (s : String) (cs : List Char) : Prop where
  text : s.toList = '0' :: 'x' :: cs
  length : cs.length = 2 * length
  isDigit : ∀ c ∈ cs, IsDigit c

theorem IsHexText.marked {length : Nat} {s : String} {cs : List Char} (h : IsHexText length s cs) :
    ['0', 'x'] <+: s.toList :=
  ⟨cs, h.text.symm⟩

theorem length_digits (bytes : List UInt8) : (digits bytes).length = 2 * bytes.length := by
  induction bytes with
  | nil => rfl
  | cons byte bytes ih =>
    rw [digits, List.flatMap_cons, List.length_append, ← digits, ih, List.length_cons]
    change 2 + 2 * bytes.length = _
    omega

/-- The text of a byte string is read as the bytes that are written with its digits in lowercase. -/
theorem IsHexText.exists_readBytes {length : Nat} {s : String} {cs : List Char} (h : IsHexText length s cs) :
    ∃ v : Vector UInt8 length, readBytes length s = .ok v ∧ digits v.toList = cs.map Char.toLower := by
  have hcount := length_flatMap_of_isDigit h.isDigit
  have hlength := h.length
  obtain ⟨bytes, hread, hbytes⟩ := exists_readPairs 0 h.isDigit (by omega)
  have hsize : bytes.length = length := by
    have hdigits := congrArg List.length hbytes
    rw [length_digits, List.length_map] at hdigits
    omega
  refine ⟨⟨bytes.toArray, bytes.size_toArray.trans hsize⟩, ?_, hbytes⟩
  unfold readBytes
  rw [← Utf8.encode, afterMark?_eq_some_iff.mpr ⟨cs, h.text, rfl⟩]
  dsimp only
  rw [if_neg (by omega), if_neg (by omega), hread]
  exact dif_pos hsize

/-- A text that is read as a byte string is the text of one. -/
theorem exists_isHexText_of_readBytes {length : Nat} {s : String} {v : Vector UInt8 length}
    (h : readBytes length s = .ok v) : ∃ cs, IsHexText length s cs := by
  unfold readBytes at h
  rw [← Utf8.encode] at h
  cases hmark : afterMark? (Utf8.encode s) with
  | none => simp [hmark] at h
  | some text =>
    simp only [hmark] at h
    split at h
    · cases h
    next heven =>
    split at h
    · cases h
    next hlength =>
    obtain ⟨bytes, hread, _⟩ := bind_eq_ok_iff.mp h
    obtain ⟨cs, htext, rfl⟩ := afterMark?_eq_some_iff.mp hmark
    obtain ⟨ds, hdigits, hds⟩ := exists_digits_of_readPairs 0 hread (by omega)
    obtain rfl := Utf8.flatMap_utf8EncodeChar_inj.mp hds
    have hcount := length_flatMap_of_isDigit hdigits
    exact ⟨ds, htext, by omega, hdigits⟩

/-- The texts that are read as byte strings of a length. -/
theorem readBytes_eq_ok_iff {length : Nat} {s : String} {v : Vector UInt8 length} :
    readBytes length s = .ok v ↔ ∃ cs, IsHexText length s cs ∧ digits v.toList = cs.map Char.toLower := by
  constructor
  · intro h
    obtain ⟨cs, hhex⟩ := exists_isHexText_of_readBytes h
    obtain ⟨read, hsame, hlower⟩ := hhex.exists_readBytes
    obtain rfl := Except.ok.inj (h.symm.trans hsame)
    exact ⟨cs, hhex, hlower⟩
  · rintro ⟨cs, hhex, hlower⟩
    obtain ⟨read, hread, hsame⟩ := hhex.exists_readBytes
    rw [hread, Vector.toList_inj.mp (digits_inj.mp (hsame.trans hlower.symm))]

theorem readPairs_ne_missingMark : ∀ (position : Nat) (text : List UInt8),
    readPairs position text ≠ .error .missingMark
  | _, [] | _, [_] => by rintro ⟨⟩
  | position, high :: low :: rest => by
    rw [readPairs]
    cases value? high with
    | none => rintro ⟨⟩
    | some x =>
      cases value? low with
      | none => rintro ⟨⟩
      | some y =>
        have hrest := readPairs_ne_missingMark (position + 2) rest
        dsimp only
        cases hread : readPairs (position + 2) rest with
        | ok bytes => rintro ⟨⟩
        | error e => exact fun h => hrest (hread.trans (congrArg Except.error (Except.error.inj h)))

/-- The mark is all that a text without it is missed for. -/
theorem readBytes_eq_missingMark_iff {length : Nat} {s : String} :
    readBytes length s = .error .missingMark ↔ ¬ ['0', 'x'] <+: s.toList := by
  have hprefix : (∃ text, afterMark? (Utf8.encode s) = some text) ↔ ['0', 'x'] <+: s.toList := by
    simp only [afterMark?_eq_some_iff]
    constructor
    · rintro ⟨_, cs, hs, _⟩
      exact ⟨cs, hs.symm⟩
    · rintro ⟨cs, hs⟩
      exact ⟨_, cs, hs.symm, rfl⟩
  rw [← hprefix]
  unfold readBytes
  rw [← Utf8.encode]
  cases afterMark? (Utf8.encode s) with
  | none => simp
  | some text =>
    refine iff_of_false ?_ (by simp)
    dsimp only
    split
    · rintro ⟨⟩
    split
    · rintro ⟨⟩
    cases hread : readPairs 0 text with
    | error e =>
      have hne := readPairs_ne_missingMark 0 text
      exact fun h => hne (hread.trans (congrArg Except.error (Except.error.inj h)))
    | ok bytes =>
      change (if h : bytes.length = length then _ else _ : Except HexError (Vector UInt8 length)) ≠ _
      split <;> rintro ⟨⟩

end Hex

end BeaconApi
