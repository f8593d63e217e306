import BeaconApi.Json.Scan
import BeaconApi.Proofs.Text.Encoding

namespace BeaconApi.Json

open String (utf8EncodeChar)

namespace StringReader

/-- Some bytes take a reader to another one. -/
def Passes : StringReader → List UInt8 → StringReader → Prop
  | r, [], r' => r = r'
  | r, byte :: bytes, r' => ∃ next, r.feed byte = .more next ∧ Passes next bytes r'

/-- The reader that has read the given bytes, last one first, and stands behind a character. -/
def holding (bytes : List UInt8) : StringReader := { content := .ok bytes }

theorem Passes.append {r r' r'' : StringReader} {first second : List UInt8} (h : r.Passes first r')
    (h' : r'.Passes second r'') : r.Passes (first ++ second) r'' := by
  induction first generalizing r with
  | nil =>
    obtain rfl : r = r' := h
    exact h'
  | cons byte first ih =>
    obtain ⟨next, hfeed, hrest⟩ := h
    exact ⟨next, hfeed, ih hrest⟩

/-- Bytes that are neither controls nor quotes nor backslashes stand for themselves. -/
theorem passes_plain {bytes : List UInt8} (taken : List UInt8)
    (h : ∀ byte ∈ bytes, 0x20 ≤ byte ∧ byte ≠ 0x22 ∧ byte ≠ 0x5c) :
    (holding taken).Passes bytes (holding (bytes.reverse ++ taken)) := by
  induction bytes generalizing taken with
  | nil => rfl
  | cons byte bytes ih =>
    obtain ⟨hcontrol, hquote, hbackslash⟩ := h byte List.mem_cons_self
    refine ⟨holding (byte :: taken), ?_, ?_⟩
    · change feedPlain _ _ = _
      rw [feedPlain, if_neg hbackslash, if_neg hquote, if_neg (UInt8.not_lt.mpr hcontrol)]
      rfl
    · rw [List.reverse_cons, List.append_assoc]
      exact ih (byte :: taken) fun other hother => h other (List.mem_cons_of_mem _ hother)

theorem passes_escaped (byte : UInt8) {plain : UInt8} (taken : List UInt8) (hbyte : byte ≠ 0x75)
    (hplain : escaped? byte = some plain) :
    (holding taken).Passes [0x5c, byte] (holding (plain :: taken)) := by
  refine ⟨{ holding taken with mode := .escape }, rfl, holding (plain :: taken), ?_, rfl⟩
  change feedEscape _ _ = _
  rw [feedEscape, if_neg hbyte, hplain]
  rfl

theorem passes_numbered {high low : UInt8} {code : Nat} (taken : List UInt8)
    (hnumber : numberOf? [0x30, 0x30, high, low] = some code) (hcode : code < 0xd800) :
    (holding taken).Passes [0x5c, 0x75, 0x30, 0x30, high, low]
      (holding ((Utf8.encode (Char.ofNat code).toString).reverse ++ taken)) := by
  refine ⟨_, rfl, _, rfl, _, rfl, _, rfl, _, rfl, _, ?_, rfl⟩
  change numberOf? ([0x30, 0x30, high] ++ [low]) = some code at hnumber
  change feedNumber _ [0x30, 0x30, high] low = _
  rw [feedNumber, if_neg (by simp), hnumber]
  have hlow : ¬ (0xdc00 ≤ code ∧ code ≤ 0xdfff) := by omega
  have hlead : ¬ (0xd800 ≤ code ∧ code ≤ 0xdbff) := by omega
  simp only [unit, holding, hlow, hlead, if_false]
  rfl

/-- A character that is written as it is. -/
theorem passes_unescaped {c : Char} (taken : List UInt8) (hcontrol : 0x20 ≤ c.toNat) (hquote : c ≠ '"')
    (hbackslash : c ≠ '\\') :
    (holding taken).Passes (utf8EncodeChar c) (holding ((utf8EncodeChar c).reverse ++ taken)) := by
  refine passes_plain taken fun byte hbyte => ?_
  by_cases hsingle : c.toNat < 0x80
  · rw [Utf8.utf8EncodeChar_of_lt hsingle] at hbyte
    obtain rfl := List.mem_singleton.mp hbyte
    have hvalue : (UInt8.ofNat c.toNat).toNat = c.toNat := by
      rw [UInt8.toNat_ofNat']
      omega
    have hne (d : Char) (hd : c ≠ d) : c.toNat ≠ d.toNat := fun heq => hd (Char.toNat_inj.mp heq)
    refine ⟨?_, fun heq => ?_, fun heq => ?_⟩
    · rw [UInt8.le_iff_toNat_le, hvalue]
      exact hcontrol
    · exact hne '"' hquote (hvalue ▸ congrArg UInt8.toNat heq)
    · exact hne '\\' hbackslash (hvalue ▸ congrArg UInt8.toNat heq)
  · have habove := Utf8.le_of_mem_utf8EncodeChar (Nat.not_lt.mp hsingle) hbyte
    refine ⟨UInt8.le_trans (by decide) habove, ?_, ?_⟩
    · rintro rfl
      exact absurd habove (by decide)
    · rintro rfl
      exact absurd habove (by decide)

/-- The digits of a control character count for it. -/
theorem numberOf?_control {code : Nat} (h : code < 0x20) :
    ∃ high low, utf8EncodeChar (Nat.digitChar (code / 16)) = [high] ∧
      utf8EncodeChar (Nat.digitChar (code % 16)) = [low] ∧
        numberOf? [0x30, 0x30, high, low] = some code := by
  have hdigit : ∀ n < 16, utf8EncodeChar (Nat.digitChar n) =
      [UInt8.ofNat (Nat.digitChar n).toNat] := by decide
  have hnumber : ∀ n < 0x20, numberOf? [0x30, 0x30, UInt8.ofNat (Nat.digitChar (n / 16)).toNat,
      UInt8.ofNat (Nat.digitChar (n % 16)).toNat] = some n := by decide
  exact ⟨_, _, hdigit _ (by omega), hdigit _ (by omega), hnumber code h⟩

/-- What is written for a character is read as the bytes of the character. -/
theorem passes_escape (c : Char) (taken : List UInt8) :
    (holding taken).Passes ((escape c).flatMap utf8EncodeChar)
      (holding ((utf8EncodeChar c).reverse ++ taken)) := by
  unfold escape
  split
  next h => subst h; exact passes_escaped 0x22 taken (by decide) rfl
  split
  next h => subst h; exact passes_escaped 0x5c taken (by decide) rfl
  split
  next hquote hbackslash hcontrol =>
    rw [List.flatMap_singleton]
    exact passes_unescaped taken hcontrol hquote hbackslash
  split
  next h => subst h; exact passes_escaped 0x62 taken (by decide) rfl
  split
  next h => subst h; exact passes_escaped 0x66 taken (by decide) rfl
  split
  next h => subst h; exact passes_escaped 0x6e taken (by decide) rfl
  split
  next h => subst h; exact passes_escaped 0x72 taken (by decide) rfl
  split
  next h => subst h; exact passes_escaped 0x74 taken (by decide) rfl
  next hcontrol _ _ _ _ _ =>
    obtain ⟨high, low, hhigh, hlow, hnumber⟩ := numberOf?_control (Nat.not_le.mp hcontrol)
    have hpasses := passes_numbered taken hnumber (by omega)
    rw [Char.ofNat_toNat] at hpasses
    have hbytes : Utf8.encode c.toString = utf8EncodeChar c := by
      rw [Utf8.encode_eq_flatMap, Char.toString, String.toList_singleton, List.flatMap_singleton]
    rw [hbytes] at hpasses
    simp only [List.flatMap_cons, hhigh, hlow]
    exact hpasses

/-- What is written for the characters of a string is read as the bytes of the string. -/
theorem passes_escapes (cs : List Char) (taken : List UInt8) :
    (holding taken).Passes ((cs.flatMap escape).flatMap utf8EncodeChar)
      (holding ((cs.flatMap utf8EncodeChar).reverse ++ taken)) := by
  induction cs generalizing taken with
  | nil => rfl
  | cons c cs ih =>
    rw [List.flatMap_cons, List.flatMap_append, List.flatMap_cons, List.reverse_append, List.append_assoc]
    exact (passes_escape c taken).append (ih _)

/-- The closing quote finds the string that has been read. -/
theorem feed_quote (s : String) :
    (holding (Utf8.encode s).reverse).feed 0x22 = .whole (.ok s) := by
  have hcontent : (holding (Utf8.encode s).reverse).unpaired.content = .ok (Utf8.encode s).reverse := rfl
  change StringStep.whole (value _) = _
  rw [value, hcontent]
  dsimp only
  rw [List.reverse_reverse, Utf8.decode?_encode]

end StringReader

namespace Scan

open NumeralReader

/-- The numeral reader that has read a positive number. -/
def counted (n : Nat) : NumeralReader := ⟨.whole, { significand := n }⟩

theorem wholeDigit_of_le {n : Numeral} {digit : Nat} (hfull : n.full = false)
    (h : n.significand * 10 + digit ≤ Numeral.largest) :
    n.wholeDigit digit = { n with significand := n.significand * 10 + digit } := by
  unfold Numeral.wholeDigit
  rw [if_neg]
  rintro (hfull' | hlt)
  · rw [hfull] at hfull'
    cases hfull'
  · omega

theorem digit_byte : ∀ digit < 10, utf8EncodeChar (Nat.digitChar digit) = [UInt8.ofNat (48 + digit)] ∧
    byteDigit? (UInt8.ofNat (48 + digit)) = some digit := by
  decide

theorem begin_digit {digit : Nat} (h : digit < 10) (around : List Frame) :
    begin (UInt8.ofNat (48 + digit)) around = .numeral (.first {} digit) around := by
  match digit, h with
  | 0, _ | 1, _ | 2, _ | 3, _ | 4, _ | 5, _ | 6, _ | 7, _ | 8, _ | 9, _ => rfl

/-- The digits of a number begin like no blank and no closing bracket. -/
theorem digits_open (n : Nat) :
    ∃ first rest, (Nat.toDigits 10 n).flatMap utf8EncodeChar = first :: rest ∧
      isBlank first = false ∧ first ≠ 0x5d := by
  induction n using Nat.strongRecOn with
  | ind n ih =>
    by_cases hsingle : n < 10
    · have hopen : ∀ digit < 10, isBlank (UInt8.ofNat (48 + digit)) = false ∧
          UInt8.ofNat (48 + digit) ≠ 0x5d := by decide
      refine ⟨_, [], ?_, hopen n hsingle⟩
      rw [Nat.toDigits_of_lt_base hsingle, List.flatMap_singleton, (digit_byte n hsingle).1]
    · obtain ⟨first, rest, hdigits, hopen⟩ := ih (n / 10) (by omega)
      refine ⟨first, rest ++ utf8EncodeChar (Nat.digitChar (n % 10)), ?_, hopen⟩
      rw [Nat.toDigits_of_base_le (by decide) (by omega), List.flatMap_append, hdigits,
        List.flatMap_singleton, List.cons_append]

theorem counted_feed (n : Nat) {byte : UInt8} (h : byte ∈ [0x2c, 0x5d, 0x7d]) :
    (counted n).feed byte = .ended := by
  simp only [List.mem_cons, List.not_mem_nil, or_false] at h
  rcases h with rfl | rfl | rfl <;> rfl

theorem counted_document (n : UInt64) : (counted n.toNat).document = .number (.natural n) := by
  change Document.number (.natural (UInt64.ofNat n.toNat)) = _
  rw [UInt64.ofNat_toNat]

/-- The digits of a positive number are read as the number. -/
theorem foldl_digits {n : Nat} (hpos : 0 < n) (hlargest : n ≤ Numeral.largest) (around : List Frame) :
    ((Nat.toDigits 10 n).flatMap utf8EncodeChar).foldl feed (.value around) =
      .numeral (counted n) around := by
  induction n using Nat.strongRecOn with
  | ind n ih =>
    by_cases hsingle : n < 10
    · obtain ⟨hbyte, _⟩ := digit_byte n hsingle
      rw [Nat.toDigits_of_lt_base hsingle, List.flatMap_singleton, hbyte]
      have hblank : ∀ digit < 10, isBlank (UInt8.ofNat (48 + digit)) = false := by decide
      change feedValue _ around = _
      rw [feedValue, hblank n hsingle]
      change begin _ around = _
      rw [begin_digit hsingle, first, if_neg (by omega), wholeDigit_of_le rfl (by simpa using hlargest)]
      simp [counted]
    · have hlt : n % 10 < 10 := Nat.mod_lt _ (by decide)
      obtain ⟨hbyte, hdigit⟩ := digit_byte (n % 10) hlt
      rw [Nat.toDigits_of_base_le (by decide) (by omega), List.flatMap_append, List.foldl_append,
        ih (n / 10) (by omega) (by omega) (by omega), List.flatMap_singleton, hbyte]
      have hnumeral : (counted (n / 10)).feed (UInt8.ofNat (48 + n % 10)) = .more (counted n) := by
        have hvalue : n / 10 * 10 + n % 10 = n := by omega
        unfold NumeralReader.feed
        rw [hdigit]
        change NumeralStep.more ⟨.whole, Numeral.wholeDigit { significand := n / 10 } (n % 10)⟩ = _
        rw [wholeDigit_of_le rfl (by simpa only [hvalue] using hlargest)]
        simp only [hvalue, counted]
      change feedNumeral _ (counted (n / 10)) around = _
      rw [feedNumeral, hnumeral]

end Scan

end BeaconApi.Json
