import BeaconApi.Proofs.Beacon.Identifier
import BeaconApi.Proofs.Text.Numerals

namespace BeaconApi

theorem Bytes.ofString_eq_ok_iff {n : Nat} {s : String} {b : Bytes n} :
    Bytes.ofString s = .ok b ↔
      ∃ cs, Hex.IsHexText n s cs ∧ Hex.digits b.toList = cs.map Char.toLower := by
  rw [ofString, map_eq_ok_iff]
  constructor
  · rintro ⟨v, hread, rfl⟩
    exact Hex.readBytes_eq_ok_iff.mp hread
  · exact fun h => ⟨b.val, Hex.readBytes_eq_ok_iff.mpr h, rfl⟩

theorem Bytes.ofString_eq_missingMark_iff {n : Nat} {s : String} :
    (Bytes.ofString s : Except HexError (Bytes n)) = .error .missingMark ↔ ¬ ['0', 'x'] <+: s.toList := by
  rw [← @Hex.readBytes_eq_missingMark_iff n, ofString]
  cases Hex.readBytes n s with
  | ok v => constructor <;> rintro ⟨⟩
  | error e => exact ⟨fun h => congrArg Except.error (Except.error.inj h), fun h => by rw [h]; rfl⟩

/-- The text of a byte string is read. -/
theorem Bytes.exists_ofString {n : Nat} {s : String} {cs : List Char} (h : Hex.IsHexText n s cs) :
    ∃ b : Bytes n, Bytes.ofString s = .ok b := by
  obtain ⟨v, hread, _⟩ := h.exists_readBytes
  exact ⟨⟨v⟩, by rw [ofString, hread]; rfl⟩

/-- The text of bytes that have been read is the text that has been read, in lowercase. -/
theorem Bytes.display_of_isHexText {n : Nat} {s : String} {cs : List Char} {b : Bytes n}
    (h : Hex.IsHexText n s cs) (hdigits : Hex.digits b.toList = cs.map Char.toLower) :
    b.display = s.toLower := by
  have hmark : s.toLower.toList = '0' :: 'x' :: cs.map Char.toLower := by
    change (s.map Char.toLower).toList = _
    rw [String.toList_map, h.text]
    rfl
  rw [display, Wire.hexText, ← String.toList_inj, hmark, String.toList_ofList, ← hdigits]

theorem Quantity.ofString_eq_ok_iff {m : Measure} {s : String} {q : Quantity m} :
    Quantity.ofString s = .ok q ↔ ∃ ds, IsNumeral s ds ∧ Nat.ofDigitChars 10 ds 0 = q.val.toNat := by
  rw [ofString, map_eq_ok_iff, ← readUInt64_eq_ok_iff]
  constructor
  · rintro ⟨n, hread, rfl⟩
    exact hread
  · exact fun h => ⟨q.val, h, rfl⟩

/-- A numeral is read if its value is within the range of integers. -/
theorem Quantity.exists_ofString {m : Measure} {s : String} {ds : List Char} (h : IsNumeral s ds)
    (hbound : Nat.ofDigitChars 10 ds 0 < UInt64.size) : ∃ q : Quantity m, Quantity.ofString s = .ok q :=
  ⟨⟨UInt64.ofNat (Nat.ofDigitChars 10 ds 0)⟩,
    ofString_eq_ok_iff.mpr ⟨ds, h, (UInt64.toNat_ofNat_of_lt hbound).symm⟩⟩

/-- A numeral has its digits alone. -/
theorem IsNumeral.digits_unique {s : String} {ds es : List Char} (hd : IsNumeral s ds) (he : IsNumeral s es) :
    ds = es := by
  have hplus {ds cs : List Char} (h : IsNumeral s ds) (hcs : ds = '+' :: cs) : False :=
    absurd (h.isDigit '+' (hcs ▸ List.mem_cons_self)) (by decide)
  rcases hd.text, he.text with ⟨hd' | hd', he' | he'⟩
  · exact hd'.symm.trans he'
  · exact (hplus hd (hd'.symm.trans he')).elim
  · exact (hplus he (he'.symm.trans hd')).elim
  · exact (List.cons.inj (hd'.symm.trans he')).2

/-- A numeral does not begin like a byte string. -/
theorem IsNumeral.not_marked {s : String} {ds : List Char} (h : IsNumeral s ds) :
    ¬ ['0', 'x'] <+: s.toList := by
  rintro ⟨cs, hcs⟩
  rcases h.text with htext | htext
  · exact absurd (h.isDigit 'x' (htext ▸ hcs ▸ by simp)) (by decide)
  · cases hcs.trans htext

/-- The kinds of identifiers. -/
inductive IdentifierKind
  | block
  | state
  | validator
deriving DecidableEq, Repr

namespace IdentifierKind

/-- The identifiers of a kind. -/
abbrev Value : IdentifierKind → Type
  | block => BlockId
  | state => StateId
  | validator => ValidatorId

/-- The name of a kind. -/
def name : IdentifierKind → String
  | block => "block id"
  | state => "state id"
  | validator => "validator id"

/-- The text of an identifier. -/
def display : (k : IdentifierKind) → k.Value → String
  | block => BlockId.display
  | state => StateId.display
  | validator => ValidatorId.display

/-- Read an identifier of a kind. -/
def ofString : (k : IdentifierKind) → String → Except IdentifierError k.Value
  | block => BlockId.ofString
  | state => StateId.ofString
  | validator => ValidatorId.ofString

/-- The keywords of a kind, with what they name. -/
def keywords : (k : IdentifierKind) → List (String × k.Value)
  | block => [("head", .head), ("genesis", .genesis), ("finalized", .finalized)]
  | state => [("head", .head), ("genesis", .genesis), ("finalized", .finalized), ("justified", .justified)]
  | validator => []

/-- The number of bytes in the identifiers of a kind that are byte strings. -/
def byteLength : IdentifierKind → Nat
  | block | state => 32
  | validator => 48

/-- What the identifiers of a kind count that are integers. -/
def measure : IdentifierKind → Measure
  | block | state => .slot
  | validator => .validatorIndex

/-- The identifier that is a byte string. -/
def ofBytes : (k : IdentifierKind) → Bytes k.byteLength → k.Value
  | block => BlockId.root
  | state => StateId.root
  | validator => ValidatorId.pubkey

/-- The identifier that is an integer. -/
def ofQuantity : (k : IdentifierKind) → Quantity k.measure → k.Value
  | block => BlockId.slot
  | state => StateId.slot
  | validator => ValidatorId.index

variable (k : IdentifierKind)

theorem ofString_eq (s : String) :
    k.ofString s = readIdentifier k.name k.ofBytes k.ofQuantity k.keywords s := by
  cases k <;> rfl

theorem display_ofBytes (b : Bytes k.byteLength) : k.display (k.ofBytes b) = b.display := by
  cases k <;> rfl

theorem display_ofQuantity (q : Quantity k.measure) : k.display (k.ofQuantity q) = q.display := by
  cases k <;> rfl

/-- A keyword is written as it is read, and is neither marked nor a number. -/
theorem of_mem_keywords {entry : String × k.Value} (h : entry ∈ k.keywords) :
    k.display entry.2 = entry.1 ∧ ¬ ['0', 'x'] <+: entry.1.toList ∧
      ¬ entry.1.toList.all Char.isDigit ∧ entry.1.toList.head? ≠ some '+' := by
  cases k <;> simp only [keywords, List.mem_cons, List.not_mem_nil, or_false] at h
  · rcases h with rfl | rfl | rfl <;> decide
  · rcases h with rfl | rfl | rfl | rfl <;> decide

theorem ofString_display (id : k.Value) : k.ofString (k.display id) = .ok id := by
  cases k with
  | block => exact BlockId.ofString_display id
  | state => exact StateId.ofString_display id
  | validator => exact ValidatorId.ofString_display id

theorem display_injective : Function.Injective k.display := by
  intro id other h
  have hread := k.ofString_display id
  rw [h, k.ofString_display] at hread
  exact (Except.ok.inj hread).symm

/-- What is read from a text, by the form of the text. -/
inductive Reading (s : String) : Except IdentifierError k.Value → Prop
  | bytes {cs : List Char} {b : Bytes k.byteLength} (hhex : Hex.IsHexText k.byteLength s cs)
      (hlower : b.display = s.toLower) : Reading s (.ok (k.ofBytes b))
  | invalidHex (hmark : ['0', 'x'] <+: s.toList) (hhex : ¬ ∃ cs, Hex.IsHexText k.byteLength s cs)
      (reason : HexError) : Reading s (.error (.invalidHex k.name s reason))
  | keyword {x : k.Value} (hkeyword : (s, x) ∈ k.keywords) : Reading s (.ok x)
  | number {ds : List Char} {q : Quantity k.measure} (hnumeral : IsNumeral s ds)
      (hvalue : Nat.ofDigitChars 10 ds 0 = q.val.toNat) : Reading s (.ok (k.ofQuantity q))
  | unrecognized (hmark : ¬ ['0', 'x'] <+: s.toList) (hkeyword : s ∉ k.keywords.map Prod.fst)
      (hnumeral : ¬ ∃ ds, IsNumeral s ds ∧ Nat.ofDigitChars 10 ds 0 < UInt64.size) :
      Reading s (.error (.unrecognized k.name s))

theorem reading_ofString (s : String) : k.Reading s (k.ofString s) := by
  rw [ofString_eq, readIdentifier]
  cases hbytes : (Bytes.ofString s : Except HexError (Bytes k.byteLength)) with
  | ok b =>
    obtain ⟨cs, hhex, hdigits⟩ := Bytes.ofString_eq_ok_iff.mp hbytes
    exact .bytes hhex (Bytes.display_of_isHexText hhex hdigits)
  | error reason =>
    have hhex : ¬ ∃ cs, Hex.IsHexText k.byteLength s cs := by
      rintro ⟨cs, hhex⟩
      obtain ⟨b, hread⟩ := Bytes.exists_ofString hhex
      cases hbytes.symm.trans hread
    by_cases hreason : reason = .missingMark
    · subst hreason
      dsimp only
      cases hlookup : k.keywords.lookup s with
      | some x =>
        obtain ⟨before, after, hkeywords, _⟩ := List.lookup_eq_some_iff.mp hlookup
        exact .keyword (hkeywords ▸ List.mem_append_right _ List.mem_cons_self)
      | none =>
        dsimp only
        cases hquantity : (Quantity.ofString s : Except DecimalError (Quantity k.measure)) with
        | ok q =>
          obtain ⟨ds, hnumeral, hvalue⟩ := Quantity.ofString_eq_ok_iff.mp hquantity
          exact .number hnumeral hvalue
        | error e =>
          refine .unrecognized (Bytes.ofString_eq_missingMark_iff.mp hbytes) ?_ ?_
          · intro hkeyword
            obtain ⟨entry, hentry, rfl⟩ := List.mem_map.mp hkeyword
            exact absurd (List.lookup_eq_none_iff.mp hlookup entry hentry) (by simp)
          · rintro ⟨ds, hnumeral, hbound⟩
            obtain ⟨q, hread⟩ := Quantity.exists_ofString (m := k.measure) hnumeral hbound
            cases hquantity.symm.trans hread
    · have hmark : ['0', 'x'] <+: s.toList := by
        by_contra hmark
        have hmissing := (Bytes.ofString_eq_missingMark_iff (n := k.byteLength)).mpr hmark
        exact hreason (Except.error.inj (hbytes.symm.trans hmissing))
      cases reason with
      | missingMark => exact absurd rfl hreason
      | oddLength | wrongLength | invalidDigit => exact .invalidHex hmark hhex _

variable {k} in
theorem not_marked_of_keyword {s : String} (h : s ∈ k.keywords.map Prod.fst) : ¬ ['0', 'x'] <+: s.toList := by
  obtain ⟨entry, hentry, rfl⟩ := List.mem_map.mp h
  exact (k.of_mem_keywords hentry).2.1

variable {k} in
theorem not_numeral_of_keyword {s : String} (h : s ∈ k.keywords.map Prod.fst) {ds : List Char} :
    ¬ IsNumeral s ds := by
  obtain ⟨entry, hentry, rfl⟩ := List.mem_map.mp h
  obtain ⟨_, _, hdigits, hsign⟩ := k.of_mem_keywords hentry
  intro hnumeral
  rcases hnumeral.text with htext | htext
  · exact hdigits (htext ▸ List.all_eq_true.mpr hnumeral.isDigit)
  · exact hsign (by rw [htext]; rfl)

section Forms

variable {k} {s : String}

/-- The texts that are identifiers of a kind. -/
theorem exists_ofString_iff :
    (∃ id, k.ofString s = .ok id) ↔
      (∃ cs, Hex.IsHexText k.byteLength s cs) ∨ s ∈ k.keywords.map Prod.fst ∨
        ∃ ds, IsNumeral s ds ∧ Nat.ofDigitChars 10 ds 0 < UInt64.size := by
  have hreading := k.reading_ofString s
  constructor
  · rintro ⟨id, hid⟩
    rw [hid] at hreading
    cases hreading with
    | bytes hhex _ => exact .inl ⟨_, hhex⟩
    | keyword hkeyword => exact .inr (.inl (List.mem_map_of_mem hkeyword))
    | number hnumeral hvalue =>
      exact .inr (.inr ⟨_, hnumeral, hvalue ▸ UInt64.toNat_lt_size _⟩)
  · intro hform
    cases hread : k.ofString s with
    | ok id => exact ⟨id, rfl⟩
    | error e =>
      rw [hread] at hreading
      -- a text that fails has none of the forms, since the forms do not overlap
      rcases hform with ⟨cs, hhex⟩ | hkeyword | ⟨ds, hnumeral, hbound⟩
      · cases hreading with
        | invalidHex _ hnot => exact absurd ⟨cs, hhex⟩ hnot
        | unrecognized hmark => exact absurd hhex.marked hmark
      · cases hreading with
        | invalidHex hmark => exact absurd hmark (not_marked_of_keyword hkeyword)
        | unrecognized _ hnot => exact absurd hkeyword hnot
      · cases hreading with
        | invalidHex hmark => exact absurd hmark hnumeral.not_marked
        | unrecognized _ _ hnot => exact absurd ⟨ds, hnumeral, hbound⟩ hnot

theorem ofString_of_marked (hmark : ['0', 'x'] <+: s.toList) (hhex : ¬ ∃ cs, Hex.IsHexText k.byteLength s cs) :
    ∃ reason, k.ofString s = .error (.invalidHex k.name s reason) := by
  have hreading := k.reading_ofString s
  cases hread : k.ofString s with
  | ok id =>
    rw [hread] at hreading
    cases hreading with
    | bytes hvalid _ => exact absurd ⟨_, hvalid⟩ hhex
    | keyword hkeyword => exact absurd hmark (not_marked_of_keyword (List.mem_map_of_mem hkeyword))
    | number hnumeral _ => exact absurd hmark hnumeral.not_marked
  | error e =>
    rw [hread] at hreading
    cases hreading with
    | invalidHex _ _ reason => exact ⟨reason, rfl⟩
    | unrecognized hnot => exact absurd hmark hnot

theorem error_of_not_marked (hmark : ¬ ['0', 'x'] <+: s.toList) {e : IdentifierError}
    (h : k.ofString s = .error e) : e = .unrecognized k.name s := by
  have hreading := k.reading_ofString s
  rw [h] at hreading
  cases hreading with
  | invalidHex hmarked => exact absurd hmarked hmark
  | unrecognized => rfl

variable {id : k.Value} (h : k.ofString s = .ok id)
include h

theorem display_of_isHexText {cs : List Char} (hhex : Hex.IsHexText k.byteLength s cs) :
    k.display id = s.toLower := by
  have hreading := k.reading_ofString s
  rw [h] at hreading
  cases hreading with
  | bytes _ hlower => rw [display_ofBytes, hlower]
  | keyword hkeyword => exact absurd hhex.marked (not_marked_of_keyword (List.mem_map_of_mem hkeyword))
  | number hnumeral _ => exact absurd hhex.marked hnumeral.not_marked

theorem display_of_keyword (hkeyword : s ∈ k.keywords.map Prod.fst) : k.display id = s := by
  have hreading := k.reading_ofString s
  rw [h] at hreading
  cases hreading with
  | bytes hhex _ => exact absurd hhex.marked (not_marked_of_keyword hkeyword)
  | keyword hentry => exact (k.of_mem_keywords hentry).1
  | number hnumeral _ => exact absurd hnumeral (not_numeral_of_keyword hkeyword)

theorem display_of_isNumeral {ds : List Char} (hnumeral : IsNumeral s ds) :
    k.display id = toString (Nat.ofDigitChars 10 ds 0) := by
  have hreading := k.reading_ofString s
  rw [h] at hreading
  cases hreading with
  | bytes hhex _ => exact absurd hhex.marked hnumeral.not_marked
  | keyword hkeyword => exact absurd hnumeral (not_numeral_of_keyword (List.mem_map_of_mem hkeyword))
  | number hother hvalue =>
    rw [display_ofQuantity, hnumeral.digits_unique hother, hvalue]
    rfl

end Forms

/-- How a text is read as an identifier: which texts are, which errors the others give, and how what has
been read is written. -/
structure Reads (s : String) : Prop where
  accepted : (∃ id, k.ofString s = .ok id) ↔
    (∃ cs, Hex.IsHexText k.byteLength s cs) ∨ s ∈ k.keywords.map Prod.fst ∨
      ∃ ds, IsNumeral s ds ∧ Nat.ofDigitChars 10 ds 0 < UInt64.size
  invalidHex (hmark : ['0', 'x'] <+: s.toList) (hhex : ¬ ∃ cs, Hex.IsHexText k.byteLength s cs) :
    ∃ reason, k.ofString s = .error (.invalidHex k.name s reason)
  unrecognized (hmark : ¬ ['0', 'x'] <+: s.toList) {e : IdentifierError} (h : k.ofString s = .error e) :
    e = .unrecognized k.name s
  display_bytes {id : k.Value} (h : k.ofString s = .ok id) {cs : List Char}
    (hhex : Hex.IsHexText k.byteLength s cs) : k.display id = s.toLower
  display_keyword {id : k.Value} (h : k.ofString s = .ok id) (hkeyword : s ∈ k.keywords.map Prod.fst) :
    k.display id = s
  display_number {id : k.Value} (h : k.ofString s = .ok id) {ds : List Char} (hnumeral : IsNumeral s ds) :
    k.display id = toString (Nat.ofDigitChars 10 ds 0)

/-- For each `IdentifierKind`, `ofString` inverts `display`, and `Reads` determines `ofString` on every text:
which ones are accepted, the error of the others, and what `display` makes of the identifier. No text is
excluded; hex digits are accepted in both cases and displayed in lower case. -/
theorem read_as_written (k : IdentifierKind) :
    (∀ id : k.Value, k.ofString (k.display id) = .ok id) ∧
    Function.Injective k.display ∧
    ∀ s : String, k.Reads s := by
  refine ⟨k.ofString_display, k.display_injective, fun s => ?_⟩
  exact ⟨exists_ofString_iff, ofString_of_marked, error_of_not_marked, display_of_isHexText,
    display_of_keyword, display_of_isNumeral⟩

end IdentifierKind

end BeaconApi
