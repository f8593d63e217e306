namespace BeaconApi.Utf8

/-- The character that stands for bytes that are not UTF-8. -/
def replacement : Char := '\ufffd'

/-- A character of which some bytes are still to come. `value` holds the bits read so far, `missing`
counts the bytes owed, and the next one must lie between `low` and `high`. -/
structure Pending where
  value : Nat
  missing : Nat
  low : UInt8
  high : UInt8

/-- What the first byte of a character promises: the character itself, a character to be completed,
or nothing. -/
def start (byte : UInt8) : Except (Option Pending) Char :=
  if byte < 0x80 then .ok (Char.ofNat byte.toNat)
  else if byte < 0xc2 then .error none
  else if byte < 0xe0 then .error (some ⟨byte.toNat - 0xc0, 1, 0x80, 0xbf⟩)
  else if byte = 0xe0 then .error (some ⟨0, 2, 0xa0, 0xbf⟩)
  else if byte = 0xed then .error (some ⟨0xd, 2, 0x80, 0x9f⟩)
  else if byte < 0xf0 then .error (some ⟨byte.toNat - 0xe0, 2, 0x80, 0xbf⟩)
  else if byte = 0xf0 then .error (some ⟨0, 3, 0x90, 0xbf⟩)
  else if byte < 0xf4 then .error (some ⟨byte.toNat - 0xf0, 3, 0x80, 0xbf⟩)
  else if byte = 0xf4 then .error (some ⟨4, 3, 0x80, 0x8f⟩)
  else .error none

/-- The characters read so far, last one first, and the one that is under way. -/
structure Reader where
  text : List Char
  pending : Option Pending

/-- Read a byte that follows no unfinished character. -/
def Reader.begin (text : List Char) (byte : UInt8) : Reader :=
  match start byte with
  | .ok c => ⟨c :: text, none⟩
  | .error (some pending) => ⟨text, some pending⟩
  | .error none => ⟨replacement :: text, none⟩

/-- Read one more byte. A byte that does not continue the unfinished character begins anew. -/
def Reader.feed (r : Reader) (byte : UInt8) : Reader :=
  match r.pending with
  | none => Reader.begin r.text byte
  | some p =>
    if p.low ≤ byte ∧ byte ≤ p.high then
      let value := p.value * 64 + (byte.toNat - 0x80)
      if p.missing = 1 then ⟨Char.ofNat value :: r.text, none⟩
      else ⟨r.text, some ⟨value, p.missing - 1, 0x80, 0xbf⟩⟩
    else Reader.begin (replacement :: r.text) byte

/-- The text read. A character that never became complete counts as one replacement. -/
def Reader.finish (r : Reader) : List Char :=
  match r.pending with
  | none => r.text.reverse
  | some _ => (replacement :: r.text).reverse

/-- Read bytes as text, with replacements for what is not UTF-8. -/
def decodeLossy (bytes : List UInt8) : String :=
  String.ofList (bytes.foldl Reader.feed ⟨[], none⟩).finish

/-- Read bytes as text, if all of them are UTF-8. -/
def decode? (bytes : List UInt8) : Option String :=
  String.fromUTF8? (ByteArray.mk bytes.toArray)

/-- The bytes of a text. -/
def encode (s : String) : List UInt8 :=
  s.toUTF8.data.toList

theorem decode?_encode (s : String) : decode? (encode s) = some s := by
  cases s with
  | ofByteArray bytes valid =>
    simp [decode?, encode, String.fromUTF8?, valid, String.fromUTF8]

end BeaconApi.Utf8
