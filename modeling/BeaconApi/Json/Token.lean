import BeaconApi.Text.Hex
import BeaconApi.Text.Utf8
import BeaconApi.Json.Document

namespace BeaconApi.Json

/-- What a string reader expects next: characters, the character after a backslash, or the digits of
a numbered character, of which the given ones have been read. -/
inductive StringMode
  | plain
  | escape
  | number (digits : List UInt8)

/-- A string under way. `content` holds the bytes of its value, last one first, or the first fault
that a reader of the value reports. `lead` is a leading surrogate whose partner has not come yet. -/
structure StringReader where
  mode : StringMode := .plain
  content : Except Fault (List UInt8) := .ok []
  lead : Option Nat := none

/-- What one byte does to a string: it goes on, it is whole, or the text breaks off. -/
inductive StringStep
  | more (r : StringReader)
  | whole (value : Except Fault String)
  | cut (stop : Break)

namespace StringReader

/-- Note a fault, unless one has been noted before. -/
def fail (r : StringReader) (fault : Fault) : StringReader :=
  match r.content with
  | .ok _ => { r with content := .error fault, lead := none }
  | .error _ => r

/-- A leading surrogate must be followed at once by its partner. -/
def unpaired (r : StringReader) : StringReader :=
  if r.lead.isSome then r.fail .unfinishedPair else r

/-- Append bytes to the value. -/
def push (r : StringReader) (bytes : List UInt8) : StringReader :=
  { r with content := r.content.map (bytes.reverse ++ ·) }

/-- The text breaks off with the given fault, unless the value already has one. -/
def cut (r : StringReader) (fault : Fault) : Break :=
  match r.content with
  | .ok _ => ⟨fault, fault⟩
  | .error first => ⟨first, fault⟩

/-- The value of a string that has come to its end. -/
def value (r : StringReader) : Except Fault String :=
  match r.unpaired.content with
  | .error fault => .error fault
  | .ok bytes =>
    match Utf8.decode? bytes.reverse with
    | some s => .ok s
    | none => .error .invalidCodePoint

/-- The byte that a two-character escape stands for. -/
def escaped? (byte : UInt8) : Option UInt8 :=
  if byte = 0x22 ∨ byte = 0x5c ∨ byte = 0x2f then some byte
  else if byte = 0x62 then some 0x08
  else if byte = 0x66 then some 0x0c
  else if byte = 0x6e then some 0x0a
  else if byte = 0x72 then some 0x0d
  else if byte = 0x74 then some 0x09
  else none

/-- The number that hexadecimal digits stand for. -/
def numberOf? (digits : List UInt8) : Option Nat :=
  digits.foldl (fun value byte => do return 16 * (← value) + (← Hex.value? byte)) (some 0)

/-- Take a numbered character. Surrogates come in pairs, a leading one first. -/
def unit (r : StringReader) (code : Nat) : StringReader :=
  match r.lead with
  | some lead =>
    if 0xdc00 ≤ code ∧ code ≤ 0xdfff then
      { r with lead := none }.push
        (Utf8.encode (Char.ofNat (0x10000 + (lead - 0xd800) * 0x400 + (code - 0xdc00))).toString)
    else r.fail .loneSurrogate
  | none =>
    if 0xdc00 ≤ code ∧ code ≤ 0xdfff then r.fail .loneSurrogate
    else if 0xd800 ≤ code ∧ code ≤ 0xdbff then
      match r.content with
      | .ok _ => { r with lead := some code }
      | .error _ => r
    else r.push (Utf8.encode (Char.ofNat code).toString)

/-- Take a byte outside escapes. -/
def feedPlain (r : StringReader) (byte : UInt8) : StringStep :=
  if byte = 0x5c then .more { r with mode := .escape }
  else if byte = 0x22 then .whole r.value
  else if byte < 0x20 then .cut (r.unpaired.cut .controlCharacter)
  else .more (r.unpaired.push [byte])

/-- Take the byte after a backslash. -/
def feedEscape (r : StringReader) (byte : UInt8) : StringStep :=
  if byte = 0x75 then .more { r with mode := .number [] }
  else
    match escaped? byte with
    | some plain => .more ({ r.unpaired with mode := .plain }.push [plain])
    | none => .cut (r.unpaired.cut .invalidEscape)

/-- Take a digit of a numbered character. The digits are looked at once there are four of them. -/
def feedNumber (r : StringReader) (digits : List UInt8) (byte : UInt8) : StringStep :=
  if digits.length < 3 then .more { r with mode := .number (digits ++ [byte]) }
  else
    match numberOf? (digits ++ [byte]) with
    | some code => .more ({ r with mode := .plain }.unit code)
    | none => .cut (r.cut .invalidEscape)

/-- Take the next byte. -/
def feed (r : StringReader) (byte : UInt8) : StringStep :=
  match r.mode with
  | .plain => r.feedPlain byte
  | .escape => r.feedEscape byte
  | .number digits => r.feedNumber digits byte

end StringReader

/-- How far a numeral has come. -/
inductive NumeralPhase
  | sign
  | zero
  | whole
  | point
  | fraction
  | exponentMark
  | exponentSign
  | exponent
deriving DecidableEq

/-- Whether a numeral may end here. -/
def NumeralPhase.mayEnd : NumeralPhase → Bool
  | .zero | .whole | .fraction | .exponent => true
  | .sign | .point | .exponentMark | .exponentSign => false

/-- A numeral under way. -/
structure NumeralReader where
  phase : NumeralPhase
  numeral : Numeral

/-- What one byte does to a numeral: it goes on, it ended before this byte, or the text breaks
off. -/
inductive NumeralStep
  | more (r : NumeralReader)
  | ended
  | cut

/-- The value of a decimal digit. -/
def byteDigit? (byte : UInt8) : Option Nat :=
  if 0x30 ≤ byte ∧ byte ≤ 0x39 then some (byte.toNat - 0x30) else none

namespace NumeralReader

/-- Begin a numeral with its first digit. A zero stands alone before the point. -/
def first (n : Numeral) (digit : Nat) : NumeralReader :=
  ⟨if digit = 0 then .zero else .whole, n.wholeDigit digit⟩

/-- Take a byte that is no digit, where the digits before the point or behind it may end. -/
def afterDigits (r : NumeralReader) (byte : UInt8) (mayPoint : Bool) : NumeralStep :=
  if byte = 0x2e ∧ mayPoint then .more ⟨.point, r.numeral.point⟩
  else if byte = 0x65 ∨ byte = 0x45 then
    .more ⟨.exponentMark, { r.numeral with isInteger := false }⟩
  else .ended

/-- Take the next byte. -/
def feed (r : NumeralReader) (byte : UInt8) : NumeralStep :=
  match r.phase, byteDigit? byte with
  | .sign, some digit => .more (first r.numeral digit)
  | .zero, some _ => .cut
  | .whole, some digit => .more ⟨.whole, r.numeral.wholeDigit digit⟩
  | .point, some digit | .fraction, some digit => .more ⟨.fraction, r.numeral.fractionDigit digit⟩
  | .exponentMark, some digit | .exponentSign, some digit | .exponent, some digit =>
    .more ⟨.exponent, r.numeral.exponentDigit digit⟩
  | .zero, none | .whole, none => r.afterDigits byte true
  | .fraction, none => r.afterDigits byte false
  | .exponentMark, none =>
    if byte = 0x2b then .more ⟨.exponentSign, r.numeral⟩
    else if byte = 0x2d then .more ⟨.exponentSign, { r.numeral with exponentNegative := true }⟩
    else .cut
  | .exponent, none => .ended
  | .sign, none | .point, none | .exponentSign, none => .cut

/-- The document that a whole numeral makes. -/
def document (r : NumeralReader) : Document :=
  match r.numeral.value? with
  | some n => .number n
  | none => .outOfRange

end NumeralReader

end BeaconApi.Json
