import BeaconApi.Text.Quoted

namespace BeaconApi

/-- The ways in which a text can fail to be a byte string of the expected length. -/
inductive HexError
  | missingMark
  | oddLength
  | wrongLength
  | invalidDigit (byte : UInt8) (position : Nat)
deriving DecidableEq, Repr

/-- The wording of a hexadecimal error. -/
def HexError.message : HexError → String
  | .missingMark => "missing 0x prefix"
  | .oddLength => "Odd number of digits"
  | .wrongLength => "Invalid string length"
  | .invalidDigit byte position =>
    "Invalid character " ++ Text.quoteChar (Char.ofNat byte.toNat) ++ " at position "
      ++ toString position

namespace Hex

/-- The lowercase digit of a value below sixteen. -/
def digit (value : Nat) : Char :=
  if value < 10 then Char.ofNat ('0'.toNat + value) else Char.ofNat ('a'.toNat + (value - 10))

/-- The value of a digit of either case. -/
def value? (byte : UInt8) : Option Nat :=
  if 0x30 ≤ byte ∧ byte ≤ 0x39 then some (byte.toNat - 0x30)
  else if 0x61 ≤ byte ∧ byte ≤ 0x66 then some (byte.toNat - 0x61 + 10)
  else if 0x41 ≤ byte ∧ byte ≤ 0x46 then some (byte.toNat - 0x41 + 10)
  else none

/-- The two digits of a byte, high half first. -/
def pair (byte : UInt8) : List Char :=
  [digit (byte.toNat / 16), digit (byte.toNat % 16)]

/-- The digits of a byte string. -/
def digits (bytes : List UInt8) : List Char :=
  bytes.flatMap pair

/-- Read digits two at a time; `position` counts the digits before them. The first digit that is
none of the sixteen is reported. -/
def readPairs (position : Nat) : List UInt8 → Except HexError (List UInt8)
  | high :: low :: rest =>
    match value? high with
    | none => .error (.invalidDigit high position)
    | some h =>
      match value? low with
      | none => .error (.invalidDigit low (position + 1))
      | some l => (readPairs (position + 2) rest).map (UInt8.ofNat (16 * h + l) :: ·)
  | _ => .ok []

/-- The bytes of a text behind the mark `0x`. -/
def afterMark? : List UInt8 → Option (List UInt8)
  | 0x30 :: 0x78 :: rest => some rest
  | _ => none

/-- Read the bytes that the digits behind the mark stand for. -/
def readBytes (length : Nat) (s : String) : Except HexError (Vector UInt8 length) :=
  match afterMark? s.toUTF8.data.toList with
  | none => .error .missingMark
  | some text =>
    if text.length % 2 = 1 then .error .oddLength
    else if text.length / 2 ≠ length then .error .wrongLength
    else do
      let bytes ← readPairs 0 text
      if h : bytes.length = length then .ok ⟨bytes.toArray, bytes.size_toArray.trans h⟩
      else .error .wrongLength

end Hex

end BeaconApi
