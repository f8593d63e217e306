import BeaconApi.Wire.Payload

namespace BeaconApi

/-- A byte string of a fixed length. -/
structure Bytes (length : Nat) where
  val : Vector UInt8 length
deriving DecidableEq

/-- A hash tree root. -/
abbrev Root := Bytes 32
/-- A fork version. -/
abbrev Version := Bytes 4
abbrev BlsPubkey := Bytes 48
abbrev BlsSignature := Bytes 96

namespace Bytes

variable {n : Nat}

/-- All bytes are zero. -/
def zero : Bytes n := ⟨Vector.replicate n 0⟩

instance : Inhabited (Bytes n) := ⟨zero⟩

/-- The bytes in order. -/
def toList (b : Bytes n) : List UInt8 := b.val.toList

/-- The text of a byte string. -/
def display (b : Bytes n) : String := Wire.hexText b.toList

/-- Read a byte string from its text. Digits of either case are accepted. -/
def ofString (s : String) : Except HexError (Bytes n) :=
  (Hex.readBytes n s).map (⟨·⟩)

/-- Byte strings are compared byte by byte, the first difference deciding. -/
def le (a b : Bytes n) : Bool := a.toList ≤ b.toList

instance : Payload (Bytes n) where
  shape := .bytes n
  toCarrier b := b.val
  ofCarrier v := ⟨v⟩
  ofCarrier_toCarrier _ := rfl

end Bytes

end BeaconApi
