import BeaconApi.Wire.Decode

namespace BeaconApi

open Wire

/-- A type whose values travel as JSON of a fixed shape. Nothing of a value is lost on the way to
the shape. -/
class Payload (α : Type) where
  shape : Shape
  toCarrier : α → shape.Carrier
  ofCarrier : shape.Carrier → α
  ofCarrier_toCarrier (x : α) : ofCarrier (toCarrier x) = x

/-- The JSON value of something that is to be written, or the reason why it has none. -/
abbrev Written := Except String Json

namespace Payload

variable {α : Type} [Payload α]

/-- The JSON value of a payload. -/
def toJson (x : α) : Json := (shape α).encode (toCarrier x)

/-- The text of a payload. -/
def encode (x : α) : String := (toJson x).render

/-- Read a payload from a document. -/
def ofDocument (d : Json.Document) : Decoded α :=
  ((shape α).decode false Json.Document.maxDepth d).map ofCarrier

/-- Read a payload from a text. Only blanks may follow it. -/
def decode (bytes : ByteArray) : Decoded α :=
  let (d, trailing) := Json.Document.ofBytes bytes
  match ofDocument d with
  | .error e => .error e
  | .ok x => if trailing then .error (.malformed .trailingCharacters) else .ok x

end Payload

instance : Payload UInt64 where
  shape := .natural "u64"
  toCarrier := id
  ofCarrier := id
  ofCarrier_toCarrier _ := rfl

instance : Payload String where
  shape := .text
  toCarrier := id
  ofCarrier := id
  ofCarrier_toCarrier _ := rfl

instance : Payload Bool where
  shape := .flag
  toCarrier := id
  ofCarrier := id
  ofCarrier_toCarrier _ := rfl

instance : Payload Json where
  shape := .free
  toCarrier := id
  ofCarrier := id
  ofCarrier_toCarrier _ := rfl

open Payload (shape toCarrier ofCarrier ofCarrier_toCarrier)

instance {α : Type} [Payload α] : Payload (List α) where
  shape := .list (shape α)
  toCarrier := List.map toCarrier
  ofCarrier := List.map ofCarrier
  ofCarrier_toCarrier xs := by simp [Function.comp_def, ofCarrier_toCarrier]

/-- A payload under the key `data`, as most successful answers carry it. -/
structure Envelope (α : Type) where
  data : α
deriving DecidableEq, Repr

instance {α : Type} [Payload α] : Payload (Envelope α) where
  shape := .record "Envelope" (.required "data" (shape α) .nil)
  toCarrier e := (toCarrier e.data, ())
  ofCarrier := fun (x, ()) => ⟨ofCarrier x⟩
  ofCarrier_toCarrier e := by simp [ofCarrier_toCarrier]

end BeaconApi
