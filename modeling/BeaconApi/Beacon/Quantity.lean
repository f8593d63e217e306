import BeaconApi.Wire.Payload

namespace BeaconApi

/-- What an integer measures. -/
inductive Measure
  | slot
  | epoch
  | validatorIndex
  | committeeIndex
  | gwei
  | timestamp
deriving DecidableEq, Repr

/-- The name of a measure. -/
def Measure.name : Measure → String
  | .slot => "Slot"
  | .epoch => "Epoch"
  | .validatorIndex => "ValidatorIndex"
  | .committeeIndex => "CommitteeIndex"
  | .gwei => "Gwei"
  | .timestamp => "Timestamp"

/-- An integer that measures one thing. -/
structure Quantity (m : Measure) where
  val : UInt64
deriving DecidableEq, Repr

abbrev Slot := Quantity .slot
abbrev Epoch := Quantity .epoch
abbrev ValidatorIndex := Quantity .validatorIndex
abbrev CommitteeIndex := Quantity .committeeIndex
/-- An amount in gwei. -/
abbrev Gwei := Quantity .gwei
/-- Seconds since the beginning of 1970. -/
abbrev Timestamp := Quantity .timestamp

namespace Quantity

variable {m : Measure}

instance : Inhabited (Quantity m) := ⟨⟨0⟩⟩

/-- The decimal text of an integer. -/
def display (q : Quantity m) : String := toString q.val.toNat

/-- The text of an integer together with the name of its measure. -/
def describe (q : Quantity m) : String := m.name ++ "(" ++ q.display ++ ")"

/-- Read an integer from decimal text. -/
def ofString (s : String) : Except DecimalError (Quantity m) := (readUInt64 s).map (⟨·⟩)

instance : Payload (Quantity m) where
  shape := .quoted
  toCarrier q := q.val
  ofCarrier n := ⟨n⟩
  ofCarrier_toCarrier _ := rfl

end Quantity

end BeaconApi
