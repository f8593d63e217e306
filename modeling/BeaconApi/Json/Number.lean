import BeaconApi.Decimal.Shortest

namespace BeaconApi.Json

/-- A number. `negative` holds the magnitude of an integer below zero, and `float` the bits of a
finite floating-point number. -/
inductive Number
  | natural (n : UInt64)
  | negative (magnitude : UInt64)
  | float (bits : UInt64)
deriving DecidableEq, Repr, Inhabited

/-- The text of a number. -/
def Number.render : Number → String
  | .natural n => toString n.toNat
  | .negative magnitude => "-" ++ toString magnitude.toNat
  | .float bits => Decimal.renderBits bits

/-- What the digits of a numeral amount to: `± significand · 10 ^ scale`. The digits before the
point that no longer fit the significand only raise the scale; behind the point the first digit that
does not fit, and all after it, are dropped (`full`). `exponent` is the written exponent, of which
more than the largest signed 32-bit integer makes no difference. -/
structure Numeral where
  isNegative : Bool := false
  significand : Nat := 0
  scale : Int := 0
  full : Bool := false
  isInteger : Bool := true
  exponentNegative : Bool := false
  exponent : Nat := 0
deriving Inhabited

/-- The largest significand. -/
def Numeral.largest : Nat := UInt64.size - 1

/-- Take a digit before the point. -/
def Numeral.wholeDigit (n : Numeral) (digit : Nat) : Numeral :=
  if n.full ∨ Numeral.largest < n.significand * 10 + digit then
    { n with scale := n.scale + 1, full := true, isInteger := false }
  else { n with significand := n.significand * 10 + digit }

/-- Take the point. Digits behind it are counted anew. -/
def Numeral.point (n : Numeral) : Numeral :=
  { n with full := false, isInteger := false }

/-- Take a digit behind the point. -/
def Numeral.fractionDigit (n : Numeral) (digit : Nat) : Numeral :=
  if n.full ∨ Numeral.largest < n.significand * 10 + digit then { n with full := true }
  else { n with significand := n.significand * 10 + digit, scale := n.scale - 1 }

/-- Take a digit of the exponent. -/
def Numeral.exponentDigit (n : Numeral) (digit : Nat) : Numeral :=
  { n with exponent := min (n.exponent * 10 + digit) 2147483647, isInteger := false }

/-- The powers of ten that are floating-point numbers, each rounded to nearest. -/
def powersOfTen : Vector Float 309 := .ofFn fun exponent => .ofScientific 1 false exponent

/-- A power of ten as a floating-point number, rounded to nearest. -/
def powerOfTen (exponent : Nat) : Float :=
  if h : exponent < 309 then powersOfTen[exponent] else .ofScientific 1 false exponent

/-- Scale by a power of ten, rounding at each multiplication or division. Powers beyond the largest
floating-point number are reached in steps of it; the result must stay finite. -/
def scaleFloat (f : Float) (exponent : Int) : Option Float :=
  if 308 < exponent then (if f == 0.0 then some f else none)
  else if 0 ≤ exponent then
    let scaled := f * powerOfTen exponent.toNat
    if scaled.isInf then none else some scaled
  else if -308 ≤ exponent then some (f / powerOfTen (-exponent).toNat)
  else if f == 0.0 then some f
  else scaleFloat (f / powerOfTen 308) (exponent + 308)
termination_by (-exponent).toNat
decreasing_by omega

/-- The number that a numeral stands for, if it is in range. Zero with a minus sign is the
floating-point number of that name. -/
def Numeral.value? (n : Numeral) : Option Number :=
  if n.isInteger then
    if !n.isNegative then some (.natural (UInt64.ofNat n.significand))
    else if 0 < n.significand ∧ n.significand ≤ Nat.pow 2 63 then
      some (.negative (UInt64.ofNat n.significand))
    else some (.float (-(UInt64.ofNat n.significand).toFloat).toBits)
  else
    let power := n.scale + if n.exponentNegative then -(n.exponent : Int) else n.exponent
    (scaleFloat (UInt64.ofNat n.significand).toFloat power).map fun f =>
      .float (if n.isNegative then -f else f).toBits

end BeaconApi.Json
