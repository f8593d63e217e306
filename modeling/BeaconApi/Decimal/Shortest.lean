namespace BeaconApi.Decimal

/-- The magnitude of a finite floating-point number, `mantissa · 2 ^ exponent`. It is `narrow` where
the number below it is only half as far away as the number above it. -/
structure Magnitude where
  mantissa : Nat
  exponent : Int
  narrow : Bool

/-- The magnitude that the lower 63 bits stand for. -/
def Magnitude.ofBits (bits : UInt64) : Magnitude :=
  let fraction := bits.toNat % Nat.pow 2 52
  let biased : Nat := bits.toNat / Nat.pow 2 52 % Nat.pow 2 11
  if biased = 0 then ⟨fraction, -1074, false⟩
  else ⟨fraction + Nat.pow 2 52, (biased : Int) - 1075, fraction = 0 ∧ 1 < biased⟩

/-- A point of a decimal grid, `digits · 10 ^ exponent`. -/
structure Point where
  digits : Nat
  exponent : Int
deriving DecidableEq, Repr

/-- The point of the grid of spacing `10 ^ k` that stands for the number, if there is one. Of two
such points the nearer is taken, and of two equally near ones the even one. The comparison is made
in quarters of a unit of the mantissa, scaled so that all quantities are whole. -/
def Magnitude.onGrid (v : Magnitude) (k : Int) : Option Point :=
  let quarter := v.exponent - 2
  let scale := Nat.pow 2 quarter.toNat * Nat.pow 10 (-k).toNat
  let unit := Nat.pow 10 k.toNat * Nat.pow 2 (-quarter).toNat
  let value := 4 * v.mantissa * scale
  let low := (4 * v.mantissa - if v.narrow then 1 else 2) * scale
  let high := (4 * v.mantissa + 2) * scale
  let inside (n : Nat) : Bool :=
    if v.mantissa % 2 = 0 then low ≤ n * unit ∧ n * unit ≤ high
    else low < n * unit ∧ n * unit < high
  let below := value / unit
  let above := below + 1
  match inside below, inside above with
  | true, true =>
    let down := value - below * unit
    let up := above * unit - value
    if down < up ∨ (down = up ∧ below % 2 = 0) then some ⟨below, k⟩ else some ⟨above, k⟩
  | true, false => some ⟨below, k⟩
  | false, true => some ⟨above, k⟩
  | false, false => none

/-- Whether a power of ten lies at or below a magnitude. -/
def Magnitude.reaches (v : Magnitude) (k : Int) : Bool :=
  Nat.pow 10 k.toNat * Nat.pow 2 (-v.exponent).toNat
    ≤ v.mantissa * Nat.pow 2 v.exponent.toNat * Nat.pow 10 (-k).toNat

/-- The power of ten at or below a positive magnitude. As `2` is `10 ^ 0.30103` to five places, the
power of two at or below it tells that power up to one. -/
def Magnitude.order (v : Magnitude) : Int :=
  let guess := (v.mantissa.log2 + v.exponent) * 30103 / 100000
  if v.reaches (guess + 1) then guess + 1
  else if v.reaches guess then guess
  else guess - 1

/-- The first grid with a point for the number, among those that give it `count` digits or more. -/
def Magnitude.firstPoint (v : Magnitude) (order : Int) : Nat → Nat → Point
  | 0, _ => ⟨v.mantissa, v.exponent⟩
  | fuel + 1, count =>
    match v.onGrid (order + 1 - count) with
    | some point => point
    | none => v.firstPoint order fuel (count + 1)

/-- The shortest decimal that reads back as the number. Seventeen digits always suffice. -/
def Magnitude.shortest (v : Magnitude) : Point :=
  v.firstPoint v.order 17 1

/-- How the exponent of a number in scientific form is written: with its sign, even when it is
positive. -/
def renderExponent (e : Int) : String :=
  (if e < 0 then "e-" else "e+") ++ toString e.natAbs

/-- Write a decimal. Numbers from `10 ^ -5` up to below `10 ^ 16` are written positionally with at
least one decimal place, all others with one digit before the point and an exponent. -/
def Point.render (p : Point) : String :=
  let digits := (toString p.digits).toList
  let order : Int := p.exponent + digits.length - 1
  let text : List Char :=
    if -5 ≤ order ∧ order < 16 then
      if order < 0 then
        '0' :: '.' :: List.replicate (-order - 1).toNat '0' ++ digits
      else if digits.length ≤ order.toNat + 1 then
        digits ++ List.replicate (order.toNat + 1 - digits.length) '0' ++ ['.', '0']
      else
        digits.take (order.toNat + 1) ++ '.' :: digits.drop (order.toNat + 1)
    else
      let tail := digits.drop 1
      digits.take 1 ++ (if tail.isEmpty then [] else '.' :: tail) ++ (renderExponent order).toList
  String.ofList text

/-- Drop the zeros at the end of the digits. -/
def Point.strip (p : Point) : Nat → Point
  | 0 => p
  | fuel + 1 =>
    if p.digits ≠ 0 ∧ p.digits % 10 = 0 then
      Point.strip ⟨p.digits / 10, p.exponent + 1⟩ fuel
    else p

/-- The text of a finite floating-point number, given by its bits. -/
def renderBits (bits : UInt64) : String :=
  let v := Magnitude.ofBits bits
  let text := if v.mantissa = 0 then "0.0" else (v.shortest.strip 17).render
  if bits.toNat < Nat.pow 2 63 then text else "-" ++ text

end BeaconApi.Decimal
