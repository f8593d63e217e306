namespace BeaconApi

/-- The ways in which a text can fail to be an unsigned 64-bit integer. -/
inductive DecimalError
  | empty
  | invalidDigit
  | tooLarge
deriving DecidableEq, Repr

/-- The wording of a decimal error. -/
def DecimalError.message : DecimalError → String
  | .empty => "cannot parse integer from empty string"
  | .invalidDigit => "invalid digit found in string"
  | .tooLarge => "number too large to fit in target type"

/-- The value of a decimal digit. -/
def digitValue? (c : Char) : Option Nat :=
  if '0' ≤ c ∧ c ≤ '9' then some (c.toNat - '0'.toNat) else none

/-- Read digits onto the value of those before them, refusing to leave the range below `bound`. -/
def readDigits (bound : Nat) : Nat → List Char → Except DecimalError Nat
  | value, [] => .ok value
  | value, c :: rest =>
    match digitValue? c with
    | none => .error .invalidDigit
    | some digit =>
      if value * 10 + digit < bound then readDigits bound (value * 10 + digit) rest
      else .error .tooLarge

/-- The digits of a decimal text after its optional plus sign. A lone sign is no number. -/
def decimalDigits : List Char → Except DecimalError (List Char)
  | [] => .error .empty
  | ['+'] => .error .invalidDigit
  | '+' :: digits => .ok digits
  | digits => .ok digits

/-- Read an unsigned 64-bit integer. -/
def readUInt64 (s : String) : Except DecimalError UInt64 := do
  let digits ← decimalDigits s.toList
  let value ← readDigits UInt64.size 0 digits
  return UInt64.ofNat value

end BeaconApi
