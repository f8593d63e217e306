import BeaconApi.Text.Decimal
import BeaconApi.Text.Hex
import BeaconApi.Json.Document

namespace BeaconApi.Wire

open Json (Fault)
open Json.Document (Kind)

/-- Why a text is not a value of the shape that was asked for. -/
inductive DecodeError
  | malformed (fault : Fault)
  | wrongKind (found : Kind) (expected : String)
  | negative (magnitude : UInt64) (expected : String)
  | wrongLength (length : Nat) (expected : String)
  | missingField (name : String)
  | duplicateField (name : String)
  | unknownName (name first second : String)
  | noShape (name : String)
  | decimal (e : DecimalError)
  | hex (e : HexError)
deriving DecidableEq, Repr

/-- How a message speaks of a value that has the wrong kind. -/
def describe : Kind → String
  | .null => "null"
  | .bool b => if b then "boolean `true`" else "boolean `false`"
  | .number (.float bits) => "floating point `" ++ Decimal.renderBits bits ++ "`"
  | .number n => "integer `" ++ n.render ++ "`"
  | .string s => "string " ++ Text.quote s
  | .list => "sequence"
  | .object => "map"

/-- The wording of a decode error. The JSON library adds ` at line N column M` to it, which a decode error of the
client and the message of a 400 carry as well. Positions in the text are not kept here, so this end is left out. -/
def DecodeError.message : DecodeError → String
  | .malformed fault => fault.message
  | .wrongKind found expected => "invalid type: " ++ describe found ++ ", expected " ++ expected
  | .negative magnitude expected =>
    "invalid value: integer `-" ++ toString magnitude.toNat ++ "`, expected " ++ expected
  | .wrongLength length expected =>
    "invalid length " ++ toString length ++ ", expected " ++ expected
  | .missingField name => "missing field `" ++ name ++ "`"
  | .duplicateField name => "duplicate field `" ++ name ++ "`"
  | .unknownName name first second =>
    "unknown variant `" ++ name ++ "`, expected `" ++ first ++ "` or `" ++ second ++ "`"
  | .noShape name => "data did not match any variant of untagged enum " ++ name
  | .decimal e => e.message
  | .hex e => e.message

end BeaconApi.Wire
