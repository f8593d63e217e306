import BeaconApi.Json.Basic
import BeaconApi.Text.Hex

namespace BeaconApi.Wire

/-- One of two names. -/
inductive Branch
  | first
  | second
deriving DecidableEq, Repr, Inhabited

/-- The one of two values that a branch stands for. -/
def Branch.choose {α : Type} (first second : α) : Branch → α
  | .first => first
  | .second => second

mutual

/-- The shape of a value.

* `quoted`: an unsigned 64-bit integer, written as a decimal string.
* `natural`: an unsigned 64-bit integer, written as a number.
* `bytes`: as many bytes, written in hexadecimal.
* `text`, `flag`, `free`: a string, a truth value, any JSON value.
* `list`: any number of values of one shape.
* `record`: named fields.
* `merged`: the fields of one record and a field of its own, side by side.
* `choice`: one of two names.
* `either`: a value of one of two shapes; the first is preferred.
* `tagged`: a value of one of two shapes, beside the name of its shape. -/
inductive Shape
  | quoted
  | natural (expected : String)
  | bytes (length : Nat)
  | text
  | flag
  | free
  | list (item : Shape)
  | record (name : String) (fields : Fields)
  | merged (name : String) (fields : Fields) (key : String) (own : Shape)
  | choice (first second : String)
  | either (name : String) (first second : Shape)
  | tagged (name tagKey contentKey firstTag secondTag : String) (first second : Shape)

/-- The fields of a record, in the order in which they are written. An optional field is left out
when it has no value. -/
inductive Fields
  | nil
  | required (name : String) (shape : Shape) (rest : Fields)
  | optional (name : String) (shape : Shape) (rest : Fields)

end

mutual

/-- The values of a shape. -/
@[reducible] def Shape.Carrier : Shape → Type
  | .quoted => UInt64
  | .natural _ => UInt64
  | .bytes length => Vector UInt8 length
  | .text => String
  | .flag => Bool
  | .free => Json
  | .list item => List item.Carrier
  | .record _ fields => fields.Carrier
  | .merged _ fields _ own => fields.Carrier × own.Carrier
  | .choice _ _ => Branch
  | .either _ first second => first.Carrier ⊕ second.Carrier
  | .tagged _ _ _ _ _ first second => first.Carrier ⊕ second.Carrier

/-- The values of a list of fields. -/
@[reducible] def Fields.Carrier : Fields → Type
  | .nil => Unit
  | .required _ shape rest => shape.Carrier × rest.Carrier
  | .optional _ shape rest => Option shape.Carrier × rest.Carrier

end

/-- How many fields there are. -/
def Fields.count : Fields → Nat
  | .nil => 0
  | .required _ _ rest | .optional _ _ rest => rest.count + 1

/-- The names of the fields. -/
def Fields.names : Fields → List String
  | .nil => []
  | .required name _ rest | .optional name _ rest => name :: rest.names

/-- The text of a byte string: the mark `0x` and two lowercase digits for each byte. -/
def hexText (bytes : List UInt8) : String :=
  String.ofList ('0' :: 'x' :: Hex.digits bytes)

mutual

/-- Write a value of a shape. -/
def Shape.encode : (s : Shape) → s.Carrier → Json
  | .quoted, n => .string (toString n.toNat)
  | .natural _, n => .number (.natural n)
  | .bytes _, v => .string (hexText v.toList)
  | .text, s => .string s
  | .flag, b => .bool b
  | .free, j => j
  | .list item, xs => .array (xs.map item.encode)
  | .record _ fields, x => .object (fields.members x)
  | .merged _ fields key own, (x, y) => .object (fields.members x ++ [(key, own.encode y)])
  | .choice first second, b => .string (b.choose first second)
  | .either _ first _, .inl x => first.encode x
  | .either _ _ second, .inr y => second.encode y
  | .tagged _ tagKey contentKey firstTag _ first _, .inl x =>
    .object [(tagKey, .string firstTag), (contentKey, first.encode x)]
  | .tagged _ tagKey contentKey _ secondTag _ second, .inr y =>
    .object [(tagKey, .string secondTag), (contentKey, second.encode y)]

/-- Write the values of fields as members. -/
def Fields.members : (fs : Fields) → fs.Carrier → List (String × Json)
  | .nil, () => []
  | .required name shape rest, (x, xs) => (name, shape.encode x) :: rest.members xs
  | .optional name shape rest, (some x, xs) => (name, shape.encode x) :: rest.members xs
  | .optional _ _ rest, (none, xs) => rest.members xs

end

end BeaconApi.Wire
