import BeaconApi.Json.Number

namespace BeaconApi

/-- A JSON value. -/
inductive Json
  | null
  | bool (b : Bool)
  | number (n : Json.Number)
  | string (s : String)
  | array (items : List Json)
  | object (members : List (String × Json))
deriving Inhabited

namespace Json

/-- Of neighbouring members with one key only the last is kept. -/
def keepLast : List (String × Json) → List (String × Json) → List (String × Json)
  | kept, [] => kept.reverse
  | kept, [m] => (m :: kept).reverse
  | kept, m :: next :: rest =>
    if m.1 = next.1 then keepLast kept (next :: rest) else keepLast (m :: kept) (next :: rest)

/-- The object of the given members, with its keys in order. Where a key is repeated, the last of
its values stands. -/
def ofMembers (members : List (String × Json)) : Json :=
  .object (keepLast [] (members.mergeSort fun a b => a.1 ≤ b.1))

/-- The value of a key. -/
def get? (key : String) : Json → Option Json
  | .object members => members.lookup key
  | _ => none

/-- A natural number as a value. -/
def ofNat (n : Nat) : Json := .number (.natural (UInt64.ofNat n))

/-- What is written for a character of a string. -/
def escape (c : Char) : List Char :=
  if c = '"' then ['\\', '"']
  else if c = '\\' then ['\\', '\\']
  else if 0x20 ≤ c.toNat then [c]
  else if c = '\x08' then ['\\', 'b']
  else if c = '\x0c' then ['\\', 'f']
  else if c = '\n' then ['\\', 'n']
  else if c = '\r' then ['\\', 'r']
  else if c = '\t' then ['\\', 't']
  else '\\' :: 'u' :: '0' :: '0' :: [Nat.digitChar (c.toNat / 16), Nat.digitChar (c.toNat % 16)]

/-- Write characters at the end of a text. -/
def pushAll (out : String) (cs : List Char) : String :=
  cs.foldl String.push out

/-- Write a string between quotes at the end of a text. -/
def writeString (out : String) (s : String) : String :=
  (s.toList.foldl (fun out c => pushAll out (escape c)) (out.push '"')).push '"'

mutual

/-- Write a value at the end of a text, without any blank. -/
def write (out : String) : Json → String
  | .null => out ++ "null"
  | .bool true => out ++ "true"
  | .bool false => out ++ "false"
  | .number n => out ++ n.render
  | .string s => writeString out s
  | .array [] => out ++ "[]"
  | .array (item :: items) => (writeItems (write (out.push '[') item) items).push ']'
  | .object [] => out ++ "\x7b\x7d"
  | .object ((key, value) :: members) =>
    (writeMembers (write ((writeString (out.push '\x7b') key).push ':') value) members).push '\x7d'

/-- Write the further items of an array. -/
def writeItems (out : String) : List Json → String
  | [] => out
  | item :: items => writeItems (write (out.push ',') item) items

/-- Write the further members of an object. -/
def writeMembers (out : String) : List (String × Json) → String
  | [] => out
  | (key, value) :: members =>
    writeMembers (write ((writeString (out.push ',') key).push ':') value) members

end

/-- The compact text of a value. -/
def render (j : Json) : String := write "" j

end Json

end BeaconApi
