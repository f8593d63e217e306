import BeaconApi.Text.Unprintable

namespace BeaconApi.Text

/-- The number of a character in lowercase hexadecimal between braces, as in `\u{301}`. -/
def numberEscape (c : Char) : List Char :=
  '\\' :: 'u' :: '\x7b' :: Nat.toDigits 16 c.toNat ++ ['\x7d']

/-- What is written for a character between quotes of the kind `mark`. -/
def escapeFor (mark : Char) (c : Char) : List Char :=
  if c = '\x00' then ['\\', '0']
  else if c = '\t' then ['\\', 't']
  else if c = '\n' then ['\\', 'n']
  else if c = '\r' then ['\\', 'r']
  else if c = '\\' then ['\\', '\\']
  else if c = mark then ['\\', c]
  else if isUnprintable c then numberEscape c
  else [c]

/-- A text between double quotes. -/
def quote (s : String) : String :=
  String.ofList ('"' :: s.toList.flatMap (escapeFor '"') ++ ['"'])

/-- A character between single quotes. -/
def quoteChar (c : Char) : String :=
  String.ofList ('\x27' :: escapeFor '\x27' c ++ ['\x27'])

/-- Quoted texts between brackets, with a comma between them. -/
def quoteList (texts : List String) : String :=
  "[" ++ ", ".intercalate (texts.map quote) ++ "]"

/-- Pairs of a quoted key and a written value between braces, with a comma between them. -/
def quoteMap (entries : List (String × String)) : String :=
  "\x7b" ++ ", ".intercalate (entries.map fun (key, value) => quote key ++ ": " ++ value) ++ "\x7d"

/-- A record as messages show it: its name and its written fields between braces. -/
def describeRecord (name : String) (fields : List (String × String)) : String :=
  name ++ " \x7b "
    ++ ", ".intercalate (fields.map fun (key, value) => key ++ ": " ++ value) ++ " \x7d"

/-- A record of which only some fields are shown. -/
def describePart (name : String) (fields : List (String × String)) : String :=
  name ++ " \x7b " ++ String.join (fields.map fun (key, value) => key ++ ": " ++ value ++ ", ")
    ++ ".. \x7d"

end BeaconApi.Text
