import BeaconApi.Json.Token

namespace BeaconApi.Json

/-- A list or an object that is open, with what has been read of it, last one first. -/
inductive Frame
  | list (items : List Document)
  | object (members : List (Except Fault String × Document)) (name : Except Fault String)

/-- Where the reading of a text stands.

* `value`: a value has to come.
* `listOpen`, `listNext`, `listMore`: after an opening bracket, after an item, after a comma.
* `objectOpen`, `objectNext`, `objectMore`: after an opening brace, after a member, after a comma.
* `key`, `colon`: within a key, and behind it.
* `string`, `numeral`, `word`: within a scalar. A word has its remaining bytes and its value.
* `done`, `trailing`: after the value, without and with other characters behind it.
* `broken`: behind the place where the text breaks off. -/
inductive Scan
  | value (around : List Frame)
  | listOpen (around : List Frame)
  | listNext (items : List Document) (around : List Frame)
  | listMore (items : List Document) (around : List Frame)
  | objectOpen (around : List Frame)
  | objectNext (members : List (Except Fault String × Document)) (around : List Frame)
  | objectMore (members : List (Except Fault String × Document)) (around : List Frame)
  | key (reader : StringReader) (members : List (Except Fault String × Document))
      (around : List Frame)
  | colon (name : Except Fault String) (members : List (Except Fault String × Document))
      (around : List Frame)
  | string (reader : StringReader) (around : List Frame)
  | numeral (reader : NumeralReader) (around : List Frame)
  | word (rest : List UInt8) (meaning : Document) (around : List Frame)
  | done (d : Document)
  | trailing (d : Document)
  | broken (d : Document)

namespace Scan

/-- The whole outline of a text that breaks off: the part that breaks off, within what is open
around it. -/
def enclose (stop : Break) (d : Document) : List Frame → Document
  | [] => d
  | .list items :: rest => enclose stop (.list (d :: items).reverse (some stop)) rest
  | .object members name :: rest =>
    enclose stop (.object ((name, d) :: members).reverse (some stop)) rest

/-- The text breaks off in a scalar, or where a value should stand. -/
def cutAt (make : Break → Document) (stop : Break) (around : List Frame) : Scan :=
  .broken (enclose stop (make stop) around)

/-- The text breaks off in a list, outside its items. -/
def cutList (stop : Break) (items : List Document) (around : List Frame) : Scan :=
  .broken (enclose stop (.list items.reverse (some stop)) around)

/-- The text breaks off in an object, outside its members. -/
def cutObject (stop : Break) (members : List (Except Fault String × Document))
    (around : List Frame) : Scan :=
  .broken (enclose stop (.object members.reverse (some stop)) around)

/-- A whole value has been read. -/
def complete (d : Document) : List Frame → Scan
  | [] => .done d
  | .list items :: rest => .listNext (d :: items) rest
  | .object members name :: rest => .objectNext ((name, d) :: members) rest

/-- The blanks between tokens. -/
def isBlank (byte : UInt8) : Bool :=
  byte = 0x20 || byte = 0x09 || byte = 0x0a || byte = 0x0d

/-- Begin a value with its first byte. -/
def begin (byte : UInt8) (around : List Frame) : Scan :=
  if byte = 0x22 then .string {} around
  else if byte = 0x2d then .numeral ⟨.sign, { isNegative := true }⟩ around
  else if byte = 0x6e then .word [0x75, 0x6c, 0x6c] .null around
  else if byte = 0x74 then .word [0x72, 0x75, 0x65] (.bool true) around
  else if byte = 0x66 then .word [0x61, 0x6c, 0x73, 0x65] (.bool false) around
  else if byte = 0x5b then .listOpen around
  else if byte = 0x7b then .objectOpen around
  else
    match byteDigit? byte with
    | some digit => .numeral (.first {} digit) around
    | none => cutAt .malformed (.same .valueExpected) around

/-- Take a byte where a value has to come. -/
def feedValue (byte : UInt8) (around : List Frame) : Scan :=
  if isBlank byte then .value around else begin byte around

/-- Take a byte after an opening bracket. -/
def feedListOpen (byte : UInt8) (around : List Frame) : Scan :=
  if isBlank byte then .listOpen around
  else if byte = 0x5d then complete (.list [] none) around
  else begin byte (.list [] :: around)

/-- Take a byte after an item. -/
def feedListNext (byte : UInt8) (items : List Document) (around : List Frame) : Scan :=
  if isBlank byte then .listNext items around
  else if byte = 0x5d then complete (.list items.reverse none) around
  else if byte = 0x2c then .listMore items around
  else cutList (.same .listEndExpected) items around

/-- Take a byte after the comma behind an item. -/
def feedListMore (byte : UInt8) (items : List Document) (around : List Frame) : Scan :=
  if isBlank byte then .listMore items around
  else if byte = 0x5d then cutList ⟨.trailingComma, .valueExpected⟩ items around
  else begin byte (.list items :: around)

/-- Take a byte after an opening brace. -/
def feedObjectOpen (byte : UInt8) (around : List Frame) : Scan :=
  if isBlank byte then .objectOpen around
  else if byte = 0x7d then complete (.object [] none) around
  else if byte = 0x22 then .key {} [] around
  else cutObject (.same .keyExpected) [] around

/-- Take a byte after a member. -/
def feedObjectNext (byte : UInt8) (members : List (Except Fault String × Document))
    (around : List Frame) : Scan :=
  if isBlank byte then .objectNext members around
  else if byte = 0x7d then complete (.object members.reverse none) around
  else if byte = 0x2c then .objectMore members around
  else cutObject (.same .objectEndExpected) members around

/-- Take a byte after the comma behind a member. -/
def feedObjectMore (byte : UInt8) (members : List (Except Fault String × Document))
    (around : List Frame) : Scan :=
  if isBlank byte then .objectMore members around
  else if byte = 0x22 then .key {} members around
  else if byte = 0x7d then cutObject ⟨.trailingComma, .keyExpected⟩ members around
  else cutObject (.same .keyExpected) members around

/-- Take a byte within a key. -/
def feedKey (byte : UInt8) (reader : StringReader)
    (members : List (Except Fault String × Document)) (around : List Frame) : Scan :=
  match reader.feed byte with
  | .more reader => .key reader members around
  | .whole name => .colon name members around
  | .cut stop => cutObject stop members around

/-- Take a byte behind a key. -/
def feedColon (byte : UInt8) (name : Except Fault String)
    (members : List (Except Fault String × Document)) (around : List Frame) : Scan :=
  if isBlank byte then .colon name members around
  else if byte = 0x3a then .value (.object members name :: around)
  else cutAt .absent (.same .colonExpected) (.object members name :: around)

/-- Take a byte within a string. -/
def feedString (byte : UInt8) (reader : StringReader) (around : List Frame) : Scan :=
  match reader.feed byte with
  | .more reader => .string reader around
  | .whole (.ok s) => complete (.string s) around
  | .whole (.error fault) => complete (.unreadable fault) around
  | .cut stop => cutAt .cutString stop around

/-- Take a byte behind the value. -/
def feedDone (byte : UInt8) (d : Document) : Scan :=
  if isBlank byte then .done d else .trailing d

/-- Take a byte that follows a whole value. -/
def feedAfter (byte : UInt8) : Scan → Scan
  | .listNext items around => feedListNext byte items around
  | .objectNext members around => feedObjectNext byte members around
  | .done d => feedDone byte d
  | s => s

/-- Take a byte within a numeral. The byte that ends a numeral is not part of it. -/
def feedNumeral (byte : UInt8) (reader : NumeralReader) (around : List Frame) : Scan :=
  match reader.feed byte with
  | .more reader => .numeral reader around
  | .ended => feedAfter byte (complete reader.document around)
  | .cut => cutAt .malformed (.same .invalidNumber) around

/-- Take a byte within a word. -/
def feedWord (byte : UInt8) (rest : List UInt8) (meaning : Document) (around : List Frame) : Scan :=
  match rest with
  | [] => complete meaning around
  | next :: rest =>
    if byte ≠ next then cutAt .malformed (.same .identExpected) around
    else if rest.isEmpty then complete meaning around
    else .word rest meaning around

/-- Take the next byte of a text. -/
def feed (s : Scan) (byte : UInt8) : Scan :=
  match s with
  | .value around => feedValue byte around
  | .listOpen around => feedListOpen byte around
  | .listNext items around => feedListNext byte items around
  | .listMore items around => feedListMore byte items around
  | .objectOpen around => feedObjectOpen byte around
  | .objectNext members around => feedObjectNext byte members around
  | .objectMore members around => feedObjectMore byte members around
  | .key reader members around => feedKey byte reader members around
  | .colon name members around => feedColon byte name members around
  | .string reader around => feedString byte reader around
  | .numeral reader around => feedNumeral byte reader around
  | .word rest meaning around => feedWord byte rest meaning around
  | .done d => feedDone byte d
  | .trailing d => .trailing d
  | .broken d => .broken d

/-- The text ends. -/
def finish : Scan → Scan
  | .value around => cutAt .absent (.same .endInValue) around
  | .listOpen around => cutList (.same .endInList) [] around
  | .listNext items around => cutList (.same .endInList) items around
  | .listMore items around => cutAt .absent (.same .endInValue) (.list items :: around)
  | .objectOpen around => cutObject (.same .endInObject) [] around
  | .objectNext members around => cutObject (.same .endInObject) members around
  | .objectMore members around => cutObject ⟨.endInValue, .endInObject⟩ members around
  | .key reader members around => cutObject (reader.cut .endInString) members around
  | .colon name members around =>
    cutAt .absent (.same .endInObject) (.object members name :: around)
  | .string reader around => cutAt .cutString (reader.cut .endInString) around
  | .numeral reader around =>
    if reader.phase.mayEnd then
      match complete reader.document around with
      | .listNext items around => cutList (.same .endInList) items around
      | .objectNext members around => cutObject (.same .endInObject) members around
      | s => s
    else cutAt .malformed ⟨.endInValue, .invalidNumber⟩ around
  | .word _ _ around => cutAt .malformed (.same .endInValue) around
  | s => s

/-- Take all bytes of a text from the beginning. -/
def run (bytes : List UInt8) : Scan :=
  (bytes.foldl feed (.value [])).finish

/-- The document that has been read, and whether other characters follow it. -/
def result : Scan → Document × Bool
  | .done d | .broken d => (d, false)
  | .trailing d => (d, true)
  | _ => (.absent (.same .endInValue), false)

end Scan

/-- The outline of a text, and whether more than blanks follows its value. -/
def Document.ofBytes (bytes : ByteArray) : Document × Bool :=
  (Scan.run bytes.data.toList).result

end BeaconApi.Json
