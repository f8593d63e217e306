import BeaconApi.Json.Basic

namespace BeaconApi.Json

/-- The ways in which a text can fail to be JSON. -/
inductive Fault
  | endInValue
  | endInString
  | endInObject
  | endInList
  | valueExpected
  | identExpected
  | colonExpected
  | objectEndExpected
  | listEndExpected
  | keyExpected
  | trailingComma
  | trailingCharacters
  | invalidNumber
  | numberOutOfRange
  | invalidEscape
  | unfinishedPair
  | loneSurrogate
  | controlCharacter
  | invalidCodePoint
  | depthExceeded
deriving DecidableEq, Repr

/-- The wording of a fault. -/
def Fault.message : Fault → String
  | .endInValue => "EOF while parsing a value"
  | .endInString => "EOF while parsing a string"
  | .endInObject => "EOF while parsing an object"
  | .endInList => "EOF while parsing a list"
  | .valueExpected => "expected value"
  | .identExpected => "expected ident"
  | .colonExpected => "expected `:`"
  | .objectEndExpected => "expected `,` or `\x7d`"
  | .listEndExpected => "expected `,` or `]`"
  | .keyExpected => "key must be a string"
  | .trailingComma => "trailing comma"
  | .trailingCharacters => "trailing characters"
  | .invalidNumber => "invalid number"
  | .numberOutOfRange => "number out of range"
  | .invalidEscape => "invalid escape"
  | .unfinishedPair => "unexpected end of hex escape"
  | .loneSurrogate => "lone leading surrogate in hex escape"
  | .controlCharacter => "control character (\\u0000-\\u001F) found while parsing a string"
  | .invalidCodePoint => "invalid unicode code point"
  | .depthExceeded => "recursion limit exceeded"

/-- A place where the text breaks off: the fault that a reader of the value reports there, and the
fault that a reader that passes over the value reports. -/
structure Break where
  reading : Fault
  skipping : Fault
deriving DecidableEq, Repr

/-- A place that all readers report alike. -/
def Break.same (fault : Fault) : Break := ⟨fault, fault⟩

/-- The outline of a text.

`unreadable` is a whole string that has no value and `outOfRange` a whole numeral that has none;
both may be passed over. `cutString` is a string that breaks off, `absent` a place where the text or
its colon ends before a value, and `malformed` anything else that stands where a value should. A
list or an object may break off after its last item or member. A key that has no value is given by
its fault. -/
inductive Document
  | null
  | bool (b : Bool)
  | number (n : Number)
  | outOfRange
  | string (s : String)
  | unreadable (fault : Fault)
  | cutString (stop : Break)
  | absent (stop : Break)
  | malformed (stop : Break)
  | list (items : List Document) (stop : Option Break)
  | object (members : List (Except Fault String × Document)) (stop : Option Break)
deriving Inhabited

namespace Document

/-- Pass over a document. The fault met on the way is that of the place where the text breaks
off. -/
def skip : Document → Except Fault Unit
  | .cutString stop | .absent stop | .malformed stop => .error stop.skipping
  | .list _ (some stop) | .object _ (some stop) => .error stop.skipping
  | _ => .ok ()

/-- What kind of value a document is, with the value itself if it is not composed of others. -/
inductive Kind
  | null
  | bool (b : Bool)
  | number (n : Number)
  | string (s : String)
  | list
  | object
deriving DecidableEq, Repr

/-- The kind of a document. Scalars are read whole for it; of the others the first character is
enough. -/
def kind : Document → Except Fault Kind
  | .null => .ok .null
  | .bool b => .ok (.bool b)
  | .number n => .ok (.number n)
  | .outOfRange => .error .numberOutOfRange
  | .string s => .ok (.string s)
  | .unreadable fault => .error fault
  | .cutString stop | .absent stop | .malformed stop => .error stop.reading
  | .list _ _ => .ok .list
  | .object _ _ => .ok .object

/-- The largest number of lists and objects that may be open around a free-form value. -/
def maxDepth : Nat := 127

/-- The outcome of a list or an object once its parts have been read. -/
def close {α : Type} (stop : Option Break) (value : α) : Except Fault α :=
  match stop with
  | none => .ok value
  | some stop => .error stop.reading

mutual

/-- Read a document as a free-form value. `room` is the number of lists and objects that may still
be opened. -/
def toJson (room : Nat) : Document → Except Fault Json
  | .null => .ok .null
  | .bool b => .ok (.bool b)
  | .number n => .ok (.number n)
  | .outOfRange => .error .numberOutOfRange
  | .string s => .ok (.string s)
  | .unreadable fault => .error fault
  | .cutString stop | .absent stop | .malformed stop => .error stop.reading
  | .list items stop =>
    if room = 0 then .error .depthExceeded
    else
      match itemsToJson (room - 1) [] items with
      | .ok values => close stop (.array values)
      | .error fault => .error fault
  | .object members stop =>
    if room = 0 then .error .depthExceeded
    else
      match membersToJson (room - 1) [] members with
      | .ok values => close stop (Json.ofMembers values)
      | .error fault => .error fault

/-- Read the items of a list after those already read, which are given last one first. -/
def itemsToJson (room : Nat) (done : List Json) : List Document → Except Fault (List Json)
  | [] => .ok done.reverse
  | item :: items =>
    match toJson room item with
    | .ok value => itemsToJson room (value :: done) items
    | .error fault => .error fault

/-- Read the members of an object after those already read, which are given last one first. -/
def membersToJson (room : Nat) (done : List (String × Json)) :
    List (Except Fault String × Document) → Except Fault (List (String × Json))
  | [] => .ok done.reverse
  | (key, value) :: members =>
    match key with
    | .error fault => .error fault
    | .ok key =>
      match toJson room value with
      | .ok value => membersToJson room ((key, value) :: done) members
      | .error fault => .error fault

end

/-- Read a document as a whole before anything is made of it, as a free-form value is read. -/
def buffer (room : Nat) (d : Document) : Except Fault Unit :=
  (d.toJson room).map fun _ => ()

end Document

end BeaconApi.Json
