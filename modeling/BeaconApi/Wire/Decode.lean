import BeaconApi.Json.Scan
import BeaconApi.Wire.Error
import BeaconApi.Wire.Shape

namespace BeaconApi.Wire

open Json (Break Document Fault)

/-- The outcome of reading. -/
abbrev Decoded (α : Type) := Except DecodeError α

/-- The members of an object that is read. -/
abbrev Members := List (Except Fault String × Document)

/-- Report a fault of the text. -/
def ofFault {α : Type} : Except Fault α → Decoded α
  | .ok x => .ok x
  | .error fault => .error (.malformed fault)

/-- Report that a document is not of the expected kind, or the fault met in finding its kind. -/
def mismatch {α : Type} (expected : String) (d : Document) : Decoded α :=
  match d.kind with
  | .ok kind => .error (.wrongKind kind expected)
  | .error fault => .error (.malformed fault)

/-- The outcome of a list or an object that may break off. -/
def closed (stop : Option Break) : Decoded Unit :=
  ofFault (Document.close stop ())

/-- Go through the members of an object. Members that `take` does not know are passed over. -/
def walk {σ : Type} (take : σ → String → Document → Decoded (Option σ)) : σ → Members → Decoded σ
  | state, [] => .ok state
  | _, (.error fault, _) :: _ => .error (.malformed fault)
  | state, (.ok key, d) :: rest =>
    match take state key d with
    | .error e => .error e
    | .ok (some next) => walk take next rest
    | .ok none =>
      match d.skip with
      | .ok () => walk take state rest
      | .error fault => .error (.malformed fault)

/-- How a message counts elements. -/
def elements (count : Nat) : String :=
  if count = 1 then "1 element" else toString count ++ " elements"

/-- The end of a list of which a fixed number of items is taken: nothing may be left. In a text any
other character than the closing bracket is surplus; in a buffered document surplus items are
counted. -/
def endOfItems (buffered : Bool) (taken : Nat) (left : List Document) (stop : Option Break) :
    Decoded Unit :=
  match left, stop with
  | [], none => .ok ()
  | [], some stop =>
    .error (.malformed (if stop.reading = .listEndExpected then .trailingCharacters
      else stop.reading))
  | _ :: _, _ =>
    if buffered then .error (.wrongLength (taken + left.length) (elements taken ++ " in sequence"))
    else .error (.malformed .trailingCharacters)

/-- Look a name up among two. -/
def branchOf (first second name : String) : Decoded Branch :=
  if name = first then .ok .first
  else if name = second then .ok .second
  else .error (.unknownName name first second)

/-- Read a name that stands as a string. -/
def decodeName (first second : String) : Document → Decoded Branch
  | .string s => branchOf first second s
  | d => mismatch "variant identifier" d

/-- Read a name that stands as a string, or as the only key of an object whose value is null. -/
def decodeBranch (first second : String) : Document → Decoded Branch
  | .string s => branchOf first second s
  | .unreadable fault => .error (.malformed fault)
  | .cutString stop | .absent stop => .error (.malformed stop.reading)
  | .object [] none => .error (.malformed .valueExpected)
  | .object [] (some stop) => .error (.malformed stop.reading)
  | .object ((.error fault, _) :: _) _ => .error (.malformed fault)
  | .object ((.ok name, d) :: rest) stop => do
    let branch ← branchOf first second name
    match d with
    | .null => pure ()
    | d => mismatch "unit" d
    match rest, stop with
    | [], none => return branch
    | [], some stop =>
      .error (.malformed (if stop.reading = .endInObject then .endInObject else .valueExpected))
    | _ :: _, _ => .error (.malformed .valueExpected)
  | _ => .error (.malformed .valueExpected)

/-- Read an integer that stands as a decimal string or as a number. -/
def decodeQuoted : Document → Decoded UInt64
  | .number (.natural n) => .ok n
  | .string s => (readUInt64 s).mapError .decimal
  | d => mismatch "a decimal string or an unsigned integer" d

/-- Read an integer that stands as a number. -/
def decodeNatural (expected : String) : Document → Decoded UInt64
  | .number (.natural n) => .ok n
  | .number (.negative magnitude) => .error (.negative magnitude expected)
  | d => mismatch expected d

/-- Read a byte string. -/
def decodeBytes (length : Nat) : Document → Decoded (Vector UInt8 length)
  | .string s => (Hex.readBytes length s).mapError .hex
  | d => mismatch "a string" d

/-- Read a string. -/
def decodeText : Document → Decoded String
  | .string s => .ok s
  | d => mismatch "a string" d

/-- Read a truth value. -/
def decodeFlag : Document → Decoded Bool
  | .bool b => .ok b
  | d => mismatch "a boolean" d

/-- The fields of a record that have been read so far. -/
@[reducible] def Fields.Partial : Fields → Type
  | .nil => Unit
  | .required _ shape rest => Option shape.Carrier × rest.Partial
  | .optional _ shape rest => Option (Option shape.Carrier) × rest.Partial

/-- No field has been read. -/
def Fields.none : (fs : Fields) → fs.Partial
  | .nil => ()
  | .required _ _ rest | .optional _ _ rest => (Option.none, rest.none)

/-- The record of the fields that have been read. The first required field without a value is
reported. -/
def Fields.finish : (fs : Fields) → fs.Partial → Decoded fs.Carrier
  | .nil, () => .ok ()
  | .required name _ rest, (value, others) =>
    match value with
    | Option.none => .error (.missingField name)
    | some x => (rest.finish others).map (x, ·)
  | .optional _ _ rest, (value, others) => (rest.finish others).map (value.join, ·)

/-- What has been read of a tagged value: its tag, its content before its tag, or both. -/
inductive TagState (α : Type)
  | start
  | tag (branch : Branch)
  | content (d : Document)
  | both (value : α)

mutual

/-- Read a document by a shape. `room` is the number of lists and objects that may still be opened
in a value that is read free-form. -/
def Shape.decode : (s : Shape) → (buffered : Bool) → (room : Nat) → Document → Decoded s.Carrier
  | .quoted, _, _, d => decodeQuoted d
  | .natural expected, _, _, d => decodeNatural expected d
  | .bytes length, _, _, d => decodeBytes length d
  | .text, _, _, d => decodeText d
  | .flag, _, _, d => decodeFlag d
  | .free, _, room, d => ofFault (d.toJson room)
  | .list item, buffered, room, d =>
    match d with
    | .list items stop => do
      let xs ← items.mapM (item.decode buffered (room - 1))
      closed stop
      return xs
    | d => mismatch "a sequence" d
  | .record name fields, buffered, room, d =>
    match d with
    | .list items stop => do
      let expected := "struct " ++ name ++ " with " ++ elements fields.count
      let (x, left) ← fields.inOrder buffered (room - 1) expected 0 stop items
      endOfItems buffered fields.count left stop
      return x
    | .object members stop => do
      let read ← walk (fields.put buffered (room - 1)) fields.none members
      closed stop
      fields.finish read
    | d => mismatch ("struct " ++ name) d
  | .merged name fields key own, buffered, room, d =>
    match d with
    | .object members stop => do
      let take (state : Option own.Carrier × Members) (k : String) (d : Document) :
          Decoded (Option (Option own.Carrier × Members)) :=
        if k = key then
          match state.1 with
          | some _ => .error (.duplicateField key)
          | Option.none => do
            let y ← own.decode buffered (room - 1) d
            return some (some y, state.2)
        else do
          ofFault (d.buffer (room - 1))
          return some (state.1, (.ok k, d) :: state.2)
      let (own?, others) ← walk take (Option.none, []) members
      closed stop
      match own? with
      | Option.none => .error (.missingField key)
      | some y => do
        let read ← walk (fields.put true (room - 1)) fields.none others.reverse
        let x ← fields.finish read
        return (x, y)
    | d => mismatch ("struct " ++ name) d
  | .choice first second, _, _, d => decodeBranch first second d
  | .either name first second, _, room, d => do
    ofFault (d.buffer room)
    match first.decode true room d with
    | .ok x => return .inl x
    | .error _ =>
      match second.decode true room d with
      | .ok y => return .inr y
      | .error _ => .error (.noShape name)
  | .tagged name tagKey contentKey firstTag secondTag first second, buffered, room, d =>
    let content (buffered : Bool) (branch : Branch) (d : Document) :
        Decoded (first.Carrier ⊕ second.Carrier) :=
      match branch with
      | .first => (first.decode buffered (room - 1) d).map .inl
      | .second => (second.decode buffered (room - 1) d).map .inr
    let expected := "adjacently tagged enum " ++ name
    match d with
    | .list items stop =>
      match items with
      | [] => do
        closed stop
        .error (.wrongLength 0 expected)
      | [tag] => do
        let _ ← decodeName firstTag secondTag tag
        closed stop
        .error (.wrongLength 1 expected)
      | tag :: value :: left => do
        let branch ← decodeName firstTag secondTag tag
        let x ← content buffered branch value
        endOfItems buffered 2 left stop
        return x
    | .object members stop => do
      let take (state : TagState (first.Carrier ⊕ second.Carrier)) (k : String) (d : Document) :
          Decoded (Option (TagState (first.Carrier ⊕ second.Carrier))) :=
        if k = tagKey then
          match state with
          | .start => do return some (.tag (← decodeBranch firstTag secondTag d))
          | .content c => do
            let branch ← decodeBranch firstTag secondTag d
            return some (.both (← content true branch c))
          | .tag _ | .both _ => .error (.duplicateField tagKey)
        else if k = contentKey then
          match state with
          | .start => do
            ofFault (d.buffer (room - 1))
            return some (.content d)
          | .tag branch => do return some (.both (← content buffered branch d))
          | .content _ | .both _ => .error (.duplicateField contentKey)
        else .ok Option.none
      let state ← walk take .start members
      closed stop
      match state with
      | .start | .content _ => .error (.missingField tagKey)
      | .tag _ => .error (.missingField contentKey)
      | .both x => return x
    | d => mismatch expected d

/-- Read a member that belongs to a field. A field may be given once; members of other names are
left to the caller. -/
def Fields.put : (fs : Fields) → (buffered : Bool) → (room : Nat) → fs.Partial → String →
    Document → Decoded (Option fs.Partial)
  | .nil, _, _, _, _, _ => .ok Option.none
  | .required name shape rest, buffered, room, (value, others), key, d =>
    if key = name then
      match value with
      | some _ => .error (.duplicateField name)
      | Option.none => (shape.decode buffered room d).map fun x => some (some x, others)
    else (rest.put buffered room others key d).map (Option.map fun others => (value, others))
  | .optional name shape rest, buffered, room, (value, others), key, d =>
    if key = name then
      match value with
      | some _ => .error (.duplicateField name)
      | Option.none =>
        match d with
        | .null => .ok (some (some Option.none, others))
        | d => (shape.decode buffered room d).map fun x => some (some (some x), others)
    else (rest.put buffered room others key d).map (Option.map fun others => (value, others))

/-- Read fields from the items of a list, one after the other. An optional field at the end may be
missing. The items that are left are returned. -/
def Fields.inOrder : (fs : Fields) → (buffered : Bool) → (room : Nat) → (expected : String) →
    (taken : Nat) → Option Break → List Document → Decoded (fs.Carrier × List Document)
  | .nil, _, _, _, _, _, items => .ok ((), items)
  | .required _ shape rest, buffered, room, expected, taken, stop, items =>
    match items with
    | [] => do
      closed stop
      .error (.wrongLength taken expected)
    | d :: items => do
      let x ← shape.decode buffered room d
      let (xs, left) ← rest.inOrder buffered room expected (taken + 1) stop items
      return ((x, xs), left)
  | .optional _ shape rest, buffered, room, expected, taken, stop, items =>
    match items with
    | [] => do
      closed stop
      let (xs, left) ← rest.inOrder buffered room expected (taken + 1) stop []
      return ((Option.none, xs), left)
    | d :: items => do
      let x ← match d with
        | .null => pure Option.none
        | d => (shape.decode buffered room d).map some
      let (xs, left) ← rest.inOrder buffered room expected (taken + 1) stop items
      return ((x, xs), left)

end

end BeaconApi.Wire
