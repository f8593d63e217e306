import BeaconApi.Api.Error
import BeaconApi.Map.Sorted
import BeaconApi.Text.Percent

namespace BeaconApi

/-- A value in a query. `str` is a text of its own, `text` the text of something else. -/
inductive QueryValue
  | str (s : String)
  | text (s : String)
  | list (items : List QueryValue)

namespace QueryValue

/-- A list of texts. -/
def texts (items : List String) : QueryValue := .list (items.map .text)

mutual

/-- The value of a piece of JSON, unless there is a null or an object in it. -/
def ofJson? : Json → Option QueryValue
  | .string s => some (.str s)
  | .number n => some (.text n.render)
  | .bool b => some (.text (if b then "true" else "false"))
  | .array items => (ofJsonItems? items).map .list
  | .null | .object _ => none

/-- The values of the items of an array. -/
def ofJsonItems? : List Json → Option (List QueryValue)
  | [] => some []
  | item :: items =>
    match ofJson? item, ofJsonItems? items with
    | some x, some xs => some (x :: xs)
    | _, _ => none

end

/-- The value of anything that has a JSON form. -/
def ofWritten (w : Written) : Except ApiError QueryValue :=
  match w with
  | .error reason => .error (.clientUsage ("failed to encode query value: " ++ reason))
  | .ok j =>
    match ofJson? j with
    | some x => .ok x
    | none => .error (.clientUsage "failed to encode query value: unknown type")

/-- The text of a value that is no list. -/
def scalarText? : QueryValue → Option String
  | .str s | .text s => some s
  | .list _ => none

/-- The text of a value. The items of a list must not be lists. -/
def text? : QueryValue → Option String
  | .str s | .text s => some s
  | .list items => (items.mapM scalarText?).map ",".intercalate

end QueryValue

/-- The parameters of a request by name. -/
abbrev Query := SortedMap QueryValue

namespace Query

/-- One parameter as it stands in a URL. -/
def encodeEntry (entry : String × QueryValue) : Except ApiError String :=
  match entry.2.text? with
  | some text => .ok (Percent.encode entry.1 ++ "=" ++ Percent.encode text)
  | none =>
    .error (.clientUsage ("failed to encode query key '" ++ entry.1 ++ "': unknown type"))

/-- The query as it stands in a URL. -/
def encode (query : Query) : Except ApiError String :=
  (query.entries.mapM encodeEntry).map "&".intercalate

end Query

end BeaconApi
