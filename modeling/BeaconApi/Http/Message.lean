import BeaconApi.Map.Sorted

namespace BeaconApi.Http

/-- A request as it arrives. -/
structure Request where
  method : String
  target : String
  body : ByteArray

/-- A response as it is sent. Header names are in lowercase. -/
structure Response where
  status : UInt16
  headers : SortedMap String
  body : ByteArray

/-- The path and the query that a request asks for. -/
structure Target where
  path : String
  query : String

namespace Target

/-- What follows the scheme of a URL. A target without a scheme names a host alone, and a host has
no slashes. -/
def afterScheme? : List Char → Option (List Char)
  | ':' :: '/' :: '/' :: rest => some rest
  | _ :: rest => afterScheme? rest
  | [] => none

/-- Take a path and a query apart, at the first question mark. The empty path is the root. -/
def ofResource (resource : List Char) : Target :=
  let path := resource.takeWhile (· ≠ '?')
  { path := if path.isEmpty then "/" else String.ofList path
    query := String.ofList ((resource.dropWhile (· ≠ '?')).drop 1) }

/-- Read the target of a request. It is a path with a query, a URL, an asterisk, which stands for
the server as a whole, or a host, which has no path. A hash sign ends it. -/
def ofString (s : String) : Target :=
  match s.toList.takeWhile (· ≠ '#') with
  | '/' :: rest => ofResource ('/' :: rest)
  | ['*'] => ⟨"*", ""⟩
  | other =>
    match afterScheme? other with
    | some url => ofResource (url.dropWhile fun c => c ≠ '/' && c ≠ '?')
    | none => ⟨"", ""⟩

end Target

/-- The status codes that a response can have. -/
def isStatus (code : UInt16) : Bool := 100 ≤ code && code ≤ 999

/-- The bytes of header names: letters, digits and the marks of tokens. -/
def isTokenByte (byte : UInt8) : Bool :=
  (0x30 ≤ byte && byte ≤ 0x39) || (0x41 ≤ byte && byte ≤ 0x5a) || (0x5e ≤ byte && byte ≤ 0x7a)
    || byte = 0x21 || (0x23 ≤ byte && byte ≤ 0x27) || byte = 0x2a || byte = 0x2b || byte = 0x2d
    || byte = 0x2e || byte = 0x7c || byte = 0x7e

/-- The largest number of bytes in a header name. -/
def maxHeaderName : Nat := 65535

/-- The form in which a header name is kept, if it is one. -/
def headerName? (name : String) : Option String :=
  let bytes := name.toUTF8.data
  if bytes.isEmpty || maxHeaderName < bytes.size || !bytes.all isTokenByte then none
  else some name.toLower

/-- Whether a text can stand as the value of a header: it has no controls but tabs. -/
def isHeaderValue (value : String) : Bool :=
  value.toUTF8.data.all fun byte => (0x20 ≤ byte && byte ≠ 0x7f) || byte = 0x09

end BeaconApi.Http
