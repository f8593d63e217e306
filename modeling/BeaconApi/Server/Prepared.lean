import BeaconApi.Api.Body
import BeaconApi.Http.Message

namespace BeaconApi

/-- A response that a handler has prepared. -/
structure PreparedResponse where
  code : UInt16
  body : Option Written
  headers : SortedMap String

namespace PreparedResponse

/-- A response without a body. -/
def ofCode (code : UInt16) : PreparedResponse := ⟨code, none, .empty⟩

/-- Set the body. -/
def withBody (r : PreparedResponse) (body : Written) : PreparedResponse :=
  { r with body := some body }

/-- Set a header. -/
def withHeader (r : PreparedResponse) (name value : String) : PreparedResponse :=
  { r with headers := r.headers.insert name value }

/-- A response with a payload as its body. -/
def ofPayload {α : Type} [Payload α] (code : UInt16) (data : α) : PreparedResponse :=
  (ofCode code).withBody (.ok (Payload.toJson data))

/-- Success, with a payload as it is. -/
def ok {α : Type} [Payload α] (data : α) : PreparedResponse := ofPayload 200 data

/-- Success, with a payload under the key `data`. -/
def okData {α : Type} [Payload α] (data : α) : PreparedResponse := ok (Envelope.mk data)

/-- Success, with a message. -/
def okMessage (message : String) : PreparedResponse := okData (StatusMessage.mk message)

/-- The request was accepted but not fully processed. -/
def accepted (message : String) : PreparedResponse :=
  ofPayload 202 (Envelope.mk (StatusMessage.mk message))

/-- An error with a plain body. -/
def error (code : UInt16) (message : String) : PreparedResponse :=
  ofPayload code (ErrorMessage.plain (UInt64.ofNat code.toNat) message)

/-- The request was wrong. -/
def badInput (message : String) : PreparedResponse := error 400 message

/-- Some items of the request were wrong. -/
def badInputs (message : String) (failures : List ItemFailure) : PreparedResponse :=
  ofPayload 400 (BatchError.mk (.plain 400 message) failures)

/-- There is nothing under the path of the request. -/
def notFound (message : String) : PreparedResponse := error 404 message

/-- The server failed. -/
def internalError (message : String) : PreparedResponse := error 500 message

/-- The node is syncing. -/
def syncing (message : String) : PreparedResponse := error 503 message

/-- The text of the body. -/
def encodeBody (r : PreparedResponse) : Except ApiError (Option String) :=
  match r.body with
  | none => .ok none
  | some (.ok j) => .ok (some j.render)
  | some (.error reason) => .error (.encoding reason)

/-- A response with its parts by name, except for the contents of its body. -/
def describe (r : PreparedResponse) : String :=
  Text.describeRecord "PreparedResponse"
    [("code", codeText r.code),
      ("headers", Text.quoteMap (r.headers.entries.map fun (k, v) => (k, Text.quote v))),
      ("has_body", if r.body.isSome then "true" else "false")]

/-- The status that is sent, and the failure if it is not the one that was asked for. -/
def writeStatus (code : UInt16) : UInt16 × List ApiError :=
  if Http.isStatus code then (code, [])
  else (500, [.encoding ("invalid status code " ++ codeText code)])

/-- The headers that are sent, and a failure for each that is not. Names that differ only in case
are one header, and the last of its values stands. There is no bound on their number here, while the
header map of the HTTP library has a documented maximum size, beyond which an insertion fails. -/
def writeHeaders (headers : SortedMap String) : SortedMap String × List ApiError :=
  headers.entries.foldl
    (fun (sent, failures) (name, value) =>
      match Http.headerName? name, Http.isHeaderValue value with
      | some key, true => (sent.insert key value, failures)
      | _, _ => (sent, failures ++ [.encoding ("invalid response header " ++ Text.quote name)]))
    (.empty, [])

/-- Send a response. The media type of a body that is sent stands in place of any that the handler
has set. -/
def write (r : PreparedResponse) : Http.Response × List ApiError :=
  let (status, statusFailures) := writeStatus r.code
  let (headers, headerFailures) := writeHeaders r.headers
  match r.encodeBody with
  | .ok none => (⟨status, headers, .empty⟩, statusFailures ++ headerFailures)
  | .ok (some text) =>
    (⟨status, headers.insert "content-type" Body.contentType, text.toUTF8⟩,
      statusFailures ++ headerFailures)
  | .error e => (⟨status, headers, .empty⟩, statusFailures ++ headerFailures ++ [e])

end PreparedResponse

end BeaconApi
