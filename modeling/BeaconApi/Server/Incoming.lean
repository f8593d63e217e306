import BeaconApi.Api.Body
import BeaconApi.Map.Sorted
import BeaconApi.Text.Split

namespace BeaconApi

/-- A request that has reached a handler. `body` is absent once it has been read. -/
structure IncomingRequest where
  params : SortedMap String
  queryValues : SortedMap (List String)
  body : Option ByteArray

namespace IncomingRequest

/-- A request without parameters and with nothing in its body. -/
def empty : IncomingRequest := ⟨.empty, .empty, some .empty⟩

/-- Set a path parameter. -/
def withParam (r : IncomingRequest) (name value : String) : IncomingRequest :=
  { r with params := r.params.insert name value }

/-- Add a query value behind those that the name already has. -/
def withQueryValue (r : IncomingRequest) (name value : String) : IncomingRequest :=
  { r with queryValues := r.queryValues.insert name ((r.queryValues.get? name).getD [] ++ [value]) }

/-- Set the body. -/
def withBody (r : IncomingRequest) (body : ByteArray) : IncomingRequest :=
  { r with body := some body }

/-- The value of a path parameter. -/
def param? (r : IncomingRequest) (name : String) : Option String := r.params.get? name

/-- The value of a path parameter that must be there. -/
def requiredParam (r : IncomingRequest) (name : String) : Except ApiError String :=
  match r.param? name with
  | some value => .ok value
  | none => .error (.missingParam name)

/-- All values of a query parameter, in the order of their arrival. -/
def query? (r : IncomingRequest) (name : String) : Option (List String) := r.queryValues.get? name

/-- The first value of a query parameter. -/
def queryFirst? (r : IncomingRequest) (name : String) : Option String :=
  (r.query? name).bind List.head?

/-- The values of a query parameter, taken apart at their commas. Empty pieces do not count. -/
def queryList (r : IncomingRequest) (name : String) : List String :=
  ((r.query? name).getD []).flatMap fun value =>
    ((Text.split ',' value.toList).filter (!·.isEmpty)).map String.ofList

/-- Read the body as a payload. The request that is returned has no body left. -/
def decodeBody {α : Type} [Payload α] (r : IncomingRequest) :
    Except ApiError α × IncomingRequest :=
  match r.body with
  | none => (.error .bodyConsumed, r)
  | some bytes => (Body.decodeContents bytes, { r with body := none })

/-- A request with its parts by name, except for the contents of its body. -/
def describe (r : IncomingRequest) : String :=
  Text.describePart "IncomingRequest"
    [("params", Text.quoteMap (r.params.entries.map fun (k, v) => (k, Text.quote v))),
      ("query", Text.quoteMap (r.queryValues.entries.map fun (k, v) => (k, Text.quoteList v))),
      ("body_consumed", if r.body.isNone then "true" else "false")]

end IncomingRequest

end BeaconApi
