import BeaconApi.Node.Operation
import BeaconApi.Server.Router

universe u

namespace BeaconApi

/-- A type whose values stand as texts in paths and queries. A text that cannot be read is met with
a reason. -/
class Param (α : Type) where
  ofText : String → Except String α

instance {m : Measure} : Param (Quantity m) where
  ofText s := (Quantity.ofString s).mapError DecimalError.message

instance {n : Nat} : Param (Bytes n) where
  ofText s := (Bytes.ofString s).mapError HexError.message

instance : Param BlockId where
  ofText s := (BlockId.ofString s).mapError IdentifierError.message

instance : Param StateId where
  ofText s := (StateId.ofString s).mapError IdentifierError.message

/-- What a handler does: it gives a response, or breaks off with one. -/
abbrev Reply (m : Type → Type u) := ExceptT PreparedResponse m PreparedResponse

/-- A handler over a backend. -/
abbrev Endpoint (m : Type → Type u) := Backend m → IncomingRequest → Reply m

/-- The response of a reply, however it came about. -/
def Reply.response {m : Type → Type u} [Monad m] (reply : Reply m) : m PreparedResponse := do
  match ← reply.run with
  | .ok response | .error response => return response

/-- Ask the node for an operation within a handler. -/
def Backend.ask {m : Type → Type u} [Monad m] {α : Type} (node : Backend m) (op : Operation α) :
    ExceptT PreparedResponse m α :=
  ExceptT.lift (node.perform op)

/-- Read a text as a parameter. `place` says where it stands. -/
def readParam {α : Type} [Param α] (name place text : String) : Except PreparedResponse α :=
  (Param.ofText text).mapError fun reason =>
    .badInput ("bad " ++ name ++ " " ++ place ++ " param: " ++ reason)

/-- Read a path parameter. -/
def pathParam {α : Type} [Param α] (r : IncomingRequest) (name : String) :
    Except PreparedResponse α := do
  let text ← (r.requiredParam name).mapError fun e => .badInput e.message
  readParam name "path" text

/-- Read the first value of a query parameter, if it has one. -/
def queryParam {α : Type} [Param α] (r : IncomingRequest) (name : String) :
    Except PreparedResponse (Option α) :=
  match r.queryFirst? name with
  | none => .ok none
  | some text => (readParam name "query" text).map some

/-- Read the body. -/
def readBody {α : Type} [Payload α] (r : IncomingRequest) : Except PreparedResponse α :=
  r.decodeBody.1.mapError fun e => .badInput e.message

end BeaconApi
