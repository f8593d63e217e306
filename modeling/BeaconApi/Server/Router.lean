import BeaconApi.Request.Basic
import BeaconApi.Server.Incoming
import BeaconApi.Server.Pattern
import BeaconApi.Server.Prepared
import BeaconApi.Text.Form

universe u

namespace BeaconApi

/-- What runs for a request. A handler that breaks down has no response. -/
abbrev Handler (m : Type → Type u) := IncomingRequest → m (Option PreparedResponse)

/-- A method, a path pattern and the handler for the requests of both. -/
structure Route (m : Type → Type u) where
  method : Method
  pattern : String
  handler : Handler m

namespace Route

variable {m : Type → Type u}

/-- The pattern of a route as a router takes it. -/
def translated (r : Route m) : String := String.ofList (Pattern.translate r.pattern)

/-- The segments of the pattern of a route. -/
def path (r : Route m) : Pattern := Pattern.ofString r.pattern

/-- A route with its parts by name, except for its handler. -/
def describe (r : Route m) : String :=
  Text.describePart "Route"
    [("method", match r.method with | .get => "Get" | .post => "Post"),
      ("pattern", Text.quote r.pattern)]

end Route

namespace Router

variable {m : Type → Type u}

/-- The largest body that is taken, in bytes. -/
def maxBodySize : Nat := 2097152

/-- The method whose route answers a request of the named method. A request for the head of a
resource goes to the route that reads it. -/
def methodFor? (name : String) : Option Method :=
  if name = "GET" ∨ name = "HEAD" then some .get
  else if name = "POST" then some .post
  else none

/-- The names of the methods that a route answers. -/
def allowed : Method → String
  | .get => "GET,HEAD"
  | .post => "POST"

/-- Bind the captures of a path to their names. A capture must be UTF-8. -/
def bindParams (captures : List (String × List Char)) (r : IncomingRequest) :
    Except PreparedResponse IncomingRequest :=
  match captures with
  | [] => .ok r
  | (name, segment) :: rest =>
    match decodeSegment? segment with
    | some value => bindParams rest (r.withParam name value)
    | none => .error (.error 400 ("Invalid UTF-8 in `" ++ name ++ "`"))

/-- The request that the handler of a matching route receives. -/
def receive (captures : List (String × List Char)) (query : String) (body : ByteArray) :
    Except PreparedResponse IncomingRequest := do
  let r ← bindParams captures .empty
  if maxBodySize < body.size then
    throw (.error 413 "Failed to buffer the request body: length limit exceeded")
  return { r with queryValues := .group (Form.decode query), body := some body }

/-- The response to a request that reaches no handler. -/
def refuse (code : UInt16) (reason method path : String) : Http.Response × List ApiError :=
  (PreparedResponse.error code (reason ++ ": " ++ method ++ " " ++ path)).write

/-- Run a handler for a request, unless the request is rejected before, and write what it has prepared. -/
def deliver [Monad m] (handler : Handler m) (captures : List (String × List Char)) (request : Http.Request) :
    m (Http.Response × List ApiError) :=
  match receive captures (Http.Target.ofString request.target).query request.body with
  | .error rejected => pure rejected.write
  | .ok incoming => do
    match ← handler incoming with
    | some prepared => return prepared.write
    | none => return (PreparedResponse.internalError "internal error while handling request").write

/-- The response to a request for whose method a path has no handler. The methods that it has are listed. -/
def disallow (methods : List Method) (method path : String) : Http.Response × List ApiError :=
  let (response, failures) := refuse 405 "method not allowed" method path
  let allow := ",".intercalate (methods.map allowed)
  ({ response with headers := response.headers.insert "allow" allow }, failures)

/-- Answer a request, whatever its method, with the whole response. -/
def respond [Monad m] (routes : List (Route m)) (request : Http.Request) :
    m (Http.Response × List ApiError) :=
  let target := Http.Target.ofString request.target
  match Pattern.best? (routes.map Route.path) target.path.toList with
  | none => pure (refuse 404 "no such endpoint" request.method target.path)
  | some (pattern, captures) =>
    let candidates := routes.filter fun route => route.path = pattern
    match candidates.find? fun route => methodFor? request.method = some route.method with
    | none => pure (disallow (candidates.map Route.method) request.method target.path)
    | some route => deliver route.handler captures request

/-- Send a response to a request, together with the failures that there were in writing it. A request for the
head of a resource gets no body. -/
def send [Monad m] (request : Http.Request) (responded : m (Http.Response × List ApiError)) :
    m (Http.Response × List ApiError) := do
  let (response, failures) ← responded
  if request.method = "HEAD" then return ({ response with body := .empty }, failures)
  return (response, failures)

/-- Answer a request. Also returned are the failures to send what a handler has prepared. -/
def answer [Monad m] (routes : List (Route m)) (request : Http.Request) :
    m (Http.Response × List ApiError) :=
  send request (respond routes request)

end Router

end BeaconApi
