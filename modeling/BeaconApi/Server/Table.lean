import BeaconApi.Map.Sorted
import BeaconApi.Map.Table
import BeaconApi.Server.Router

universe u

namespace BeaconApi

/-- Why no router can be built from routes. Each error names the path at which the build stops. -/
inductive RegistrationError
  /-- The path has a handler for the method. -/
  | overlap (path : String) (method : Method)
  /-- A segment begins with a character that once marked placeholders. -/
  | segment (path : String)
  /-- The braces of the path do not enclose placeholders. -/
  | placeholder (path : String)
  /-- There are more placeholders than the router has names for. -/
  | tooMany (path : String)
  /-- Another path is the same but for the names of placeholders. -/
  | conflict (path : String)
deriving DecidableEq

/-- The handlers for one path by their methods, in the order in which they have been set. -/
abbrev MethodRouter (m : Type → Type u) := Table Method (Handler m)

namespace MethodRouter

variable {m : Type → Type u}

/-- Set the handler for a method, which must not have one. -/
def on (methods : MethodRouter m) (path : String) (method : Method) (handler : Handler m) :
    Except RegistrationError (MethodRouter m) :=
  if methods.contains method then .error (.overlap path method)
  else .ok (methods.insert method handler)

end MethodRouter

/-- The router that requests are given to: its patterns, each with the handlers for it. No two patterns differ
only in the names of their placeholders. -/
structure RoutingTable (m : Type → Type u) where
  entries : List (Pattern × MethodRouter m)
  apart : entries.Pairwise fun a b => a.1.map Piece.unnamed ≠ b.1.map Piece.unnamed

namespace RoutingTable

variable {m : Type → Type u}

/-- The router without patterns. -/
def empty : RoutingTable m := ⟨[], .nil⟩

/-- The largest number of placeholders in one pattern. -/
def maxPlaceholders : Nat := 25

/-- Read the pattern that a path stands for, as far as it can be registered. -/
def read (path : String) : Except RegistrationError Pattern :=
  if (Text.split '/' path.toList).any fun segment => segment.head? = some ':' ∨ segment.head? = some '*' then
    .error (.segment path)
  else
    match Pattern.parse? none path.toList with
    | none => .error (.placeholder path)
    | some pattern => if maxPlaceholders < pattern.names.length then .error (.tooMany path) else .ok pattern

/-- Register the handlers for a path. -/
def register (table : RoutingTable m) (path : String) (methods : MethodRouter m) :
    Except RegistrationError (RoutingTable m) :=
  match read path with
  | .error e => .error e
  | .ok pattern =>
    if h : ∀ entry ∈ table.entries, entry.1.map Piece.unnamed ≠ pattern.map Piece.unnamed then
      .ok ⟨table.entries ++ [(pattern, methods)], List.pairwise_append.mpr
        ⟨table.apart, List.pairwise_singleton .., fun entry hentry _ hother =>
          List.mem_singleton.mp hother ▸ h entry hentry⟩⟩
    else .error (.conflict path)

/-- Add a route to the method routers by path. The one of its path is taken out and put back. -/
def add (byPath : SortedMap (MethodRouter m)) (route : Route m) :
    Except RegistrationError (SortedMap (MethodRouter m)) := do
  let methods := (byPath.get? route.translated).getD .empty
  let methods ← methods.on route.translated route.method route.handler
  return (byPath.erase route.translated).insert route.translated methods

/-- Register the handlers for all paths, one after another. -/
def registerAll (entries : List (String × MethodRouter m)) : Except RegistrationError (RoutingTable m) :=
  entries.foldlM (fun table (path, methods) => table.register path methods) .empty

/-- Build the router from routes. Those that share a pattern share one method router. -/
def ofRoutes (routes : List (Route m)) : Except RegistrationError (RoutingTable m) := do
  let byPath ← routes.foldlM add .empty
  registerAll byPath.entries

/-- The handlers for the pattern that takes precedence among those that match a path, with its captures. -/
def lookup? (table : RoutingTable m) (path : List Char) :
    Option (MethodRouter m × List (String × List Char)) :=
  (Pattern.best? (table.entries.map Prod.fst) path).bind fun (pattern, captures) =>
    (table.entries.find? fun entry => entry.1 = pattern).map fun entry => (entry.2, captures)

/-- Answer a request, whatever its method, with the whole response. -/
def respond [Monad m] (table : RoutingTable m) (request : Http.Request) : m (Http.Response × List ApiError) :=
  let target := Http.Target.ofString request.target
  match table.lookup? target.path.toList with
  | none => pure (Router.refuse 404 "no such endpoint" request.method target.path)
  | some (methods, captures) =>
    match (Router.methodFor? request.method).bind methods.get? with
    | none => pure (Router.disallow (methods.rows.map Prod.fst) request.method target.path)
    | some handler => Router.deliver handler captures request

/-- Answer a request. Also returned are the failures to send what a handler has prepared. -/
def answer [Monad m] (table : RoutingTable m) (request : Http.Request) : m (Http.Response × List ApiError) :=
  Router.send request (table.respond request)

end RoutingTable

end BeaconApi
