import BeaconApi.Request.Query

namespace BeaconApi

/-- The methods that the interface uses. -/
inductive Method
  | get
  | post
deriving DecidableEq, Repr

/-- The name of a method on the wire. -/
def Method.name : Method → String
  | .get => "GET"
  | .post => "POST"

/-- What a request does at its path. Only a post carries a body. -/
inductive Action
  | get
  | post (body : Json)

/-- A request. -/
structure Request where
  action : Action
  path : String
  query : Query

/-- A text without the slashes at its beginning. -/
def dropLeadingSlashes (s : String) : String :=
  String.ofList (s.toList.dropWhile (· = '/'))

/-- A text without the slashes at its end. -/
def dropTrailingSlashes (s : String) : String :=
  String.ofList (s.toList.reverse.dropWhile (· = '/')).reverse

namespace Request

/-- Read a path. -/
def get (path : String) : Request := ⟨.get, path, .empty⟩

/-- Post a payload to a path. -/
def post {α : Type} [Payload α] (path : String) (body : α) : Request :=
  ⟨.post (Payload.toJson body), path, .empty⟩

/-- The method of a request. -/
def method (r : Request) : Method :=
  match r.action with
  | .get => .get
  | .post _ => .post

/-- The body of a request. -/
def body? (r : Request) : Option Json :=
  match r.action with
  | .get => none
  | .post body => some body

/-- The URL of a request to the node at an address. -/
def url (r : Request) (base : String) : Except ApiError String := do
  let resource := dropTrailingSlashes base ++ "/" ++ dropLeadingSlashes r.path
  if r.query.isEmpty then return resource
  return resource ++ "?" ++ (← r.query.encode)

end Request

end BeaconApi
