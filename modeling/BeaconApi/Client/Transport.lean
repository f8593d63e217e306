import BeaconApi.Client.Basic

namespace BeaconApi

/-- What carries requests to a node: a method, a URL and a body go out, and a status code and a body
come back, unless there is a reason why not. -/
structure Transport (m : Type → Type) where
  send : Method → String → Option String → m (Except String (UInt16 × ByteArray))

/-- The transport that reaches nothing. -/
def Transport.unreachable {m : Type → Type} [Monad m] (reason : String) : Transport m where
  send _ _ _ := return .error reason

/-- A client of the node at an address. -/
structure HttpClient where
  address : String

namespace HttpClient

/-- The client of the node at an address. Slashes at the end of an address do not count. -/
def ofAddress (address : String) : HttpClient := ⟨dropTrailingSlashes address⟩

/-- What comes of a request that was sent. -/
def outcome (method : Method) : Except String (UInt16 × ByteArray) → Outcome
  | .ok (code, body) => .received code body
  | .error reason =>
    .failed (.clientUsage ("failed to execute " ++ method.name ++ " request: " ++ reason))

/-- Make requests over a transport. -/
def connect {m : Type → Type} [Monad m] (client : HttpClient) (transport : Transport m) :
    Client m where
  request r :=
    match r.url client.address with
    | .error e => return .failed e
    | .ok url => outcome r.method <$> transport.send r.method url (r.body?.map Json.render)

end HttpClient

end BeaconApi
