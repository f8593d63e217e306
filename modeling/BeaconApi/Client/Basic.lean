import BeaconApi.Client.Outcome
import BeaconApi.Request.Basic

namespace BeaconApi

/-- Something that makes requests. -/
structure Client (m : Type → Type) where
  request : Request → m Outcome

namespace Client

variable {m : Type → Type} [Monad m] (client : Client m) {α : Type} [Payload α]

/-- What a lookup has found. -/
def found (outcome : Outcome) : Except ApiError (Option α) :=
  match (outcome.decode : Except ApiError (UInt16 × α)) with
  | .ok (_, x) => .ok (some x)
  | .error e => if e.status? = some 404 then .ok none else .error e

/-- Ask for something that may not be there. -/
def lookup (r : Request) : m (Except ApiError (Option α)) := do
  return found (← client.request r)

/-- Ask for something that must be there. -/
def fetch (r : Request) : m (Except ApiError α) := do
  return (← client.request r).decode.map Prod.snd

/-- Ask for something that may not be there and is sent under the key `data`. -/
def lookupData (r : Request) : m (Except ApiError (Option α)) := do
  let result : Except ApiError (Option (Envelope α)) ← client.lookup r
  return result.map (Option.map Envelope.data)

/-- Ask for something that must be there and is sent under the key `data`. -/
def fetchData (r : Request) : m (Except ApiError α) := do
  let result : Except ApiError (Envelope α) ← client.fetch r
  return result.map Envelope.data

/-- Make a request of which only the status code counts. -/
def send (r : Request) : m (Except ApiError UInt16) := do
  return (← client.request r).discard

end Client

end BeaconApi
