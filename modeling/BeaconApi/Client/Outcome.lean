import BeaconApi.Api.Body

namespace BeaconApi

/-- What comes of a request: a response that has not been read yet, or an error that kept it from
coming. -/
inductive Outcome
  | received (code : UInt16) (body : ByteArray)
  | failed (e : ApiError)

namespace Outcome

/-- The status code of a response. -/
def code? : Outcome → Option UInt16
  | .received code _ => some code
  | .failed _ => none

/-- Read the body of a response, and keep its status code. -/
def decode {α : Type} [Payload α] : Outcome → Except ApiError (UInt16 × α)
  | .received code body => (Body.decodeResponse code body).map fun x => (code, x)
  | .failed e => .error e

/-- Judge a response by its status code alone. -/
def discard : Outcome → Except ApiError UInt16
  | .received code body => (Body.discardResponse code body).map fun _ => code
  | .failed e => .error e

/-- An outcome with its parts by name, except for the body of a response. -/
def describe : Outcome → String
  | .received code _ => Text.describePart "ResponseHandle" [("code", codeText code)]
  | .failed e => Text.describeRecord "ResponseHandle" [("error", e.describe)]

end Outcome

end BeaconApi
