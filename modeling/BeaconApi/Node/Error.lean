import BeaconApi.Server.Prepared

namespace BeaconApi

/-- Why an operation of a node failed. -/
inductive BackendError
  | notFound (what : String)
  | invalid (reason : String)
  | internal (reason : String)
deriving DecidableEq, Repr

namespace BackendError

/-- The wording of an error. -/
def message : BackendError → String
  | .notFound what => what ++ " not found"
  | .invalid reason => reason
  | .internal reason => "internal backend error: " ++ reason

/-- The response that an error becomes. -/
def toResponse : BackendError → PreparedResponse
  | .notFound what => .notFound (what ++ " not found")
  | .invalid reason => .badInput reason
  | .internal reason => .internalError reason

end BackendError

end BeaconApi
