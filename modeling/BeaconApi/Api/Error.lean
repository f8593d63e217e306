import BeaconApi.Api.ErrorBody

namespace BeaconApi

/-- What a status code says about a request. -/
inductive StatusClass
  | unexpected
  | success
  | invalidRequest
  | currentlySyncing
  | internal
  | unclassified
deriving DecidableEq, Repr

/-- The class of a status code. -/
def StatusClass.of (code : UInt16) : StatusClass :=
  if code < 200 then .unexpected
  else if code < 300 then .success
  else if code < 500 then .invalidRequest
  else if code = 503 then .currentlySyncing
  else if code < 600 then .internal
  else .unclassified

/-- The name of a class. -/
def StatusClass.name : StatusClass → String
  | .unexpected => "Unexpected"
  | .success => "Success"
  | .invalidRequest => "InvalidRequest"
  | .currentlySyncing => "CurrentlySyncing"
  | .internal => "Internal"
  | .unclassified => "Unclassified"

/-- What can go wrong between the parties of the interface. -/
inductive ApiError
  | clientUsage (reason : String)
  | encoding (reason : String)
  | decode (reason : String)
  | noContent
  | unexpectedStatus (code : UInt16)
  | malformedErrorBody (code : UInt16) (reason : String)
  | invalidRequest (status : UInt16) (body : ErrorBody)
  | currentlySyncing (status : UInt16) (body : ErrorBody)
  | internal (status : UInt16) (body : ErrorBody)
  | unclassified (status : UInt16) (body : ErrorBody)
  | bodyConsumed
  | missingParam (name : String)
deriving DecidableEq, Repr

/-- A status code in decimal. -/
def codeText (code : UInt16) : String := toString code.toNat

namespace ApiError

/-- The error that an answer of this status and body stands for. -/
def ofBody (status : UInt16) (body : ErrorBody) : ApiError :=
  match StatusClass.of status with
  | .invalidRequest => .invalidRequest status body
  | .currentlySyncing => .currentlySyncing status body
  | .internal => .internal status body
  | .unexpected | .success | .unclassified => .unclassified status body

/-- The wording of an error. -/
def message : ApiError → String
  | .clientUsage reason => "client usage error: " ++ reason
  | .encoding reason => "failed to encode body: " ++ reason
  | .decode reason => "failed to decode body: " ++ reason
  | .noContent => "no contents were available to decode"
  | .unexpectedStatus code => "unexpected response status code: " ++ codeText code
  | .malformedErrorBody code reason =>
    "failed to decode error response with status code " ++ codeText code ++ ": " ++ reason
  | .invalidRequest status body =>
    "invalid request (" ++ codeText status ++ "): " ++ body.display
  | .currentlySyncing status body =>
    "beacon node is syncing (" ++ codeText status ++ "): " ++ body.display
  | .internal status body =>
    "beacon node internal error (" ++ codeText status ++ "): " ++ body.display
  | .unclassified status body =>
    "unclassified error response (" ++ codeText status ++ "): " ++ body.display
  | .bodyConsumed => "request body was already consumed"
  | .missingParam name => "missing required param: " ++ name

/-- The name of the kind of an error. -/
def kind : ApiError → String
  | .clientUsage _ => "ClientUsage"
  | .encoding _ => "Encoding"
  | .decode _ => "Decode"
  | .noContent => "NoContent"
  | .unexpectedStatus _ => "UnexpectedStatus"
  | .malformedErrorBody _ _ => "MalformedErrorBody"
  | .invalidRequest _ _ => "InvalidRequest"
  | .currentlySyncing _ _ => "CurrentlySyncing"
  | .internal _ _ => "Internal"
  | .unclassified _ _ => "Unclassified"
  | .bodyConsumed => "BodyConsumed"
  | .missingParam _ => "MissingParam"

/-- The status code that an error goes back to. -/
def status? : ApiError → Option UInt16
  | .unexpectedStatus code | .malformedErrorBody code _ => some code
  | .invalidRequest status _ | .currentlySyncing status _ | .internal status _
  | .unclassified status _ => some status
  | .clientUsage _ | .encoding _ | .decode _ | .noContent | .bodyConsumed | .missingParam _ => none

/-- The body that an error carries. -/
def body? : ApiError → Option ErrorBody
  | .invalidRequest _ body | .currentlySyncing _ body | .internal _ body | .unclassified _ body =>
    some body
  | .clientUsage _ | .encoding _ | .decode _ | .noContent | .unexpectedStatus _
  | .malformedErrorBody _ _ | .bodyConsumed | .missingParam _ => none

/-- Whether the node refused because it is syncing. -/
def isSyncing : ApiError → Bool
  | .currentlySyncing _ _ => true
  | _ => false

/-- The failed items of a batch that an error reports. -/
def failures? (e : ApiError) : Option (List ItemFailure) := e.body?.bind ErrorBody.failures?

/-- An error with its parts by name. -/
def describe (e : ApiError) : String :=
  match e with
  | .clientUsage text | .encoding text | .decode text | .missingParam text =>
    e.kind ++ "(" ++ Text.quote text ++ ")"
  | .noContent | .bodyConsumed => e.kind
  | .unexpectedStatus code => e.kind ++ "(" ++ codeText code ++ ")"
  | .malformedErrorBody code reason =>
    Text.describeRecord e.kind [("code", codeText code), ("reason", Text.quote reason)]
  | .invalidRequest status body | .currentlySyncing status body | .internal status body
  | .unclassified status body =>
    Text.describeRecord e.kind [("status", codeText status), ("body", body.describe)]

end ApiError

end BeaconApi
