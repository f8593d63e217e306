import BeaconApi.Api.Error

namespace BeaconApi.Body

variable {α : Type} [Payload α]

/-- The media type of all bodies. -/
def contentType : String := "application/json"

/-- The bytes that count as blank: space, tab, line feed, form feed and carriage return. -/
def isBlankByte (byte : UInt8) : Bool :=
  byte = 0x20 || byte = 0x09 || byte = 0x0a || byte = 0x0c || byte = 0x0d

/-- Whether a body has nothing but blanks. -/
def isBlank (bytes : ByteArray) : Bool := bytes.data.all isBlankByte

/-- Read a body as a payload. -/
def decode (bytes : ByteArray) : Except ApiError α :=
  (Payload.decode bytes).mapError fun e => .decode e.message

/-- Read a body that must have contents. -/
def decodeContents (bytes : ByteArray) : Except ApiError α :=
  if isBlank bytes then .error .noContent else decode bytes

/-- The error that an answer with an error status stands for. -/
def errorOf (code : UInt16) (bytes : ByteArray) : ApiError :=
  match decode bytes with
  | .ok body => .ofBody code body
  | .error e => .malformedErrorBody code e.message

/-- Read the body of an answer. -/
def decodeResponse (code : UInt16) (bytes : ByteArray) : Except ApiError α :=
  match StatusClass.of code with
  | .unexpected => .error (.unexpectedStatus code)
  | .success => decodeContents bytes
  | .invalidRequest | .currentlySyncing | .internal | .unclassified => .error (errorOf code bytes)

/-- Judge an answer by its status without reading the body of a successful one. -/
def discardResponse (code : UInt16) (bytes : ByteArray) : Except ApiError Unit :=
  match StatusClass.of code with
  | .unexpected => .error (.unexpectedStatus code)
  | .success => .ok ()
  | .invalidRequest | .currentlySyncing | .internal | .unclassified => .error (errorOf code bytes)

end BeaconApi.Body
