import BeaconApi.Wire.Payload

namespace BeaconApi

open Payload (shape toCarrier ofCarrier ofCarrier_toCarrier)

/-- An error in words. -/
structure ErrorMessage where
  code : UInt64
  message : String
  stacktraces : Option (List String)
deriving DecidableEq, Repr

/-- The fields of an error in words. -/
abbrev ErrorMessage.fields : Wire.Fields :=
  .required "code" (shape UInt64) <|
  .required "message" (shape String) <|
  .optional "stacktraces" (shape (List String)) .nil

instance : Payload ErrorMessage where
  shape := .record "ErrorMessage" ErrorMessage.fields
  toCarrier x := (toCarrier x.code, toCarrier x.message, x.stacktraces.map toCarrier, ())
  ofCarrier := fun (code, message, stacktraces, ()) =>
    ⟨ofCarrier code, ofCarrier message, stacktraces.map ofCarrier⟩
  ofCarrier_toCarrier x := by
    simp [ofCarrier_toCarrier, Function.comp_def]

/-- The place of an item that failed, and why. -/
structure ItemFailure where
  index : UInt64
  message : String
deriving DecidableEq, Repr

instance : Payload ItemFailure where
  shape := .record "IndexedErrorItem" <|
    .required "index" (.natural "usize") <|
    .required "message" (shape String) .nil
  toCarrier x := (x.index, toCarrier x.message, ())
  ofCarrier := fun (index, message, ()) => ⟨index, ofCarrier message⟩
  ofCarrier_toCarrier x := by simp [ofCarrier_toCarrier]

/-- The error of a batch, with the items that failed. -/
structure BatchError where
  error : ErrorMessage
  failures : List ItemFailure
deriving DecidableEq, Repr

instance : Payload BatchError where
  shape := .merged "IndexedErrorMessage" ErrorMessage.fields "failures"
    (shape (List ItemFailure))
  toCarrier x := (toCarrier x.error, toCarrier x.failures)
  ofCarrier := fun (error, failures) =>
    ⟨(ofCarrier error : ErrorMessage), ofCarrier failures⟩
  ofCarrier_toCarrier x := by simp [ofCarrier_toCarrier]

/-- The body of an error answer. -/
inductive ErrorBody
  | indexed (e : BatchError)
  | plain (e : ErrorMessage)
deriving DecidableEq, Repr

instance : Payload ErrorBody where
  shape := .either "ErrorBody" (shape BatchError) (shape ErrorMessage)
  toCarrier
    | .indexed e => .inl (toCarrier e)
    | .plain e => .inr (toCarrier e)
  ofCarrier
    | .inl e => .indexed (ofCarrier e)
    | .inr e => .plain (ofCarrier e)
  ofCarrier_toCarrier e := by cases e <;> simp [ofCarrier_toCarrier]

/-- A message that stands alone. -/
structure StatusMessage where
  message : String
deriving DecidableEq, Repr

instance : Payload StatusMessage where
  shape := .record "StatusMessage" (.required "message" (shape String) .nil)
  toCarrier x := (toCarrier x.message, ())
  ofCarrier := fun (message, ()) => ⟨ofCarrier message⟩
  ofCarrier_toCarrier x := by simp [ofCarrier_toCarrier]

/-- A line below a message. -/
def subline (text : String) : String := "\n  " ++ text

namespace ErrorMessage

/-- An error without stack traces. -/
def plain (code : UInt64) (message : String) : ErrorMessage := ⟨code, message, none⟩

/-- The text of an error, with its stack traces on lines of their own. -/
def display (e : ErrorMessage) : String :=
  "Error(" ++ toString e.code.toNat ++ "): " ++ e.message
    ++ String.join ((e.stacktraces.getD []).map subline)

/-- An error with its parts by name. -/
def describe (e : ErrorMessage) : String :=
  Text.describeRecord "ErrorMessage"
    [("code", toString e.code.toNat), ("message", Text.quote e.message),
      ("stacktraces",
        match e.stacktraces with
        | none => "None"
        | some lines => "Some(" ++ Text.quoteList lines ++ ")")]

end ErrorMessage

namespace ItemFailure

/-- The text of a failure behind the place of its item. -/
def display (f : ItemFailure) : String := "[" ++ toString f.index.toNat ++ "] " ++ f.message

/-- A failure with its parts by name. -/
def describe (f : ItemFailure) : String :=
  Text.describeRecord "IndexedErrorItem"
    [("index", toString f.index.toNat), ("message", Text.quote f.message)]

end ItemFailure

namespace BatchError

/-- The text of a batch error, with its failures on lines of their own. -/
def display (e : BatchError) : String :=
  e.error.display ++ String.join (e.failures.map fun f => subline f.display)

/-- A batch error with its parts by name. -/
def describe (e : BatchError) : String :=
  Text.describeRecord "IndexedErrorMessage"
    [("error", e.error.describe),
      ("failures", "[" ++ ", ".intercalate (e.failures.map ItemFailure.describe) ++ "]")]

end BatchError

namespace ErrorBody

/-- The message of a body. -/
def message : ErrorBody → ErrorMessage
  | .indexed e => e.error
  | .plain e => e

/-- The failures of a batch error. -/
def failures? : ErrorBody → Option (List ItemFailure)
  | .indexed e => some e.failures
  | .plain _ => none

/-- The text of a body. -/
def display : ErrorBody → String
  | .indexed e => e.display
  | .plain e => e.display

/-- A body with its parts by name. -/
def describe : ErrorBody → String
  | .indexed e => "Indexed(" ++ e.describe ++ ")"
  | .plain e => "Plain(" ++ e.describe ++ ")"

end ErrorBody

end BeaconApi
