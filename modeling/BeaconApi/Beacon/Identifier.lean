import BeaconApi.Beacon.Bytes
import BeaconApi.Beacon.Quantity

namespace BeaconApi

/-- Why a text names nothing. The first field is the kind of identifier that was asked for. -/
inductive IdentifierError
  | invalidHex (kind input : String) (reason : HexError)
  | unrecognized (kind input : String)
deriving DecidableEq, Repr

/-- The wording of an identifier error. -/
def IdentifierError.message : IdentifierError → String
  | .invalidHex kind input reason =>
    "invalid " ++ kind ++ " " ++ Text.quote input ++ ": " ++ reason.message
  | .unrecognized kind input => "unrecognized " ++ kind ++ " " ++ Text.quote input

/-- Read an identifier of the named kind. -/
def readIdentifier {α : Type} {length : Nat} {m : Measure} (kind : String)
    (ofBytes : Bytes length → α) (ofQuantity : Quantity m → α) (keywords : List (String × α))
    (input : String) : Except IdentifierError α :=
  match Bytes.ofString input with
  | .ok bytes => .ok (ofBytes bytes)
  | .error .missingMark =>
    match keywords.lookup input with
    | some x => .ok x
    | none =>
      match Quantity.ofString input with
      | .ok n => .ok (ofQuantity n)
      | .error _ => .error (.unrecognized kind input)
  | .error e => .error (.invalidHex kind input e)

/-- A name of a block. -/
inductive BlockId
  | root (root : Root)
  | slot (slot : Slot)
  | head
  | genesis
  | finalized
deriving DecidableEq

/-- The text of a block identifier. -/
def BlockId.display : BlockId → String
  | .root r => r.display
  | .slot s => s.display
  | .head => "head"
  | .genesis => "genesis"
  | .finalized => "finalized"

/-- Read a block identifier. -/
def BlockId.ofString : String → Except IdentifierError BlockId :=
  readIdentifier "block id" .root .slot
    [("head", .head), ("genesis", .genesis), ("finalized", .finalized)]

/-- A name of a state. -/
inductive StateId
  | root (root : Root)
  | slot (slot : Slot)
  | head
  | genesis
  | finalized
  | justified
deriving DecidableEq

/-- The text of a state identifier. -/
def StateId.display : StateId → String
  | .root r => r.display
  | .slot s => s.display
  | .head => "head"
  | .genesis => "genesis"
  | .finalized => "finalized"
  | .justified => "justified"

/-- Read a state identifier. -/
def StateId.ofString : String → Except IdentifierError StateId :=
  readIdentifier "state id" .root .slot
    [("head", .head), ("genesis", .genesis), ("finalized", .finalized), ("justified", .justified)]

/-- A name of a validator. -/
inductive ValidatorId
  | pubkey (key : BlsPubkey)
  | index (index : ValidatorIndex)
deriving DecidableEq

/-- The text of a validator identifier. -/
def ValidatorId.display : ValidatorId → String
  | .pubkey k => k.display
  | .index i => i.display

/-- Read a validator identifier. -/
def ValidatorId.ofString : String → Except IdentifierError ValidatorId :=
  readIdentifier "validator id" .pubkey .index []

end BeaconApi
