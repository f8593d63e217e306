import BeaconApi.Node.Error

universe u

namespace BeaconApi

/-- What became of a batch. `syncing` tells whether some accepted item was not passed on because the
node is syncing. -/
structure BatchOutcome where
  failures : List ItemFailure
  syncing : Bool
deriving DecidableEq

/-- Note the outcome of the item at a position. -/
def BatchOutcome.note (outcome : BatchOutcome) (index : Nat) :
    Except BackendError Bool → BatchOutcome
  | .ok syncing => { outcome with syncing := outcome.syncing || syncing }
  | .error e => { outcome with failures := outcome.failures ++ [⟨UInt64.ofNat index, e.message⟩] }

variable {m : Type → Type u} [Monad m] {α : Type}

/-- Run `accept` on the items from a position on. -/
def acceptFrom (accept : α → m (Except BackendError Bool)) (index : Nat) (outcome : BatchOutcome) :
    List α → m BatchOutcome
  | [] => pure outcome
  | item :: items => do
    let result ← accept item
    acceptFrom accept (index + 1) (outcome.note index result) items

/-- Run `accept` on every item in order and note each failure under the position of its item. A
failure does not end the batch. -/
def acceptIndexed (items : List α) (accept : α → m (Except BackendError Bool)) : m BatchOutcome :=
  acceptFrom accept 0 ⟨[], false⟩ items

end BeaconApi
