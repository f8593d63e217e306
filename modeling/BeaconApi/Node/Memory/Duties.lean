import BeaconApi.Node.Memory.Chain

namespace BeaconApi.Memory

/-- A block that stands behind the head, with all that the pools offer for its slot. -/
def produceBlock (s : Memory) (slot : Slot) (randaoReveal : BlsSignature) (graffiti : Root) :
    Except BackendError Phase0.BeaconBlock :=
  match s.head? with
  | none => .error (.internal "chain has no head")
  | some head =>
    if slot.val ≤ head.slot.val then
      .error (.invalid ("cannot produce a block at slot " ++ slot.display ++ ": head is at slot "
        ++ head.slot.display))
    else
      .ok
        { slot
          proposerIndex := proposerAt slot
          parentRoot := head.blockRoot
          stateRoot := derivedRoot 0 slot .state
          body :=
            { randaoReveal
              graffiti
              attestations := s.attestations.filter fun a => a.data.slot.val < slot.val
              voluntaryExits := s.voluntaryExits } }

/-- The key of a validator, derived from its index. -/
def pubkeyOf (index : ValidatorIndex) : BlsPubkey :=
  ⟨bigEndian index.val ++ Vector.replicate 40 (0 : UInt8)⟩

/-- The duty of the proposer of a slot. -/
def dutyAt (slot : Slot) : ProposerDuty where
  pubkey := pubkeyOf (proposerAt slot)
  validatorIndex := proposerAt slot
  slot := slot

/-- Of two rows of canonical slots the one at the higher slot below a bound, if any. -/
def laterBelow (bound : Nat) (best : Option (Slot × Root)) (row : Slot × Root) :
    Option (Slot × Root) :=
  if row.1.val.toNat < bound then
    match best with
    | none => some row
    | some other => if other.1.val < row.1.val then some row else best
  else best

/-- The canonical block at the highest slot below a bound. The chain begins with the first block,
which also stands in where there is none. -/
def dependentRoot (s : Memory) (bound : Nat) : Root :=
  ((s.canonical.rows.foldl (laterBelow bound) none).map Prod.snd).getD genesisRoot

/-- The duties of an epoch. The last slot that an integer can count is left out. -/
def proposerDuties (s : Memory) (epoch : Epoch) : Except BackendError DependentProposerDuty :=
  let start := epoch.val.toNat * slotsPerEpoch
  if UInt64.size ≤ start then
    .error (.invalid ("epoch " ++ epoch.display ++ " is out of range"))
  else
    let stop := min (start + slotsPerEpoch) (UInt64.size - 1)
    .ok
      { dependentRoot := s.dependentRoot start
        data := (List.range' start (stop - start)).map fun n => dutyAt ⟨UInt64.ofNat n⟩ }

end BeaconApi.Memory
