import BeaconApi.Proofs.Concurrent.Desk
import BeaconApi.Proofs.Memory.Exits

namespace BeaconApi

namespace Gossip

/-- The block that something is, if it is one. -/
def block? : Gossip → Option SignedBeaconBlock
  | block b => some b
  | _ => none

/-- The attestation that something is, if it is one. -/
def attestation? : Gossip → Option Attestation
  | attestation a => some a
  | _ => none

/-- The voluntary exit that something is, if it is one. -/
def voluntaryExit? : Gossip → Option SignedVoluntaryExit
  | voluntaryExit e => some e
  | _ => none

/-- The sync committee message that something is, if it is one. -/
def syncCommitteeMessage? : Gossip → Option SyncCommitteeMessage
  | syncCommitteeMessage m => some m
  | _ => none

theorem eq_of_voluntaryExit? {item : Gossip} {exit : SignedVoluntaryExit} (h : item.voluntaryExit? = some exit) :
    item = .voluntaryExit exit := by
  cases item <;> cases h
  rfl

end Gossip

/-- Pass on more items, each in the list of its kind. -/
def Published.pushAll (published : Published) (items : List Gossip) : Published where
  blocks := published.blocks ++ items.filterMap Gossip.block?
  attestations := published.attestations ++ items.filterMap Gossip.attestation?
  voluntaryExits := published.voluntaryExits ++ items.filterMap Gossip.voluntaryExit?
  syncCommitteeMessages := published.syncCommitteeMessages ++ items.filterMap Gossip.syncCommitteeMessage?

theorem Published.pushAll_nil (published : Published) : published.pushAll [] = published := by
  simp [pushAll]

theorem Published.pushAll_append (published : Published) (items more : List Gossip) :
    (published.pushAll items).pushAll more = published.pushAll (items ++ more) := by
  simp [pushAll, List.filterMap_append]

theorem Published.pushAll_singleton (published : Published) (item : Gossip) :
    published.pushAll [item] = published.push item := by
  cases item <;> simp [pushAll, push, Gossip.block?, Gossip.attestation?, Gossip.voluntaryExit?,
    Gossip.syncCommitteeMessage?]

/-- What is passed on of what is offered, given for each item whether the node is syncing. -/
def passedOn (offered : List (Gossip × Bool)) : List Gossip :=
  (offered.filter fun offer => !offer.2).map Prod.fst

theorem passedOn_append (offered more : List (Gossip × Bool)) :
    passedOn (offered ++ more) = passedOn offered ++ passedOn more := by
  rw [passedOn, List.filter_append, List.map_append]
  rfl

/-- The items that an operation adds to a pool, given what comes of it. -/
def Operation.pooled : {α : Type} → Operation α → α → List Gossip
  | _, .addAttestation attestation, .ok () => [.attestation attestation]
  | _, .addVoluntaryExit exit, .ok () => [.voluntaryExit exit]
  | _, .addSyncCommitteeMessage message, .ok () => [.syncCommitteeMessage message]
  | _, _, _ => []

/-- The items that an operation is to pass on. -/
def Operation.offered {α : Type} : Operation α → List Gossip
  | .publish item => [item]
  | _ => []

namespace Deed

/-- The items that have been added to a pool. -/
def pooled (deed : Deed) : List Gossip := deed.op.pooled (deed.before.step deed.op).1

/-- The items that were to be passed on, each with whether the node was syncing. -/
def offered (deed : Deed) : List (Gossip × Bool) :=
  deed.op.offered.map fun item => (item, deed.before.syncing)

/-- The blocks that have been kept, each under its new root. -/
def stored (deed : Deed) : List (Root × SignedBeaconBlock) :=
  (Memory.Event.perform deed.op).stores deed.before

theorem pooled_of_pending {exit : SignedVoluntaryExit} {s : Memory} (h : s.Pending exit.validator) :
    Deed.pooled ⟨.addVoluntaryExit exit, s⟩ = [] := by
  rw [Deed.pooled, Memory.step, Memory.addVoluntaryExit_of_pending h]
  rfl

theorem pooled_of_not_pending {exit : SignedVoluntaryExit} {s : Memory} (h : ¬ s.Pending exit.validator) :
    Deed.pooled ⟨.addVoluntaryExit exit, s⟩ = [.voluntaryExit exit] := by
  rw [Deed.pooled, Memory.step, Memory.addVoluntaryExit_of_not_pending h]
  rfl

end Deed

namespace Memory

/-- A node has gained items in its pools, and among what it has passed on. -/
structure Gains (s s' : Memory) (pooled sent : List Gossip) : Prop where
  attestations : s'.attestations = s.attestations ++ pooled.filterMap Gossip.attestation?
  voluntaryExits : s'.voluntaryExits = s.voluntaryExits ++ pooled.filterMap Gossip.voluntaryExit?
  syncCommitteeMessages :
    s'.syncCommitteeMessages = s.syncCommitteeMessages ++ pooled.filterMap Gossip.syncCommitteeMessage?
  published : s'.published = s.published.pushAll sent

namespace Gains

variable {s s' s'' : Memory} {pooled sent pooled' sent' : List Gossip}

theorem nil (hattestations : s'.attestations = s.attestations)
    (hexits : s'.voluntaryExits = s.voluntaryExits)
    (hmessages : s'.syncCommitteeMessages = s.syncCommitteeMessages)
    (hpublished : s'.published = s.published) : Gains s s' [] [] where
  attestations := by rw [hattestations, List.filterMap_nil, List.append_nil]
  voluntaryExits := by rw [hexits, List.filterMap_nil, List.append_nil]
  syncCommitteeMessages := by rw [hmessages, List.filterMap_nil, List.append_nil]
  published := by rw [hpublished, Published.pushAll_nil]

theorem trans (h : Gains s s' pooled sent) (h' : Gains s' s'' pooled' sent') :
    Gains s s'' (pooled ++ pooled') (sent ++ sent') where
  attestations := by rw [h'.attestations, h.attestations, List.filterMap_append, List.append_assoc]
  voluntaryExits := by rw [h'.voluntaryExits, h.voluntaryExits, List.filterMap_append, List.append_assoc]
  syncCommitteeMessages := by
    rw [h'.syncCommitteeMessages, h.syncCommitteeMessages, List.filterMap_append, List.append_assoc]
  published := by rw [h'.published, h.published, Published.pushAll_append]

end Gains

theorem Gains.of_publish (s : Memory) (item : Gossip) :
    s.Gains (s.publish item).2 [] (passedOn [(item, s.syncing)]) := by
  rw [publish_snd]
  cases hsyncing : s.syncing with
  | true => exact .nil rfl rfl rfl rfl
  | false =>
    refine ⟨(List.append_nil _).symm, (List.append_nil _).symm, (List.append_nil _).symm, ?_⟩
    exact (s.published.pushAll_singleton item).symm

/-- What a node gains by an operation. -/
theorem step_gains (s : Memory) {α : Type} (op : Operation α) :
    s.Gains (s.step op).2 (op.pooled (s.step op).1) (passedOn (op.offered.map fun item => (item, s.syncing))) := by
  cases op with
  | publish item => exact .of_publish s item
  | addAttestation attestation =>
    refine ⟨rfl, (List.append_nil _).symm, (List.append_nil _).symm, ?_⟩
    exact s.published.pushAll_nil.symm
  | addVoluntaryExit exit =>
    rw [step]
    by_cases hpending : s.Pending exit.validator
    · rw [addVoluntaryExit_of_pending hpending]
      exact .nil rfl rfl rfl rfl
    · rw [addVoluntaryExit_of_not_pending hpending]
      refine ⟨(List.append_nil _).symm, rfl, (List.append_nil _).symm, ?_⟩
      exact s.published.pushAll_nil.symm
  | addSyncCommitteeMessage message =>
    rw [step]
    unfold addSyncCommitteeMessage
    split
    · refine ⟨(List.append_nil _).symm, (List.append_nil _).symm, rfl, ?_⟩
      exact s.published.pushAll_nil.symm
    · exact .nil rfl rfl rfl rfl
  | addBlock root b =>
    obtain ⟨entries, canonical, head, hadd⟩ := s.addBlock_frame root b
    rw [step, hadd]
    exact .nil rfl rfl rfl rfl
  | genesis | head | finalized | justified | byBlockRoot | byStateRoot | canonicalAt | search | finality
  | syncStatus | getBlock | storeBlock | attestations | voluntaryExits | produceBlock | proposerDuties =>
    exact .nil rfl rfl rfl rfl

end Memory

namespace Desk.Run

variable {n : Nat} {α : Type} {d d' : Desk n α} {trace : Trace n}

/-- What a node gains in a run of tasks is what the trace notes down. -/
theorem gains (h : Run d trace d') : d.node.memory.Gains d'.node.memory
    ((noted Deed.pooled trace).map Prod.snd) (passedOn ((noted Deed.offered trace).map Prod.snd)) := by
  induction h with
  | stay d => exact .nil rfl rfl rfl rfl
  | @work d d' trace β op next i htask hrest ih =>
    have hstep := d.node.memory.step_gains op
    rw [map_snd_noted, map_snd_noted, List.map_cons, List.flatMap_cons, List.flatMap_cons, passedOn_append,
      ← map_snd_noted, ← map_snd_noted]
    exact hstep.trans ih
  | @setSyncing d d' trace syncing hrest ih =>
    have hstep : d.node.memory.Gains (d.node.after (.setSyncing syncing)).memory [] [] := .nil rfl rfl rfl rfl
    exact hstep.trans ih

/-- The blocks that are kept in a run of tasks are those that the trace notes down. -/
theorem stored_perm (h : Run d trace d') :
    d'.node.stored.Perm ((noted Deed.stored trace).map Prod.snd ++ d.node.stored) := by
  induction h with
  | stay d => exact .refl _
  | @work d d' trace β op next i htask hrest ih =>
    rw [map_snd_noted, List.map_cons, List.flatMap_cons, ← map_snd_noted, List.append_assoc]
    exact ih.trans (List.perm_append_comm_assoc _ _ _)
  | setSyncing syncing _ ih => exact ih

end Desk.Run

end BeaconApi
