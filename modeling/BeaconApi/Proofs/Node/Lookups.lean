import BeaconApi.Proofs.Except
import BeaconApi.Proofs.Node.Handling

namespace BeaconApi.Memory

open PreparedResponse

variable {c : Chronicle}

/-- The response that a handler ends with, however it came about. -/
def settled : Except PreparedResponse PreparedResponse → PreparedResponse
  | .ok response | .error response => response

theorem pathParam_error {α : Type} [Param α] {r : IncomingRequest} {name : String}
    {refusal : PreparedResponse} (h : (pathParam r name : Except PreparedResponse α) = .error refusal) :
    ∃ message, refusal = .badInput message := by
  unfold pathParam at h
  cases hparam : r.requiredParam name with
  | error e =>
    rw [hparam] at h
    cases h
    exact ⟨_, rfl⟩
  | ok text =>
    rw [hparam] at h
    change readParam name "path" text = _ at h
    unfold readParam at h
    cases htext : (Param.ofText text : Except String α) with
    | error reason =>
      rw [htext] at h
      cases h
      exact ⟨_, rfl⟩
    | ok a =>
      rw [htext] at h
      cases h

/-- A handler reads the node, gives a proper response, and says that there is nothing exactly if the
given condition holds. -/
def Locates (x : Reply (StateM Memory)) (s : Memory) (missing : Prop) : Prop :=
  ∃ outcome, Reads x s outcome ∧ Sound Proper outcome ∧ ((settled outcome).code = 404 ↔ missing)

/-- An endpoint that `Reads` an entry by name and goes on with `next` answers 404 exactly if the name can be
read and `lookup` gives `none`. `hnext` says that `next` adds no 404 of its own. -/
theorem locates_named {ι : Type} [Param ι] {x : Reply (StateM Memory)} {s : Memory}
    {r : IncomingRequest} {name missing : String} {lookup : ι → Option ChainEntry}
    {next : ChainEntry → Except PreparedResponse PreparedResponse}
    (hreads : Reads x s (named missing (pathParam r name) lookup >>= next))
    (hnext : ∀ id entry, lookup id = some entry → ∃ p, next entry = .ok p ∧ p.code = 200) :
    Locates x s (∃ id, (pathParam r name : Except PreparedResponse ι) = .ok id ∧ lookup id = none) := by
  refine ⟨_, hreads, ?_⟩
  cases hid : (pathParam r name : Except PreparedResponse ι) with
  | error refusal =>
    obtain ⟨message, rfl⟩ := pathParam_error hid
    refine ⟨badInput_refuses message, fun hcode => absurd hcode (by decide : (400 : UInt16) ≠ 404), ?_⟩
    rintro ⟨id, hok, _⟩
    cases hok
  | ok id =>
    cases hlookup : lookup id with
    | none =>
      rw [named_of_none hlookup]
      exact ⟨notFound_refuses missing, fun _ => ⟨id, rfl, hlookup⟩, fun _ => rfl⟩
    | some entry =>
      obtain ⟨p, hp, hcode⟩ := hnext id entry hlookup
      have hok : (Except.ok entry >>= next) = .ok p := hp
      rw [named_of_some hlookup, hok]
      refine ⟨proper_of_success hcode, fun hmissing => ?_, ?_⟩
      · exact absurd (hcode.symm.trans hmissing) (by decide)
      · rintro ⟨other, hother, hnone⟩
        cases hother
        rw [hlookup] at hnone
        cases hnone

theorem Locates.handles {x : Reply (StateM Memory)} {missing : Prop}
    (h : Locates x c.memory missing) : Handles x c Proper := by
  obtain ⟨outcome, hreads, hsound, _⟩ := h
  exact hreads.handles hsound

theorem sound_synced (s : Memory) : Sound (fun _ => True) s.synced := by
  unfold synced
  split
  · exact syncing_refuses _
  · trivial

/-- The state of a node that runs have led to, as far as its handlers rely on it. -/
structure Chronicle.Ready (c : Chronicle) : Prop where
  linked : c.memory.Linked
  backed : c.Backed

/-- The request names a block that is not there. -/
def BlockMissing (s : Memory) (r : IncomingRequest) : Prop :=
  ∃ id : BlockId, pathParam r "block_id" = .ok id ∧ s.blockAt? id = none

/-- The request names a state that is not there. -/
def StateMissing (s : Memory) (r : IncomingRequest) : Prop :=
  ∃ id : StateId, pathParam r "state_id" = .ok id ∧ s.stateAt? id = none

theorem blockRoot_locates (s : Memory) (r : IncomingRequest) :
    Locates (Endpoint.blockRoot backend r) s (BlockMissing s r) :=
  locates_named (blockRoot_reads s r) fun _ _ _ => ⟨_, rfl, rfl⟩

theorem stateRoot_locates (s : Memory) (r : IncomingRequest) :
    Locates (Endpoint.stateRoot backend r) s (StateMissing s r) :=
  locates_named (stateRoot_reads s r) fun _ _ _ => ⟨_, rfl, rfl⟩

theorem finalityCheckpoints_locates (s : Memory) (r : IncomingRequest) :
    Locates (Endpoint.finalityCheckpoints backend r) s (StateMissing s r) :=
  locates_named (finalityCheckpoints_reads s r) fun _ _ _ => ⟨_, rfl, rfl⟩

section Ready

variable (h : c.Ready) (r : IncomingRequest)
include h

theorem exists_load {entry : ChainEntry} (hknown : c.memory.Known entry) :
    ∃ block, c.memory.load entry = .ok block := by
  obtain ⟨block, hblock⟩ := h.backed.entries hknown
  exact ⟨block, by simp [load, hblock]⟩

theorem exists_header {entry : ChainEntry} (hknown : c.memory.Known entry) :
    ∃ info, c.memory.header entry = .ok info := by
  obtain ⟨block, hblock⟩ := exists_load h hknown
  exact ⟨_, by rw [header, hblock]; rfl⟩

/-- An endpoint that loads the block that it is asked for and then succeeds. -/
theorem locates_loaded {x : Reply (StateM Memory)}
    {answer : ChainEntry → SignedBeaconBlock → PreparedResponse}
    (hreads : Reads x c.memory (do
      let entry ← c.memory.blockOf r
      return answer entry (← c.memory.load entry)))
    (hanswer : ∀ entry block, (answer entry block).code = 200) :
    Locates x c.memory (BlockMissing c.memory r) := by
  refine locates_named hreads fun id entry hentry => ?_
  obtain ⟨block, hblock⟩ := exists_load h (h.linked.known_of_blockAt? hentry)
  exact ⟨_, by rw [hblock]; rfl, hanswer entry block⟩

theorem block_locates : Locates (Endpoint.block backend r) c.memory (BlockMissing c.memory r) :=
  locates_loaded h r (block_reads c.memory r) fun _ _ => rfl

theorem blockWithVersion_locates :
    Locates (Endpoint.blockWithVersion backend r) c.memory (BlockMissing c.memory r) :=
  locates_loaded h r (blockWithVersion_reads c.memory r) fun _ _ => rfl

theorem blockAttestations_locates :
    Locates (Endpoint.blockAttestations backend r) c.memory (BlockMissing c.memory r) :=
  locates_loaded h r (blockAttestations_reads c.memory r) fun _ _ => rfl

theorem blockHeader_locates :
    Locates (Endpoint.blockHeader backend r) c.memory (BlockMissing c.memory r) := by
  refine locates_named (blockHeader_reads c.memory r) fun id entry hentry => ?_
  obtain ⟨info, hinfo⟩ := exists_header h (h.linked.known_of_blockAt? hentry)
  exact ⟨_, by rw [hinfo]; rfl, rfl⟩

theorem exists_headers {entries : List ChainEntry} (hknown : ∀ entry ∈ entries, c.memory.Known entry) :
    ∃ infos, entries.mapM c.memory.header = .ok infos :=
  exists_mapM_eq_ok fun entry hentry => exists_header h (hknown entry hentry)

theorem blockHeaders_handles : Handles (Endpoint.blockHeaders backend r) c Proper := by
  refine (blockHeaders_reads c.memory r).handles ?_
  refine (sound_queryParam r "slot").bind fun slot _ => ?_
  refine (sound_queryParam r "parent_root").bind fun parentRoot _ => ?_
  obtain ⟨infos, hinfos⟩ := exists_headers h
    fun entry (hentry : entry ∈ c.memory.search parentRoot slot) => h.linked.known_of_mem_search hentry
  rw [hinfos]
  exact proper_of_success rfl

/-- A block can always be prepared behind the head, unless the slot is not after it. -/
theorem produceBlock_error {slot : Slot} {randaoReveal : BlsSignature} {graffiti : Root}
    {e : BackendError} (herror : c.memory.produceBlock slot randaoReveal graffiti = .error e) :
    ∃ reason, e = .invalid reason := by
  obtain ⟨head, hhead⟩ := h.linked.head
  unfold Memory.produceBlock at herror
  rw [head?, hhead] at herror
  dsimp only at herror
  split at herror
  · cases herror
    exact ⟨_, rfl⟩
  · cases herror

theorem produceBlock_handles : Handles (Endpoint.produceBlock backend r) c Proper := by
  refine (produceBlock_reads c.memory r).handles ?_
  refine (sound_pathParam r "slot").bind fun slot _ => ?_
  refine (sound_queryParam r "randao_reveal").bind fun randaoReveal? _ => ?_
  cases randaoReveal? with
  | none => exact badInput_refuses _
  | some randaoReveal =>
    refine (sound_queryParam r "graffiti").bind fun graffiti _ => ?_
    refine (sound_synced c.memory).bind fun _ _ => ?_
    cases hproduce : c.memory.produceBlock slot randaoReveal (graffiti.getD .zero) with
    | ok block => exact proper_of_success rfl
    | error e =>
      obtain ⟨reason, rfl⟩ := produceBlock_error h hproduce
      exact badInput_refuses reason

end Ready

section Status

variable (c) (r : IncomingRequest)

theorem genesis_handles : Handles (Endpoint.genesis backend r) c Proper :=
  (genesis_reads c.memory r).handles (proper_of_success rfl)

theorem poolAttestations_handles : Handles (Endpoint.poolAttestations backend r) c Proper := by
  refine (poolAttestations_reads c.memory r).handles ?_
  refine (sound_queryParam r "slot").bind fun slot _ => ?_
  refine (sound_queryParam r "committee_index").bind fun index _ => ?_
  exact proper_of_success rfl

theorem poolVoluntaryExits_handles : Handles (Endpoint.poolVoluntaryExits backend r) c Proper :=
  (poolVoluntaryExits_reads c.memory r).handles (proper_of_success rfl)

theorem health_handles : Handles (Endpoint.health backend r) c Proper := by
  refine (health_reads c.memory r).handles (.inl ?_)
  unfold ofCode
  split <;> decide

theorem version_handles (text : String) : Handles (Endpoint.version text backend r) c Proper :=
  (version_reads c.memory r text).handles (proper_of_success rfl)

theorem syncing_handles : Handles (Endpoint.syncing backend r) c Proper :=
  (syncing_reads c.memory r).handles (proper_of_success rfl)

/-- The duties of an epoch are refused only because it is out of range. -/
theorem proposerDuties_error {s : Memory} {epoch : Epoch} {e : BackendError}
    (herror : s.proposerDuties epoch = .error e) : ∃ reason, e = .invalid reason := by
  unfold Memory.proposerDuties at herror
  dsimp only at herror
  split at herror
  · cases herror
    exact ⟨_, rfl⟩
  · cases herror

theorem proposerDuties_handles : Handles (Endpoint.proposerDuties backend r) c Proper := by
  refine (proposerDuties_reads c.memory r).handles ?_
  refine (sound_pathParam r "epoch").bind fun epoch _ => ?_
  refine (sound_synced c.memory).bind fun _ _ => ?_
  cases hduties : c.memory.proposerDuties epoch with
  | ok duties => exact proper_of_success rfl
  | error e =>
    obtain ⟨reason, rfl⟩ := proposerDuties_error hduties
    exact badInput_refuses reason

end Status

end BeaconApi.Memory
