import BeaconApi.Client.Chain
import BeaconApi.Client.Duties
import BeaconApi.Client.Pool
import BeaconApi.Client.Status
import BeaconApi.Client.Transport
import BeaconApi.Proofs.Client.Judgement

namespace BeaconApi

namespace Client

variable {α : Type} [Payload α] {code : UInt16} {bytes : ByteArray}

/-- A success that cannot be read is an error without a status code. -/
theorem status_of_unread_success (h : 200 ≤ code ∧ code ≤ 299) {e : ApiError}
    (hdecode : ((Outcome.received code bytes).decode : Except ApiError (UInt16 × α)) = .error e) :
    e.status? = none := by
  cases hblank : Body.isBlank bytes with
  | true =>
    rw [Outcome.decode_of_isBlank h hblank] at hdecode
    cases hdecode
    rfl
  | false =>
    rw [Outcome.decode_of_contents h hblank] at hdecode
    cases hread : (Payload.decode bytes : Wire.Decoded α) with
    | ok x =>
      rw [hread] at hdecode
      cases hdecode
    | error fault =>
      rw [hread] at hdecode
      cases hdecode
      rfl

/-- A lookup reads an answer as any call does, except for the status 404. -/
theorem found_received (code : UInt16) (bytes : ByteArray) (α : Type) [Payload α] :
    (found (.received code bytes) : Except ApiError (Option α)) =
      if code = 404 then .ok none
      else ((Outcome.received code bytes).decode : Except ApiError (UInt16 × α)).map fun read => some read.2 := by
  unfold found
  by_cases h : 200 ≤ code ∧ code ≤ 299
  · have hcode : code ≠ 404 := by
      rintro rfl
      exact absurd h (by decide)
    rw [if_neg hcode]
    cases hdecode : ((Outcome.received code bytes).decode : Except ApiError (UInt16 × α)) with
    | ok read => rfl
    | error e =>
      have hstatus := status_of_unread_success h hdecode
      exact if_neg (by simp [hstatus])
  · obtain ⟨e, hrefuses, hdecode, -⟩ := Outcome.exists_refusal h bytes
    rw [hdecode α]
    dsimp only
    rw [hrefuses.status]
    simp only [Option.some.injEq]
    rfl

end Client

/-- How a call reads an answer: as a payload, of which it keeps a part. -/
structure Part (β : Type) where
  Sent : Type
  [payload : Payload Sent]
  keep : Sent → β

namespace Part

attribute [instance] Part.payload

variable {β : Type} (part : Part β)

/-- A body holds a payload with the wanted part. -/
def Carries (bytes : ByteArray) (x : β) : Prop :=
  ∃ sent : part.Sent, Payload.decode bytes = .ok sent ∧ part.keep sent = x

/-- What a call makes of an outcome if there may be nothing. -/
def looked (outcome : Outcome) : Except ApiError (Option β) :=
  (Client.found outcome : Except ApiError (Option part.Sent)).map (Option.map part.keep)

/-- What a call makes of an outcome if there must be something. -/
def fetched (outcome : Outcome) : Except ApiError β :=
  (outcome.decode : Except ApiError (UInt16 × part.Sent)).map fun read => part.keep read.2

variable {part} {code : UInt16} {bytes : ByteArray}

theorem looked_received : part.looked (.received code bytes) =
    if code = 404 then .ok none else (part.fetched (.received code bytes)).map some := by
  unfold looked fetched
  rw [Client.found_received]
  split
  · rfl
  · cases ((Outcome.received code bytes).decode : Except ApiError (UInt16 × part.Sent)) <;> rfl

/-- What a call finds in an answer: the wanted part of the payload in the body of a success. -/
theorem fetched_eq_ok_iff {x : β} : part.fetched (.received code bytes) = .ok x ↔
    (200 ≤ code ∧ code ≤ 299) ∧ Body.isBlank bytes = false ∧ part.Carries bytes x := by
  unfold fetched Carries
  rw [map_eq_ok_iff]
  constructor
  · rintro ⟨⟨c, sent⟩, hdecode, rfl⟩
    obtain ⟨-, hsuccess, hblank, hread⟩ := Outcome.decode_eq_ok_iff.mp hdecode
    exact ⟨hsuccess, hblank, sent, hread, rfl⟩
  · rintro ⟨hsuccess, hblank, sent, hread, rfl⟩
    exact ⟨(code, sent), Outcome.decode_eq_ok_iff.mpr ⟨rfl, hsuccess, hblank, hread⟩, rfl⟩

/-- An answer without success is an error that repeats the status. -/
theorem fetched_of_refusal (h : ¬ (200 ≤ code ∧ code ≤ 299)) :
    ∃ e : ApiError, part.fetched (.received code bytes) = .error e ∧ e.status? = some code := by
  obtain ⟨e, hrefuses, hdecode, -⟩ := Outcome.exists_refusal h bytes
  refine ⟨e, ?_, hrefuses.status⟩
  unfold fetched
  rw [hdecode part.Sent]
  rfl

theorem fetched_failed (e : ApiError) : part.fetched (.failed e) = .error e := rfl

/-- Keeping less of an answer does not change how it is judged. -/
theorem map_looked {γ : Type} (keep : β → γ) (outcome : Outcome) :
    (part.looked outcome).map (Option.map keep) =
      (⟨part.Sent, fun sent => keep (part.keep sent)⟩ : Part γ).looked outcome := by
  unfold looked
  cases hfound : (Client.found outcome : Except ApiError (Option part.Sent)) with
  | error e => rfl
  | ok found => cases found <;> rfl

theorem map_fetched {γ : Type} (keep : β → γ) (outcome : Outcome) :
    (part.fetched outcome).map keep =
      (⟨part.Sent, fun sent => keep (part.keep sent)⟩ : Part γ).fetched outcome := by
  unfold fetched
  cases (outcome.decode : Except ApiError (UInt16 × part.Sent)) <;> rfl

/-- An error without a status code is never taken for absence. -/
theorem looked_failed {e : ApiError} (h : e.status? = none) : part.looked (.failed e) = .error e := by
  have hfound : (Client.found (.failed e) : Except ApiError (Option part.Sent)) = .error e :=
    if_neg (by simp [h])
  unfold looked
  rw [hfound]
  rfl

/-- What a lookup makes of an answer: there is nothing exactly if the status is 404, there is something
exactly if the answer is a success with the wanted part in its body, and everything else is an error. -/
structure Looks (part : Part β) (code : UInt16) (bytes : ByteArray) (result : Except ApiError (Option β)) :
    Prop where
  absent : result = .ok none ↔ code = 404
  present (x : β) : result = .ok (some x) ↔
    (200 ≤ code ∧ code ≤ 299) ∧ Body.isBlank bytes = false ∧ part.Carries bytes x
  error : (∃ e, result = .error e) ↔ code ≠ 404 ∧
    ¬ ((200 ≤ code ∧ code ≤ 299) ∧ Body.isBlank bytes = false ∧ ∃ x, part.Carries bytes x)

theorem looks_received : part.Looks code bytes (part.looked (.received code bytes)) := by
  by_cases hcode : code = 404
  · have hlooked : part.looked (.received code bytes) = .ok none := looked_received.trans (if_pos hcode)
    have hrefused : ¬ (200 ≤ code ∧ code ≤ 299) := by
      rw [hcode]
      decide
    rw [hlooked]
    exact ⟨by simp [hcode], fun x => by simp [hrefused], by simp [hcode]⟩
  · have hlooked : part.looked (.received code bytes) = (part.fetched (.received code bytes)).map some :=
      looked_received.trans (if_neg hcode)
    have hfetched (x : β) := @fetched_eq_ok_iff _ part code bytes x
    rw [hlooked]
    cases hresult : part.fetched (.received code bytes) with
    | ok found =>
      rw [hresult] at hfetched
      have hfound := (hfetched found).mp rfl
      refine ⟨by simp [Except.map, hcode], fun x => by simp [Except.map, ← hfetched x], ?_⟩
      exact iff_of_false nofun fun ⟨_, hnot⟩ => hnot ⟨hfound.1, hfound.2.1, found, hfound.2.2⟩
    | error e =>
      rw [hresult] at hfetched
      refine ⟨by simp [Except.map, hcode], fun x => by simp [Except.map, ← hfetched x], ?_⟩
      refine iff_of_true ⟨e, rfl⟩ ⟨hcode, fun ⟨hsuccess, hblank, x, hx⟩ => ?_⟩
      cases (hfetched x).mpr ⟨hsuccess, hblank, hx⟩

end Part

variable {m : Type → Type} [Monad m]

/-- The calls for something that may not be there. -/
inductive Lookup
  | genesis
  | blockRoot (id : BlockId)
  | block (id : BlockId)
  | blockWithVersion (id : BlockId)
  | blockAttestations (id : BlockId)
  | blockHeader (id : BlockId)
  | stateRoot (id : StateId)
  | finalityCheckpoints (id : StateId)

namespace Lookup

/-- What a lookup is for. -/
@[reducible] def Found : Lookup → Type
  | genesis => GenesisResponse
  | blockRoot _ | stateRoot _ => Root
  | block _ => SignedBeaconBlock
  | blockWithVersion _ => VersionedSignedBeaconBlock
  | blockAttestations _ => List Attestation
  | blockHeader _ => BeaconBlockHeaderAndInfo
  | finalityCheckpoints _ => FinalityCheckpoints

/-- Make a lookup. -/
def perform (client : Client m) : (l : Lookup) → m (Except ApiError (Option l.Found))
  | genesis => client.genesis
  | blockRoot id => client.blockRoot id
  | block id => client.block id
  | blockWithVersion id => client.blockWithVersion id
  | blockAttestations id => client.blockAttestations id
  | blockHeader id => client.blockHeader id
  | stateRoot id => client.stateRoot id
  | finalityCheckpoints id => client.finalityCheckpoints id

/-- What a lookup wants of an answer: all but the block that names its fork is sent under the key `data`. -/
def part : (l : Lookup) → Part l.Found
  | genesis => ⟨Envelope GenesisResponse, Envelope.data⟩
  | blockRoot _ | stateRoot _ => ⟨Envelope RootResponse, fun sent => sent.data.root⟩
  | block _ => ⟨Envelope SignedBeaconBlock, Envelope.data⟩
  | blockWithVersion _ => ⟨VersionedSignedBeaconBlock, id⟩
  | blockAttestations _ => ⟨Envelope (List Attestation), Envelope.data⟩
  | blockHeader _ => ⟨Envelope BeaconBlockHeaderAndInfo, Envelope.data⟩
  | finalityCheckpoints _ => ⟨Envelope FinalityCheckpoints, Envelope.data⟩

end Lookup

/-- The calls for something that must be there. -/
inductive Fetch
  | blockHeaders (slot : Option Slot) (parentRoot : Option Root)
  | poolAttestations (slot : Option Slot) (committeeIndex : Option CommitteeIndex)
  | poolVoluntaryExits
  | version
  | syncing
  | produceBlock (slot : Slot) (randaoReveal : BlsSignature) (graffiti : Option Root)
  | proposerDuties (epoch : Epoch)

namespace Fetch

/-- What a fetch is for. -/
@[reducible] def Found : Fetch → Type
  | blockHeaders _ _ => List BeaconBlockHeaderAndInfo
  | poolAttestations _ _ => List Attestation
  | poolVoluntaryExits => List SignedVoluntaryExit
  | version => String
  | syncing => SyncingStatus
  | produceBlock _ _ _ => Phase0.BeaconBlock
  | proposerDuties _ => DependentProposerDuty

/-- Make a fetch. -/
def perform (client : Client m) : (f : Fetch) → m (Except ApiError f.Found)
  | blockHeaders slot parentRoot => client.blockHeaders slot parentRoot
  | poolAttestations slot committeeIndex => client.poolAttestations slot committeeIndex
  | poolVoluntaryExits => client.poolVoluntaryExits
  | version => client.version
  | syncing => client.syncing
  | produceBlock slot randaoReveal graffiti => client.produceBlock slot randaoReveal graffiti
  | proposerDuties epoch => client.proposerDuties epoch

/-- What a fetch wants of an answer. -/
def part : (f : Fetch) → Part f.Found
  | blockHeaders _ _ => ⟨Envelope (List BeaconBlockHeaderAndInfo), Envelope.data⟩
  | poolAttestations _ _ => ⟨Envelope (List Attestation), Envelope.data⟩
  | poolVoluntaryExits => ⟨Envelope (List SignedVoluntaryExit), Envelope.data⟩
  | version => ⟨Envelope NodeVersionResponse, fun sent => sent.data.version⟩
  | syncing => ⟨Envelope SyncingStatus, Envelope.data⟩
  | produceBlock _ _ _ => ⟨Envelope Phase0.BeaconBlock, Envelope.data⟩
  | proposerDuties _ => ⟨DependentProposerDuty, id⟩

end Fetch

section Calls

variable [LawfulMonad m] (client : Client m)

namespace Client

variable {α β : Type} [Payload α]

theorem lookup_eq (r : Request) : client.lookup r = (⟨α, id⟩ : Part α).looked <$> client.request r := by
  unfold lookup
  rw [bind_pure_comp]
  refine congrArg (· <$> client.request r) (funext fun outcome => ?_)
  unfold Part.looked
  cases (found outcome : Except ApiError (Option α)) with
  | error e => rfl
  | ok found => cases found <;> rfl

theorem lookupData_eq (r : Request) : client.lookupData r =
    (⟨Envelope α, Envelope.data⟩ : Part α).looked <$> client.request r := by
  unfold lookupData
  simp only [lookup_eq, bind_pure_comp, Functor.map_map, Part.map_looked]
  rfl

theorem fetch_eq (r : Request) : client.fetch r = (⟨α, id⟩ : Part α).fetched <$> client.request r := by
  unfold fetch
  rw [bind_pure_comp]
  rfl

theorem fetchData_eq (r : Request) : client.fetchData r =
    (⟨Envelope α, Envelope.data⟩ : Part α).fetched <$> client.request r := by
  unfold fetchData
  simp only [fetch_eq, bind_pure_comp, Functor.map_map, Part.map_fetched]
  rfl

section Kept

variable (r : Request) (keep : α → β)

/-- A part of what is under the key `data`. -/
theorem lookupData_kept_eq :
    (do return (← client.lookupData r).map (Option.map keep)) =
      (⟨Envelope α, fun sent => keep sent.data⟩ : Part β).looked <$> client.request r := by
  simp only [lookupData_eq, bind_pure_comp, Functor.map_map, Part.map_looked]

theorem fetchData_kept_eq :
    (do return (← client.fetchData r).map keep) =
      (⟨Envelope α, fun sent => keep sent.data⟩ : Part β).fetched <$> client.request r := by
  simp only [fetchData_eq, bind_pure_comp, Functor.map_map, Part.map_fetched]

end Kept

end Client

/-- A lookup makes one request, and judges its outcome by what it wants of an answer. -/
theorem Lookup.perform_eq (l : Lookup) :
    ∃ path, l.perform client = l.part.looked <$> client.request (.get path) := by
  cases l with
  | genesis => exact ⟨_, client.lookupData_eq _⟩
  | blockRoot id => exact ⟨_, client.lookupData_kept_eq _ RootResponse.root⟩
  | block id => exact ⟨_, client.lookupData_eq _⟩
  | blockWithVersion id => exact ⟨_, client.lookup_eq _⟩
  | blockAttestations id => exact ⟨_, client.lookupData_eq _⟩
  | blockHeader id => exact ⟨_, client.lookupData_eq _⟩
  | stateRoot id => exact ⟨_, client.lookupData_kept_eq _ RootResponse.root⟩
  | finalityCheckpoints id => exact ⟨_, client.lookupData_eq _⟩

theorem Fetch.perform_eq (f : Fetch) : ∃ r, f.perform client = f.part.fetched <$> client.request r := by
  cases f with
  | blockHeaders slot parentRoot => exact ⟨_, client.fetchData_eq _⟩
  | poolAttestations slot committeeIndex => exact ⟨_, client.fetchData_eq _⟩
  | poolVoluntaryExits => exact ⟨_, client.fetchData_eq _⟩
  | version => exact ⟨_, client.fetchData_kept_eq _ NodeVersionResponse.version⟩
  | syncing => exact ⟨_, client.fetchData_eq _⟩
  | produceBlock slot randaoReveal graffiti => exact ⟨_, client.fetchData_eq _⟩
  | proposerDuties epoch => exact ⟨_, client.fetch_eq _⟩

/-- What a lookup makes of what comes over a transport. -/
def Lookup.reached (l : Lookup) : Except String (UInt16 × ByteArray) → Except ApiError (Option l.Found)
  | .ok (code, bytes) => l.part.looked (.received code bytes)
  | .error reason => .error (.clientUsage ("failed to execute GET request: " ++ reason))

/-- A lookup over a transport is sent, and if no answer comes back it fails with the reason. -/
theorem Lookup.perform_connect (l : Lookup) (node : HttpClient) (transport : Transport m) :
    ∃ url, l.perform (node.connect transport) = l.reached <$> transport.send .get url none := by
  obtain ⟨path, hperform⟩ := l.perform_eq (node.connect transport)
  refine ⟨dropTrailingSlashes node.address ++ "/" ++ dropLeadingSlashes path, ?_⟩
  have hrequest : (node.connect transport).request (.get path) =
      HttpClient.outcome .get <$> transport.send .get _ none := rfl
  rw [hperform, hrequest, Functor.map_map]
  refine congrArg (· <$> _) (funext fun sent => ?_)
  cases sent with
  | ok answer => rfl
  | error reason => exact Part.looked_failed rfl

/-- Each `Lookup` takes an outcome for `none` exactly if its status is 404, and each `Fetch` reports 404 like
any other status without success. The client is arbitrary, in any monad, because both judge one `Outcome`;
`connect` fixes the URL at which it is asked for. -/
theorem Client.only_404_is_absence :
    (∀ l : Lookup,
      (∃ path, l.perform client = l.part.looked <$> client.request (.get path)) ∧
      (∀ code bytes, l.part.Looks code bytes (l.part.looked (.received code bytes))) ∧
      (∀ reason, l.part.looked (.failed (.clientUsage reason)) = .error (.clientUsage reason) ∧
        l.part.looked (.failed (.encoding reason)) = .error (.encoding reason)) ∧
      ∀ (node : HttpClient) (transport : Transport m), ∃ url,
        l.perform (node.connect transport) = l.reached <$> transport.send .get url none) ∧
    ∀ f : Fetch,
      (∃ r, f.perform client = f.part.fetched <$> client.request r) ∧
      (∀ code bytes, ¬ (200 ≤ code ∧ code ≤ 299) →
        ∃ e : ApiError, f.part.fetched (.received code bytes) = .error e ∧ e.status? = some code) ∧
      ∀ e, f.part.fetched (.failed e) = .error e := by
  refine ⟨fun l => ⟨l.perform_eq client, fun _ _ => Part.looks_received, fun reason => ?_, ?_⟩, fun f => ?_⟩
  · exact ⟨Part.looked_failed rfl, Part.looked_failed rfl⟩
  · exact l.perform_connect
  · exact ⟨f.perform_eq client, fun _ _ h => Part.fetched_of_refusal h, Part.fetched_failed⟩

end Calls

/-- A client that is told 404 with a body that is not even text finds no block, while the version of the
node is an error to it. -/
theorem Client.absence_without_text :
    let client : Client Id := ⟨fun _ => .received 404 ⟨#[0xff]⟩⟩
    client.block .head = .ok none ∧ ∃ e : ApiError, client.version = .error e ∧ e.status? = some 404 := by
  intro client
  obtain ⟨hlookups, hfetches⟩ := only_404_is_absence client
  obtain ⟨⟨_, hblock⟩, hlooks, -, -⟩ := hlookups (.block .head)
  obtain ⟨⟨_, hversion⟩, hrefusal, -⟩ := hfetches .version
  refine ⟨?_, ?_⟩
  · exact hblock.trans ((hlooks 404 ⟨#[0xff]⟩).absent.mpr rfl)
  · obtain ⟨e, he, hstatus⟩ := hrefusal 404 ⟨#[0xff]⟩ (by decide)
    exact ⟨e, hversion.trans he, hstatus⟩

end BeaconApi
