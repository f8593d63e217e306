import BeaconApi.Client.Pool
import BeaconApi.Proofs.Json.Extent
import BeaconApi.Proofs.Node.Batches

namespace BeaconApi

namespace BatchKind

open Memory (backend)
open PreparedResponse

/-- Submit a batch. -/
def submit (client : Client (StateM Memory)) : (kind : BatchKind) → List kind.Item →
    StateM Memory (Except ApiError Unit)
  | attestations => client.submitAttestations
  | syncCommitteeMessages => client.submitSyncCommitteeMessages

variable (kind : BatchKind) (s : Memory) {items : List kind.Item}

theorem submit_run {client : Client (StateM Memory)} {s' : Memory} {outcome : Outcome}
    (h : (client.request (.post kind.path items)).run s = (outcome, s')) :
    (kind.submit client items).run s = (outcome.discard.map fun _ => (), s') := by
  have hsubmit : kind.submit client items =
      (do return (← client.send (.post kind.path items)).map fun _ => ()) := by
    cases kind <;> rfl
  rw [hsubmit, StateT.run_bind, Client.send_run h]
  rfl

/-- The request that posts a batch. -/
def request (items : List kind.Item) : Http.Request := ⟨"POST", kind.path, (Payload.encode items).toUTF8⟩

theorem decodeContents_request (items : List kind.Item) :
    Body.decodeContents (kind.request items).body = .ok items := by
  have hdepth := kind.payload.shape_depth
  exact (Body.ReadsBack.of_list kind.payload.shape_regular (by omega) items).decodeContents

theorem size_request_le (items : List kind.Item) :
    (kind.request items).body.size ≤ (Payload.toJson items).extent :=
  (Payload.toJson items).size_render_le

/-- There are fewer items in a body that is not too large than there are numbers for their positions. -/
theorem length_le_size {bytes : ByteArray} (hsize : bytes.size ≤ Router.maxBodySize)
    (h : Body.decodeContents bytes = .ok items) : items.length ≤ UInt64.size := by
  have hlength := Payload.length_le_of_decode (Body.decode_of_decodeContents h)
  have hnumbers : Router.maxBodySize + 1 ≤ UInt64.size := by decide
  omega

/-- What a node answers to a batch. -/
theorem answer_batch (version : String) {request : Http.Request} (hposts : request.Posts kind.path)
    (hsize : request.body.size ≤ Router.maxBodySize) (hbody : Body.decodeContents request.body = .ok items) :
    ∃ response,
      (Node.answer backend version request).run s = (response, kind.take s (kind.accepted s items)) ∧
      kind.Told s items
        (fun failures => response.status = 400 ∧
          response.Explains (.indexed ⟨.plain 400 "cannot store/publish", failures⟩))
        (response.status = 503 ∧ response.Explains (.plain (.plain 503 kind.unsent)))
        (response.status = 200) := by
  have hrun := (kind.route version).post_run hposts hsize fun r hr => kind.endpoint_run s hr hbody
  have hlength := kind.length_le_size hsize hbody
  refine ⟨_, hrun, told_of_reply hlength ?_ ?_ ?_⟩
  · intro failures hreply
    have hcode : Http.isStatus 400 = true := by decide
    rw [hreply]
    exact ⟨write_status_of_isStatus hcode, write_explains (badInputs_explains _ failures) hcode⟩
  · intro hreply
    rw [hreply]
    exact write_error 503 kind.unsent (by decide)
  · intro hreply
    rw [hreply]
    exact write_status_of_isStatus (by decide : Http.isStatus 200 = true)

/-- What a client is told that submits a batch. -/
theorem submit_batch (version address : String) (hsize : (kind.request items).body.size ≤ Router.maxBodySize) :
    ∃ result,
      (kind.submit (Node.direct version address) items).run s =
        (result, kind.take s (kind.accepted s items)) ∧
      kind.Told s items
        (fun failures => ∃ e, result = .error e ∧ e.failures? = some failures)
        (∃ e, result = .error e ∧ e.isSyncing = true)
        (result = .ok ()) := by
  have hbody := kind.decodeContents_request items
  have hrequest := (kind.route version).submit_run address hsize fun r hr => kind.endpoint_run s hr hbody
  have hlength := kind.length_le_size hsize hbody
  refine ⟨_, kind.submit_run s hrequest, told_of_reply hlength ?_ ?_ ?_⟩
  · intro failures hreply
    have hdiscard := discard_received_of_explains 400 (badInputs_explains "cannot store/publish" failures)
      rfl (by decide) (by decide)
    rw [hreply]
    exact ⟨_, congrArg _ hdiscard, rfl⟩
  · intro hreply
    have hdiscard := discard_received_of_explains 503 (error_explains 503 kind.unsent) rfl (by decide)
      (by decide)
    rw [hreply]
    exact ⟨_, congrArg _ hdiscard, rfl⟩
  · intro hreply
    rw [hreply]
    exact congrArg _ (discard_received_of_ok rfl)

/-- The items of a posted batch are taken one by one by `acceptIndexed`: those in `kind.accepted` go to the
pool, and to `published` unless `syncing`, and `kind.Told` states the answer at the node and at a client. The
state is arbitrary, reachable or not, since acceptance looks at `knows` alone. The premises on sizes set the 413
aside, for the request and for what the client itself would send. -/
theorem batch_accepted_item_by_item (version : String) :
    (∀ request : Http.Request, request.Posts kind.path → request.body.size ≤ Router.maxBodySize →
      (∀ items : List kind.Item, Body.decodeContents request.body = .ok items → ∃ response,
        (Node.answer backend version request).run s = (response, kind.take s (kind.accepted s items)) ∧
        kind.Told s items
          (fun failures => response.status = 400 ∧
            response.Explains (.indexed ⟨.plain 400 "cannot store/publish", failures⟩))
          (response.status = 503 ∧ response.Explains (.plain (.plain 503 kind.unsent)))
          (response.status = 200)) ∧
      ∀ e : ApiError, (Body.decodeContents request.body : Except ApiError (List kind.Item)) = .error e →
        ∃ response, (Node.answer backend version request).run s = (response, s) ∧
          response.status = 400 ∧ response.Explains (.plain (.plain 400 e.message))) ∧
    ∀ (address : String) (items : List kind.Item),
      (kind.request items).body.size ≤ Router.maxBodySize → ∃ result,
        (kind.submit (Node.direct version address) items).run s =
          (result, kind.take s (kind.accepted s items)) ∧
        kind.Told s items
          (fun failures => ∃ e, result = .error e ∧ e.failures? = some failures)
          (∃ e, result = .error e ∧ e.isSyncing = true)
          (result = .ok ()) := by
  constructor
  · intro request hposts hsize
    constructor
    · intro items hbody
      exact kind.answer_batch s version hposts hsize hbody
    · intro e herror
      have hrun := (kind.route version).post_unreadable hposts kind.endpoint_eq hsize herror s
      obtain ⟨hstatus, hexplains⟩ := write_error 400 e.message (by decide)
      exact ⟨_, hrun, hstatus, hexplains⟩
  · intro address items hsize
    exact kind.submit_batch s version address hsize

/-- An attestation with a target. -/
def voteFor (root : Root) : Attestation :=
  { (default : Attestation) with
    data := { (default : AttestationData) with target := { (default : Checkpoint) with root } } }

/-- Two equal attestations for the first block, and one between them for a block that nobody knows. -/
def mixedVotes : List attestations.Item := [voteFor genesisRoot, voteFor .zero, voteFor genesisRoot]

/-- The forked node takes the two equal attestations, and reports the one between them. -/
theorem forked_takes_mixedVotes :
    (∃ response s', (Node.answer backend "" (attestations.request mixedVotes)).run
        Memory.Chronicle.forked.memory = (response, s') ∧
      response.status = 400 ∧ s'.attestations = [voteFor genesisRoot, voteFor genesisRoot]) ∧
    (∃ response, (Node.answer backend "" ⟨"POST", attestations.path, .empty⟩).run
        Memory.Chronicle.forked.memory = (response, Memory.Chronicle.forked.memory) ∧
      response.status = 400) ∧
    ∃ e failures s', (attestations.submit (Node.direct "" "") mixedVotes).run Memory.Chronicle.forked.memory =
        (.error e, s') ∧
      s'.published.attestations = [voteFor genesisRoot, voteFor genesisRoot] ∧
      e.failures? = some failures ∧
        ⟨1, "unknown target root " ++ (Bytes.zero : Root).display⟩ ∈ failures := by
  obtain ⟨hposted, hsubmitted⟩ := batch_accepted_item_by_item attestations Memory.Chronicle.forked.memory ""
  have hsize : (attestations.request mixedVotes).body.size ≤ Router.maxBodySize :=
    Nat.le_trans (attestations.size_request_le mixedVotes) (by decide +kernel)
  have hposts (body : ByteArray) := (attestations.route "").isPath.posts body
  have hrefused : attestations.accepted Memory.Chronicle.forked.memory mixedVotes ≠ mixedVotes := by
    decide +kernel
  refine ⟨?_, ?_, ?_⟩
  · obtain ⟨hread, _⟩ := hposted (attestations.request mixedVotes) (hposts _) hsize
    obtain ⟨response, hrun, htold⟩ := hread mixedVotes (attestations.decodeContents_request mixedVotes)
    obtain ⟨_, _, hstatus, _⟩ := htold.of_refused hrefused
    exact ⟨response, _, hrun, hstatus, by decide +kernel⟩
  · obtain ⟨_, hunread⟩ := hposted _ (hposts .empty) (Nat.zero_le _)
    obtain ⟨response, hrun, hstatus, _⟩ := hunread _ Body.decodeContents_empty
    exact ⟨response, hrun, hstatus⟩
  · obtain ⟨result, hrun, htold⟩ := hsubmitted "" mixedVotes hsize
    obtain ⟨failures, hreports, e, rfl, hfailures⟩ := htold.of_refused hrefused
    refine ⟨e, failures, _, hrun, by decide +kernel, hfailures, (hreports.mem_iff _).mpr ?_⟩
    exact ⟨voteFor .zero, rfl, by decide +kernel, rfl⟩

end BatchKind

end BeaconApi
