import BeaconApi.Proofs.Concurrent.Handlers

namespace BeaconApi

open Memory (exitOutcome exitOutcome_status settled submissionOutcome)
open PreparedResponse

/-- The failures that a response lists. -/
def Http.Response.failures (response : Http.Response) : List ItemFailure :=
  if response.status = 400 then
    ((Payload.decode response.body).toOption.bind ErrorBody.failures?).getD []
  else []

theorem Http.Response.failures_of_indexed {response : Http.Response} {report : BatchError}
    (hstatus : response.status = 400) (h : response.Explains (.indexed report)) :
    response.failures = report.failures := by
  rw [failures, if_pos hstatus, h.decode_body]
  rfl

section Listed

variable {α β : Type}

theorem unlisted_nil_left (items : List α) : unlisted [] items = items := by
  have hall : (items.zipIdx.filter fun _ => true) = items.zipIdx := List.filter_eq_self.mpr fun _ _ => rfl
  change (items.zipIdx.filter fun _ => true).map Prod.fst = items
  rw [hall, List.zipIdx_map_fst]

theorem unlisted_map (failures : List ItemFailure) (f : α → β) (items : List α) :
    unlisted failures (items.map f) = (unlisted failures items).map f := by
  rw [unlisted, List.zipIdx_map, List.filter_map, List.map_map, unlisted, List.map_map]
  rfl

theorem mem_of_mem_unlisted {failures : List ItemFailure} {items : List α} {item : α}
    (h : item ∈ unlisted failures items) : item ∈ items := by
  obtain ⟨⟨_, position⟩, hmem, rfl⟩ := List.mem_map.mp h
  exact List.fst_mem_of_mem_zipIdx (List.mem_of_mem_filter hmem)

theorem batchReply_status (failures : List ItemFailure) (unsent : Bool) (syncing done : String) :
    (Endpoint.batchReply ⟨failures, unsent⟩ syncing done).write.1.status =
      if failures = [] then if unsent then 503 else 200 else 400 := by
  have hrange : ∀ code ∈ [200, 400, 503], Http.isStatus code := by simp [Http.isStatus]
  have hcode : (Endpoint.batchReply ⟨failures, unsent⟩ syncing done).code =
      if failures = [] then if unsent then 503 else 200 else 400 := by
    cases failures <;> cases unsent <;> rfl
  rw [write_status_of_isStatus, hcode]
  rw [hcode]
  cases failures <;> cases unsent <;> exact hrange _ (by simp)

/-- The reply to a batch lists its failures. -/
theorem failures_batchReply (failures : List ItemFailure) (unsent : Bool) (syncing done : String) :
    (Endpoint.batchReply ⟨failures, unsent⟩ syncing done).write.1.failures = failures := by
  have hstatus := batchReply_status failures unsent syncing done
  cases failures with
  | nil =>
    refine if_neg ?_
    rw [hstatus, if_pos rfl]
    cases unsent <;> decide
  | cons failure failures =>
    rw [if_neg (List.cons_ne_nil _ _)] at hstatus
    have hexplains := write_explains (badInputs_explains "cannot store/publish" (failure :: failures))
      (by decide : Http.isStatus 400 = true)
    exact Http.Response.failures_of_indexed hstatus hexplains

/-- The reply to a batch is a success only if there are no failures and everything was passed on. -/
theorem of_batchReply_status {failures : List ItemFailure} {unsent : Bool} {syncing done : String}
    (h : (Endpoint.batchReply ⟨failures, unsent⟩ syncing done).write.1.status = 200) :
    failures = [] ∧ unsent = false := by
  rw [batchReply_status] at h
  split at h
  next hnone =>
    cases unsent with
    | true => cases h
    | false => exact ⟨hnone, rfl⟩
  next => cases h

end Listed

theorem passedOn_of_any_eq_false {offers : List (Gossip × Bool)} (h : offers.any Prod.snd = false) :
    passedOn offers = offers.map Prod.fst := by
  rw [passedOn, List.filter_eq_self.mpr]
  intro offer hmem
  have hsent := List.any_eq_false.mp h offer hmem
  simpa using hsent

/-- What a body holds that is submitted. -/
def SubmissionKind.read : SubmissionKind → ByteArray → Except ApiError (List Gossip)
  | batch kind, bytes => (Body.decodeContents bytes).map fun items : List kind.Item => items.map kind.gossip
  | voluntaryExit, bytes => (Body.decodeContents bytes).map fun exit => [.voluntaryExit exit]
  | block, bytes => (Body.decodeContents bytes).map fun b => [.block b]

/-- How an item is submitted. -/
def Gossip.kind : Gossip → SubmissionKind
  | block _ => .block
  | attestation _ => .batch .attestations
  | voluntaryExit _ => .voluntaryExit
  | syncCommitteeMessage _ => .batch .syncCommitteeMessages

section Held

variable {kind : SubmissionKind} {bytes : ByteArray} {held : List Gossip} (hread : kind.read bytes = .ok held)
include hread

/-- A body holds items of the kind that it is submitted as. -/
theorem SubmissionKind.kind_of_mem_read {item : Gossip} (hmem : item ∈ held) : item.kind = kind := by
  cases kind with
  | batch kind =>
    obtain ⟨items, _, rfl⟩ := map_eq_ok_iff.mp hread
    obtain ⟨held, _, rfl⟩ := List.mem_map.mp hmem
    cases kind <;> rfl
  | voluntaryExit =>
    obtain ⟨exit, _, rfl⟩ := map_eq_ok_iff.mp hread
    rw [List.mem_singleton.mp hmem, Gossip.kind]
  | block =>
    obtain ⟨b, _, rfl⟩ := map_eq_ok_iff.mp hread
    rw [List.mem_singleton.mp hmem, Gossip.kind]

/-- Only a body that is posted as an exit holds one. -/
theorem SubmissionKind.exit_of_mem_read {exit : SignedVoluntaryExit} (hmem : .voluntaryExit exit ∈ held) :
    kind = .voluntaryExit ∧ Body.decodeContents bytes = .ok exit := by
  obtain rfl := kind_of_mem_read hread hmem
  obtain ⟨other, hother, rfl⟩ := map_eq_ok_iff.mp hread
  cases List.mem_singleton.mp hmem
  exact ⟨rfl, hother⟩

/-- Only a body that is posted as a block holds one. -/
theorem SubmissionKind.block_of_mem_read {b : SignedBeaconBlock} (hmem : .block b ∈ held) :
    kind = .block ∧ Body.decodeContents bytes = .ok b := by
  obtain rfl := kind_of_mem_read hread hmem
  obtain ⟨other, hother, rfl⟩ := map_eq_ok_iff.mp hread
  cases List.mem_singleton.mp hmem
  exact ⟨rfl, hother⟩

end Held

/-- A handler does nothing about a body that it cannot read. -/
theorem SubmissionKind.unreadable_ends {kind : SubmissionKind} {r : IncomingRequest} {bytes : ByteArray}
    {deeds : List Deed} {outcome : Except PreparedResponse PreparedResponse} {e : ApiError}
    (hr : r.body = some bytes) (hread : kind.read bytes = .error e)
    (h : (kind.endpoint Task.backend r).run.Ends deeds outcome) : deeds = [] := by
  have hnothing {α : Type} [Payload α] {f : α → List Gossip} {g : α → Reply Task}
      (hread : (Body.decodeContents bytes).map f = .error e)
      (h : (liftM (readBody r : Except PreparedResponse α) >>= g).run.Ends deeds outcome) : deeds = [] := by
    cases hbody : (Body.decodeContents bytes : Except ApiError α) with
    | error e => exact (h.of_unreadable hr hbody).1
    | ok x =>
      rw [hbody] at hread
      cases hread
  cases kind with
  | batch kind =>
    rw [kind.endpoint_task_eq] at h
    exact hnothing hread h
  | voluntaryExit => exact hnothing hread h
  | block => exact hnothing hread h

/-- A request that submits something. -/
structure Submission where
  kind : SubmissionKind
  request : Http.Request
  posts : request.Posts kind.path

namespace Submission

/-- The items of a submission. There are none if its body is too large or cannot be read. -/
def items (submission : Submission) : List Gossip :=
  if Router.maxBodySize < submission.request.body.size then []
  else (submission.kind.read submission.request.body).toOption.getD []

/-- The items that are in the pools as the response tells: those of a batch that are not listed as failures, and
an exit that is not found bad. -/
def pooled (submission : Submission) (response : Http.Response) : List Gossip :=
  match submission.kind with
  | .batch _ => unlisted response.failures submission.items
  | .voluntaryExit => if response.status = 400 then [] else submission.items
  | .block => []

/-- The items that are to be passed on as the response tells: those in the pools, and every block. -/
def offered (submission : Submission) (response : Http.Response) : List Gossip :=
  match submission.kind with
  | .block => submission.items
  | _ => submission.pooled response

variable {submission : Submission} {deeds : List Deed} {response : Http.Response}

section Items

theorem items_of_oversized (hsize : Router.maxBodySize < submission.request.body.size) :
    submission.items = [] :=
  if_pos hsize

theorem items_of_read (hsize : submission.request.body.size ≤ Router.maxBodySize) {held : List Gossip}
    (hread : submission.kind.read submission.request.body = .ok held) : submission.items = held := by
  rw [items, if_neg (Nat.not_lt.mpr hsize), hread]
  rfl

theorem items_of_unreadable {e : ApiError} (hread : submission.kind.read submission.request.body = .error e) :
    submission.items = [] := by
  rw [items, hread]
  exact ite_self _

/-- A submission with items has been read. -/
theorem read_of_mem_items {item : Gossip} (hmem : item ∈ submission.items) :
    submission.request.body.size ≤ Router.maxBodySize ∧
      submission.kind.read submission.request.body = .ok submission.items := by
  by_cases hsize : Router.maxBodySize < submission.request.body.size
  · rw [items_of_oversized hsize] at hmem
    cases hmem
  · cases hread : submission.kind.read submission.request.body with
    | error e =>
      rw [items_of_unreadable hread] at hmem
      cases hmem
    | ok held => exact ⟨Nat.not_lt.mp hsize, by rw [items_of_read (Nat.not_lt.mp hsize) hread]⟩

theorem pooled_subset_items : submission.pooled response ⊆ submission.items := by
  rw [pooled]
  split
  · exact fun _ => mem_of_mem_unlisted
  · split
    · exact List.nil_subset _
    · exact List.Subset.refl _
  · exact List.nil_subset _

/-- An exit is in the pool unless it is found bad. -/
theorem exit_mem_pooled_iff {exit : SignedVoluntaryExit} :
    .voluntaryExit exit ∈ submission.pooled response ↔
      .voluntaryExit exit ∈ submission.items ∧ response.status ≠ 400 := by
  have hpooled (hmem : .voluntaryExit exit ∈ submission.items) :
      submission.pooled response = if response.status = 400 then [] else submission.items := by
    obtain ⟨_, hread⟩ := read_of_mem_items hmem
    obtain ⟨hkind, _⟩ := SubmissionKind.exit_of_mem_read hread hmem
    rw [pooled, hkind]
  constructor
  · intro hmem
    have hitem := pooled_subset_items hmem
    refine ⟨hitem, fun hbad => ?_⟩
    rw [hpooled hitem, if_pos hbad] at hmem
    cases hmem
  · rintro ⟨hitem, hgood⟩
    rwa [hpooled hitem, if_neg hgood]

end Items

/-- What was done for a submission is what its answer accounts for. -/
structure Accounts (submission : Submission) (deeds : List Deed) (response : Http.Response) : Prop where
  pooled : deeds.flatMap Deed.pooled = submission.pooled response
  offered : (deeds.flatMap Deed.offered).map Prod.fst = submission.offered response
  succeeded (h : response.status = 200) : passedOn (deeds.flatMap Deed.offered) = submission.items ∧
    (submission.kind ≠ .block → submission.pooled response = submission.items)

theorem Accounts.of_nil (h : submission.items = []) : submission.Accounts [] response := by
  have hpooled : submission.pooled response = [] := by
    rw [Submission.pooled, h, ite_self]
    split <;> rfl
  have hoffered : submission.offered response = [] := by
    rw [Submission.offered, h, hpooled]
    split <;> rfl
  exact ⟨hpooled.symm, hoffered.symm, fun _ => ⟨h.symm, fun _ => hpooled.trans h.symm⟩⟩

/-- Nothing is done for a submission without items, and any other is read. -/
theorem items_nil_or_read {version : String}
    (h : (Node.answer Task.backend version submission.request).Ends deeds response) :
    submission.items = [] ∧ deeds = [] ∨ submission.request.body.size ≤ Router.maxBodySize ∧
      submission.kind.read submission.request.body = .ok submission.items := by
  obtain ⟨hsize, rfl, _⟩ | ⟨hsize, outcome, hrun, _⟩ := submission.kind.answer_ends submission.posts h
  · exact .inl ⟨items_of_oversized hsize, rfl⟩
  · cases hread : submission.kind.read submission.request.body with
    | error e => exact .inl ⟨items_of_unreadable hread, SubmissionKind.unreadable_ends rfl hread hrun⟩
    | ok held => exact .inr ⟨hsize, by rw [items_of_read hsize hread]⟩

section Kinds

variable {version : String} {request : Http.Request}
  (h : (Node.answer Task.backend version request).Ends deeds response)
include h

theorem batch_accounts {kind : BatchKind} (hposts : request.Posts (SubmissionKind.batch kind).path) :
    (⟨.batch kind, request, hposts⟩ : Submission).Accounts deeds response := by
  let submission : Submission := ⟨.batch kind, request, hposts⟩
  obtain ⟨hnone, rfl⟩ | ⟨hsize, hread⟩ := submission.items_nil_or_read h
  · exact .of_nil hnone
  · obtain ⟨items, hbody, hitems⟩ := map_eq_ok_iff.mp hread
    obtain ⟨failures, unsent, hreply, htakes⟩ := batch_ends hsize h hposts hbody
    have hpooled : submission.pooled response = (unlisted failures items).map kind.gossip := by
      change unlisted response.failures submission.items = _
      rw [hreply, failures_batchReply, ← hitems, unlisted_map]
    refine ⟨htakes.pooled.trans hpooled.symm, htakes.offered.trans hpooled.symm, fun hstatus => ?_⟩
    rw [hreply] at hstatus
    obtain ⟨rfl, rfl⟩ := of_batchReply_status hstatus
    rw [unlisted_nil_left] at htakes hpooled
    rw [passedOn_of_any_eq_false htakes.unsent, htakes.offered]
    exact ⟨hitems, fun _ => hpooled.trans hitems⟩

theorem exit_accounts (hposts : request.Posts SubmissionKind.voluntaryExit.path) :
    (⟨.voluntaryExit, request, hposts⟩ : Submission).Accounts deeds response := by
  let submission : Submission := ⟨.voluntaryExit, request, hposts⟩
  obtain ⟨hnone, rfl⟩ | ⟨hsize, hread⟩ := submission.items_nil_or_read h
  · exact .of_nil hnone
  · obtain ⟨exit, hbody, hitems⟩ := map_eq_ok_iff.mp hread
    obtain ⟨s, ⟨hpending, rfl, hstatus⟩ | ⟨hpending, s', rfl, hstatus⟩⟩ := exit_ends hsize h hposts hbody
    · have hpooled : submission.pooled response = [] := if_pos hstatus
      refine ⟨?_, hpooled.symm, fun hsuccess => ?_⟩
      · rw [List.flatMap_singleton, Deed.pooled_of_pending hpending, hpooled]
      · rw [hstatus] at hsuccess
        cases hsuccess
    · have hgood : response.status ≠ 400 := by
        rw [hstatus]
        cases s'.syncing <;> decide
      have hpooled : submission.pooled response = submission.items := if_neg hgood
      refine ⟨?_, hitems.trans hpooled.symm, fun hsuccess => ⟨?_, fun _ => hpooled⟩⟩
      · rw [List.flatMap_cons, Deed.pooled_of_not_pending hpending, hpooled, ← hitems]
        rfl
      · have hsyncing : s'.syncing = false := by
          rw [hstatus] at hsuccess
          split at hsuccess
          · cases hsuccess
          next hsyncing => exact Bool.eq_false_iff.mpr hsyncing
        rw [passedOn_of_any_eq_false]
        · exact hitems
        · exact (Bool.or_false _).trans hsyncing

theorem block_accounts (hposts : request.Posts SubmissionKind.block.path) :
    (⟨.block, request, hposts⟩ : Submission).Accounts deeds response := by
  let submission : Submission := ⟨.block, request, hposts⟩
  obtain ⟨hnone, rfl⟩ | ⟨hsize, hread⟩ := submission.items_nil_or_read h
  · exact .of_nil hnone
  · obtain ⟨b, hbody, hitems⟩ := map_eq_ok_iff.mp hread
    obtain ⟨s, s', s'', rfl, hsuccess⟩ := block_ends hsize h hposts hbody
    refine ⟨rfl, hitems, fun hstatus => ⟨?_, fun hne => absurd rfl hne⟩⟩
    obtain ⟨hsyncing, _⟩ := hsuccess hstatus
    rw [passedOn_of_any_eq_false]
    · exact hitems
    · exact (Bool.or_false _).trans hsyncing

end Kinds

/-- What was done for a submission that has been answered is what the answer accounts for. -/
theorem accounts {version : String}
    (h : (Node.answer Task.backend version submission.request).Ends deeds response) :
    submission.Accounts deeds response := by
  obtain ⟨kind, request, hposts⟩ := submission
  cases kind with
  | batch kind => exact batch_accounts h hposts
  | voluntaryExit => exact exit_accounts h hposts
  | block => exact block_accounts h hposts

end Submission

end BeaconApi
