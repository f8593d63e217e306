import BeaconApi.Proofs.Client.Submissions

namespace BeaconApi

/-- The items of a batch whose positions are not listed. -/
def unlisted {α : Type} (failures : List ItemFailure) (items : List α) : List α :=
  (items.zipIdx.filter fun entry => failures.all fun failure => failure.index.toNat ≠ entry.2).map Prod.fst

/-- An error body is read from a response that explains itself by it. -/
theorem Http.Response.Explains.decode_body {response : Http.Response} {body : ErrorBody}
    (h : response.Explains body) : Payload.decode response.body = .ok body := by
  obtain ⟨_, hbody, _⟩ := h
  rw [hbody]
  exact body.decode_encode

namespace BatchKind

open Memory (backend)
open PreparedResponse

/-- The items in the pool of a node. -/
def pool : (kind : BatchKind) → Memory → List kind.Item
  | attestations, s => s.attestations
  | syncCommitteeMessages, s => s.syncCommitteeMessages

/-- The items that a node has passed on. -/
def published : (kind : BatchKind) → Published → List kind.Item
  | attestations, published => published.attestations
  | syncCommitteeMessages, published => published.syncCommitteeMessages

variable (kind : BatchKind) (s : Memory)

theorem pool_take (items : List kind.Item) : kind.pool (kind.take s items) = kind.pool s ++ items := by
  cases kind <;> rfl

theorem published_take (items : List kind.Item) : kind.published (kind.take s items).published =
    kind.published s.published ++ if s.syncing then [] else items := by
  cases kind <;> cases hsyncing : s.syncing <;> simp [take, published, hsyncing]

variable {kind s} {items : List kind.Item}

/-- What a full report does not list has been accepted. -/
theorem Reports.unlisted_eq {failures : List ItemFailure} (h : kind.Reports s items failures)
    (hlength : items.length ≤ UInt64.size) : unlisted failures items = kind.accepted s items := by
  have hlisted : ∀ entry ∈ items.zipIdx, (failures.all fun failure => failure.index.toNat ≠ entry.2) =
      s.knows (kind.root entry.1) := by
    rintro ⟨item, position⟩ hentry
    have hitem : items[position]? = some item := List.mk_mem_zipIdx_iff_getElem?.mp hentry
    have hbound := List.snd_lt_of_mem_zipIdx hentry
    have hposition : (UInt64.ofNat position).toNat = position := UInt64.toNat_ofNat_of_lt' (by omega)
    rw [Bool.eq_iff_iff, List.all_eq_true]
    constructor
    · intro hall
      by_contra hunknown
      -- An item whose root is not known is reported, under its own position.
      have hmem := (h.mem_iff ⟨UInt64.ofNat position, kind.unknown ++ (kind.root item).display⟩).mpr
        ⟨item, hposition.symm ▸ hitem, Bool.eq_false_iff.mpr hunknown, rfl⟩
      exact of_decide_eq_true (hall _ hmem) hposition
    · intro hknown failure hmem
      obtain ⟨other, hother, hunknown, _⟩ := (h.mem_iff failure).mp hmem
      refine decide_eq_true fun hplace => ?_
      rw [hplace, hitem] at hother
      cases hother
      rw [hknown] at hunknown
      cases hunknown
  rw [unlisted, List.filter_congr hlisted]
  change (items.zipIdx.filter ((fun item => s.knows (kind.root item)) ∘ Prod.fst)).map Prod.fst = _
  rw [← List.filter_map, List.zipIdx_map_fst]
  rfl

section Answers

variable (version : String) {request : Http.Request} (hposts : request.Posts kind.path)
  (hsize : request.body.size ≤ Router.maxBodySize) (hbody : Body.decodeContents request.body = .ok items)
include hposts hsize hbody

/-- What a node answers to a batch that it accepts as a whole. -/
theorem answer_whole (hwhole : kind.accepted s items = items) :
    ∃ response, (Node.answer backend version request).run s = (response, kind.take s items) ∧
      response.status ∈ [200, 503] := by
  obtain ⟨response, hrun, htold⟩ := kind.answer_batch s version hposts hsize hbody
  rw [hwhole] at hrun
  refine ⟨response, hrun, ?_⟩
  by_cases hdone : s.syncing = false ∨ items = []
  · have hsent := htold.of_sent hwhole hdone
    simp [hsent]
  · obtain ⟨hsyncing, hne⟩ := not_or.mp hdone
    obtain ⟨hunsent, _⟩ := htold.of_unsent hwhole (Bool.not_eq_false _ ▸ hsyncing) hne
    simp [hunsent]

/-- A batch with an item outside `kind.accepted` is answered with 400 and a report, and `unlisted` of the report
is `kind.accepted`. `hrefused` is needed since a batch without such an item is answered without a report. -/
theorem answer_refused (hrefused : kind.accepted s items ≠ items) :
    ∃ response report, (Node.answer backend version request).run s =
        (response, kind.take s (kind.accepted s items)) ∧
      response.status = 400 ∧ Payload.decode response.body = .ok (ErrorBody.indexed report) ∧
      unlisted report.failures items = kind.accepted s items := by
  obtain ⟨response, hrun, htold⟩ := kind.answer_batch s version hposts hsize hbody
  obtain ⟨failures, hreports, hstatus, hexplains⟩ := htold.of_refused hrefused
  have hunlisted := hreports.unlisted_eq (kind.length_le_size hsize hbody)
  exact ⟨response, _, hrun, hstatus, hexplains.decode_body, hunlisted⟩

end Answers

/-- A report for a posted batch, a 400 with an `ErrorBody.indexed`, leaves out exactly the items that were added
to the pool. They were also published if the node is not syncing; otherwise nothing was, and the report does not
say so, since `batchReply` turns to the failures before it looks at `syncing`. Any state and any body is
covered. -/
theorem report_complete_unless_syncing (kind : BatchKind) (s : Memory) (version : String)
    {request : Http.Request} (hposts : request.Posts kind.path) :
    ∃ response s', (Node.answer backend version request).run s = (response, s') ∧
      ∀ report, response.status = 400 → Payload.decode response.body = .ok (ErrorBody.indexed report) →
        ∃ items : List kind.Item, Body.decodeContents request.body = .ok items ∧
          kind.pool s' = kind.pool s ++ unlisted report.failures items ∧
          kind.published s'.published =
            kind.published s.published ++ if s.syncing then [] else unlisted report.failures items := by
  by_cases hsize : request.body.size ≤ Router.maxBodySize
  · cases hbody : (Body.decodeContents request.body : Except ApiError (List kind.Item)) with
    | error e =>
      refine ⟨_, _, (kind.route version).post_unreadable hposts kind.endpoint_eq hsize hbody s, ?_⟩
      intro report _ hreport
      have hplain := (write_error 400 e.message (by decide)).2.decode_body
      cases hplain.symm.trans hreport
    | ok items =>
      by_cases hwhole : kind.accepted s items = items
      · obtain ⟨response, hrun, hsuccess⟩ := answer_whole version hposts hsize hbody hwhole
        have hother : ∀ code ∈ [200, 503], code ≠ (400 : UInt16) := by simp
        exact ⟨response, _, hrun, fun report hstatus => absurd hstatus (hother _ hsuccess)⟩
      · obtain ⟨response, report, hrun, _, hreport, hunlisted⟩ :=
          answer_refused version hposts hsize hbody hwhole
        refine ⟨response, _, hrun, fun other _ hother => ⟨items, rfl, ?_⟩⟩
        obtain rfl : report = other := by
          cases hreport.symm.trans hother
          rfl
        rw [hunlisted]
        exact ⟨kind.pool_take s _, kind.published_take s _⟩
  · obtain ⟨response, hrun, hoversized⟩ :=
      (kind.route version).post_oversized hposts (Nat.not_le.mp hsize) s
    refine ⟨response, s, hrun, fun report hstatus => ?_⟩
    cases hoversized.symm.trans hstatus

section MixedVotes

variable (haccepted : attestations.accepted s mixedVotes = [voteFor genesisRoot, voteFor genesisRoot])
include haccepted

theorem answer_mixedVotes : ∃ response report,
    (Node.answer backend "" (attestations.request mixedVotes)).run s =
        (response, attestations.take s [voteFor genesisRoot, voteFor genesisRoot]) ∧
      response.status = 400 ∧ Payload.decode response.body = .ok (ErrorBody.indexed report) ∧
      unlisted report.failures mixedVotes = [voteFor genesisRoot, voteFor genesisRoot] := by
  have hsize : (attestations.request mixedVotes).body.size ≤ Router.maxBodySize :=
    Nat.le_trans (attestations.size_request_le mixedVotes) (by decide +kernel)
  have hrefused : attestations.accepted s mixedVotes ≠ mixedVotes := by
    rw [haccepted]
    exact fun heq => absurd (congrArg List.length heq) (by decide)
  rw [← haccepted]
  exact answer_refused "" ((attestations.route "").isPath.posts _) hsize
    (attestations.decodeContents_request mixedVotes) hrefused

end MixedVotes

/-- The forked node has taken and passed on the two votes that it does not report. -/
theorem forked_report_complete : ∃ response report s',
    (Node.answer backend "" (attestations.request mixedVotes)).run Memory.Chronicle.forked.memory =
        (response, s') ∧
      response.status = 400 ∧ Payload.decode response.body = .ok (ErrorBody.indexed report) ∧
      unlisted report.failures mixedVotes = [voteFor genesisRoot, voteFor genesisRoot] ∧
      s'.attestations = unlisted report.failures mixedVotes ∧
      s'.published.attestations = unlisted report.failures mixedVotes := by
  obtain ⟨response, report, hrun, hstatus, hreport, hunlisted⟩ :=
    answer_mixedVotes (s := Memory.Chronicle.forked.memory) (by decide +kernel)
  obtain ⟨other, s', hother, hcomplete⟩ := report_complete_unless_syncing attestations
    Memory.Chronicle.forked.memory "" ((attestations.route "").isPath.posts _)
  obtain ⟨rfl, rfl⟩ := Prod.mk.inj (hrun.symm.trans hother)
  obtain ⟨items, hitems, hpool, hpublished⟩ := hcomplete report hstatus hreport
  obtain rfl : mixedVotes = items :=
    Except.ok.inj ((attestations.decodeContents_request mixedVotes).symm.trans hitems)
  exact ⟨response, report, _, hrun, hstatus, hreport, hunlisted, hpool, hpublished⟩

/-- The forked node while it is syncing reports one of three votes, and has passed on none of them. -/
theorem syncing_report_incomplete :
    Memory.Chronicle.Reachable ⟨0⟩ Memory.Chronicle.forkedSyncing ∧ ∃ response report s',
      (Node.answer backend "" (attestations.request mixedVotes)).run Memory.Chronicle.forkedSyncing.memory =
          (response, s') ∧
        response.status = 400 ∧ Payload.decode response.body = .ok (ErrorBody.indexed report) ∧
        unlisted report.failures mixedVotes = [voteFor genesisRoot, voteFor genesisRoot] ∧
        s'.published.attestations = [] := by
  obtain ⟨response, report, hrun, hstatus, hreport, hunlisted⟩ :=
    answer_mixedVotes (s := Memory.Chronicle.forkedSyncing.memory) (by decide +kernel)
  have hreachable := Memory.Chronicle.reachable_forked.tail ⟨.setSyncing true, trivial, rfl⟩
  exact ⟨hreachable, response, report, _, hrun, hstatus, hreport, hunlisted, rfl⟩

end BatchKind

end BeaconApi
