import BeaconApi.Proofs.Client.Reports
import BeaconApi.Proofs.Node.Exits
import BeaconApi.Proofs.Node.Import

namespace BeaconApi

namespace Http.Response

/-- A request was rejected: there is nothing under its path, or not for its method, or its body is too large,
or it is bad as a whole, and not in some of its items. -/
def Rejects (response : Http.Response) : Prop :=
  response.status ∈ [404, 405, 413] ∨
    response.status = 400 ∧ ∃ message, Payload.decode response.body = .ok (ErrorBody.plain message)

variable {response : Http.Response}

theorem not_rejects_of_status (h : response.status ∈ [200, 202, 503]) : ¬ response.Rejects := by
  have hother : ∀ code ∈ [200, 202, 503], code ∉ ([404, 405, 413] : List UInt16) ∧ code ≠ 400 := by simp
  rintro (hnone | ⟨hbad, _⟩)
  · exact (hother _ h).1 hnone
  · exact (hother _ h).2 hbad

theorem not_rejects_of_indexed {report : BatchError} (hstatus : response.status = 400)
    (h : Payload.decode response.body = .ok (ErrorBody.indexed report)) : ¬ response.Rejects := by
  rintro (hnone | ⟨_, message, hplain⟩)
  · rw [hstatus] at hnone
    exact absurd hnone (by decide)
  · cases hplain.symm.trans h

end Http.Response

namespace Memory

open PreparedResponse

/-- What a request does to a node, and what the node answers. -/
inductive Effect (s : Memory) (request : Http.Request) : Http.Response → Memory → Prop
  | none {response : Http.Response}
      (h : request.method ≠ "POST" ∨ response.status ∈ [400, 404, 405, 413]) : Effect s request response s
  | batch {kind : BatchKind} {items : List kind.Item} {response : Http.Response}
      (hposts : request.Posts kind.path) (h : ¬ response.Rejects) :
      Effect s request response (kind.take s (kind.accepted s items))
  | exit {exit : SignedVoluntaryExit} {response : Http.Response}
      (hposts : request.Posts SubmissionKind.voluntaryExit.path)
      (hbody : Body.decodeContents request.body = .ok exit) (hpending : ¬ s.Pending exit.validator)
      (h : response.status = if s.syncing then 503 else 200) : Effect s request response (s.takeExit exit)
  | block {b : SignedBeaconBlock} {response : Http.Response}
      (hposts : request.Posts SubmissionKind.block.path) (h : ¬ response.Rejects) :
      Effect s request response (s.submitBlock b)

theorem Effect.of_refused {s : Memory} {request : Http.Request} {response : Http.Response}
    (h : response.status ∈ [400, 413]) : s.Effect request response s := by
  have hmore : ∀ code ∈ [400, 413], code ∈ ([400, 404, 405, 413] : List UInt16) := by simp
  exact .none (.inr (hmore _ h))

section Submissions

variable {request : Http.Request} (version : String) (s : Memory)

theorem batch_effect (kind : BatchKind) (hposts : request.Posts kind.path) : ∃ response s',
    (Node.answer backend version request).run s = (response, s') ∧ s.Effect request response s' := by
  rcases (kind.route version).post_cases hposts kind.endpoint_eq s with hrefused | ⟨hsize, items, hbody⟩
  · obtain ⟨response, hrun, hstatus⟩ := hrefused
    exact ⟨response, s, hrun, .of_refused hstatus⟩
  · by_cases hwhole : kind.accepted s items = items
    · obtain ⟨response, hrun, hstatus⟩ := BatchKind.answer_whole version hposts hsize hbody hwhole
      have hmore : ∀ code ∈ [200, 503], code ∈ ([200, 202, 503] : List UInt16) := by simp
      rw [← hwhole] at hrun
      exact ⟨response, _, hrun, .batch hposts (Http.Response.not_rejects_of_status (hmore _ hstatus))⟩
    · obtain ⟨response, report, hrun, hstatus, hreport, _⟩ :=
        BatchKind.answer_refused version hposts hsize hbody hwhole
      exact ⟨response, _, hrun, .batch hposts (Http.Response.not_rejects_of_indexed hstatus hreport)⟩

theorem exit_effect (hposts : request.Posts SubmissionKind.voluntaryExit.path) : ∃ response s',
    (Node.answer backend version request).run s = (response, s') ∧ s.Effect request response s' := by
  rcases (publishVoluntaryExit_route version).post_cases hposts (fun _ => rfl) s with
    hrefused | ⟨hsize, exit, hbody⟩
  · obtain ⟨response, hrun, hstatus⟩ := hrefused
    exact ⟨response, s, hrun, .of_refused hstatus⟩
  · obtain ⟨response, hrun, hstatus⟩ := answer_exit version hposts hsize hbody s
    by_cases hpending : s.Pending exit.validator
    · rw [if_pos hpending] at hrun hstatus
      exact ⟨response, s, hrun, .of_refused (by simp [hstatus])⟩
    · rw [if_neg hpending] at hrun hstatus
      exact ⟨response, _, hrun, .exit hposts hbody hpending hstatus⟩

/-- Whatever comes of a block, it is answered with success, or with the syncing of the node. -/
theorem submissionOutcome_status (syncing : Bool) (root : Root) (b : SignedBeaconBlock) :
    (settled (submissionOutcome syncing (s.addBlock root b).1)).write.1.status ∈ [200, 202, 503] := by
  have hrange : ∀ code ∈ [200, 202, 503], Http.isStatus code := by simp [Http.isStatus]
  have hcode : (settled (submissionOutcome syncing (s.addBlock root b).1)).code ∈ [200, 202, 503] := by
    cases syncing with
    | true => exact .tail _ (.tail _ (.head _))
    | false =>
      obtain hok | ⟨reason, hinvalid⟩ := addBlock_ok_or_invalid s root b
      · rw [hok]
        exact .head _
      · rw [hinvalid]
        exact .tail _ (.head _)
  rw [write_status_of_isStatus (hrange _ hcode)]
  exact hcode

theorem block_effect (hposts : request.Posts SubmissionKind.block.path) : ∃ response s',
    (Node.answer backend version request).run s = (response, s') ∧ s.Effect request response s' := by
  rcases (publishBlock_route version).post_cases hposts (fun _ => rfl) s with hrefused | ⟨hsize, b, hbody⟩
  · obtain ⟨response, hrun, hstatus⟩ := hrefused
    exact ⟨response, s, hrun, .of_refused hstatus⟩
  · have hrun := (publishBlock_route version).post_run hposts hsize fun r hr => publishBlock_run hr hbody s
    have hstatus := submissionOutcome_status (s.keepBlock b) s.syncing (s.storeBlock b).1 b
    exact ⟨_, _, hrun, .block hposts (Http.Response.not_rejects_of_status hstatus)⟩

theorem submission_effect (kind : SubmissionKind) (hposts : request.Posts kind.path) : ∃ response s',
    (Node.answer backend version request).run s = (response, s') ∧ s.Effect request response s' := by
  cases kind with
  | batch kind => exact batch_effect version s kind hposts
  | voluntaryExit => exact exit_effect version s hposts
  | block => exact block_effect version s hposts

end Submissions

theorem LooksLike.refl (s : Memory) : s.LooksLike s where
  same := ⟨_, _, _, _, rfl⟩
  blocks _ := rfl

namespace Chronicle

/-- Every request to a node after any run has one of the effects. -/
theorem Reachable.answer_effect {genesisTime : Timestamp} {c : Chronicle} (h : Reachable genesisTime c)
    (version : String) (request : Http.Request) : ∃ response s',
      (Node.answer backend version request).run c.memory = (response, s') ∧
        c.memory.Effect request response s' := by
  by_cases hmethod : request.method = "POST"
  · rcases SubmissionKind.posts_or_not_reached backend version hmethod with ⟨kind, hposts⟩ | hnone
    · exact submission_effect version c.memory kind hposts
    · obtain ⟨sent, hrespond, hstatus, _⟩ := Router.respond_of_not_reached hnone
      have hsent : (Router.respond (Node.routes backend version) request).run c.memory =
          (sent, c.memory) := by
        rw [hrespond]
        rfl
      have hmore : ∀ code ∈ [404, 405], code ∈ ([400, 404, 405, 413] : List UInt16) := by simp
      refine ⟨_, _, answer_run hsent, .none (.inr ?_)⟩
      rw [answer_status]
      exact hmore _ hstatus
  · obtain ⟨response, hrun, _⟩ := answer_alike (.refl c.memory) h.linked version hmethod
    exact ⟨response, _, hrun, .none (.inl hmethod)⟩

/-- Unless its method is POST and its response is not one that `Rejects`, a request leaves the whole `Memory` of
a `Reachable` chronicle as it is. A 400 with an `ErrorBody.indexed` does not count as rejected, because the
other items of the batch are kept. Reachability is needed for the methods other than POST, whose handlers rely
on the chain. -/
theorem rejected_leaves_no_trace {genesisTime : Timestamp} {c : Chronicle} (h : Reachable genesisTime c)
    (version : String) (request : Http.Request) : ∃ response s',
      (Node.answer backend version request).run c.memory = (response, s') ∧
        (request.method ≠ "POST" ∨ response.Rejects → s' = c.memory) := by
  obtain ⟨response, s', hrun, heffect⟩ := h.answer_effect version request
  refine ⟨response, s', hrun, fun hrejected => ?_⟩
  -- What is taken was posted, and its answer is no rejection.
  have htaken (path : String) (hposts : request.Posts path) (h : ¬ response.Rejects) : s' = c.memory := by
    rcases hrejected with hmethod | hrejects
    · exact absurd hposts.method hmethod
    · exact absurd hrejects h
  cases heffect with
  | none => rfl
  | batch hposts h => exact htaken _ hposts h
  | exit hposts _ _ hstatus =>
    refine htaken _ hposts (Http.Response.not_rejects_of_status ?_)
    rw [hstatus]
    split <;> simp
  | block hposts h => exact htaken _ hposts h

/-- The forked node rejects an empty body in place of an exit, and stays as it is. -/
theorem forked_rejects_empty_exit : ∃ response,
    (Node.answer backend "" ⟨"POST", "/eth/v1/beacon/pool/voluntary_exits", .empty⟩).run forked.memory =
        (response, forked.memory) ∧
      response.Rejects := by
  obtain ⟨response, s', hrun, htrace⟩ := rejected_leaves_no_trace reachable_forked ""
    ⟨"POST", "/eth/v1/beacon/pool/voluntary_exits", .empty⟩
  have hroute := publishVoluntaryExit_route ""
  have hrefused := hroute.post_unreadable (hroute.isPath.posts .empty) (fun _ => rfl) (Nat.zero_le _)
    Body.decodeContents_empty forked.memory
  obtain ⟨rfl, _⟩ := Prod.mk.inj (hrefused.symm.trans hrun)
  obtain ⟨hstatus, hexplains⟩ := write_error 400 _ (by decide)
  have hrejects : (badInput _).write.1.Rejects := .inr ⟨hstatus, _, hexplains.decode_body⟩
  rw [htrace (.inr hrejects)] at hrun
  exact ⟨_, hrun, hrejects⟩

end Chronicle

end Memory

end BeaconApi
