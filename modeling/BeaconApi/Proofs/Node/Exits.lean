import BeaconApi.Proofs.Client.Refusals
import BeaconApi.Proofs.Memory.Exits
import BeaconApi.Proofs.Node.Submitting

namespace BeaconApi

namespace Memory

open PreparedResponse

/-- What is said about an exit that was not passed on. -/
def unsentExit : String := "beacon is syncing, stored voluntary exit but cannot publish it"

/-- A node with one more exit in its pool, which it has passed on unless it is syncing. -/
def takeExit (s : Memory) (exit : SignedVoluntaryExit) : Memory :=
  { s with
    voluntaryExits := s.voluntaryExits ++ [exit]
    published := if s.syncing then s.published else s.published.push (.voluntaryExit exit) }

/-- What comes of an exit, given whether its validator has one in the pool and whether the node is syncing. -/
def exitOutcome (exit : SignedVoluntaryExit) (pending syncing : Bool) :
    Except PreparedResponse PreparedResponse :=
  if pending then .error (.badInput (alreadyPending exit))
  else if syncing then .error (.syncing unsentExit)
  else .ok (.okMessage "stored and broadcast voluntary exit")

/-- The handler takes an exit, unless its validator has one in the pool. -/
theorem publishVoluntaryExit_run {r : IncomingRequest} {bytes : ByteArray} {exit : SignedVoluntaryExit}
    (hr : r.body = some bytes) (h : Body.decodeContents bytes = .ok exit) (s : Memory) :
    (Endpoint.publishVoluntaryExit backend r).run.run s =
      (exitOutcome exit (s.Pending exit.validator) s.syncing,
        if s.Pending exit.validator then s else s.takeExit exit) := by
  refine (run_readBody_bind hr h).trans ?_
  rw [run_ask_bind, step]
  by_cases hpending : s.Pending exit.validator
  · rw [addVoluntaryExit_of_pending hpending, if_pos hpending, exitOutcome, if_pos (decide_eq_true hpending)]
    rfl
  · rw [addVoluntaryExit_of_not_pending hpending, if_neg hpending, exitOutcome,
      if_neg (by simpa using hpending)]
    dsimp only
    rw [run_ask_bind]
    unfold takeExit
    simp only [step, publish]
    cases s.syncing <;> rfl

theorem publishVoluntaryExit_route (version : String) :
    Node.PlainRoute version .post SubmissionKind.voluntaryExit.path Endpoint.publishVoluntaryExit :=
  ⟨SubmissionKind.voluntaryExit.route_mem, SubmissionKind.voluntaryExit.pieces, by decide⟩

/-- The code tells whether the exit was taken, and if so whether the node is syncing. -/
theorem exitOutcome_status (exit : SignedVoluntaryExit) (pending syncing : Bool) :
    (settled (exitOutcome exit pending syncing)).write.1.status =
      if pending then 400 else if syncing then 503 else 200 := by
  have hrange : ∀ code ∈ [400, 503, 200], Http.isStatus code := by simp [Http.isStatus]
  have hcode : (settled (exitOutcome exit pending syncing)).code =
      if pending then 400 else if syncing then 503 else 200 := by
    cases pending <;> cases syncing <;> rfl
  rw [write_status_of_isStatus, hcode]
  rw [hcode]
  cases pending <;> cases syncing <;> exact hrange _ (by simp)

/-- What a node answers to an exit whose text is not too large. -/
theorem answer_exit (version : String) {request : Http.Request}
    (hposts : request.Posts SubmissionKind.voluntaryExit.path) (hsize : request.body.size ≤ Router.maxBodySize)
    {exit : SignedVoluntaryExit} (hbody : Body.decodeContents request.body = .ok exit) (s : Memory) :
    ∃ response, (Node.answer backend version request).run s =
        (response, if s.Pending exit.validator then s else s.takeExit exit) ∧
      response.status = if s.Pending exit.validator then 400 else if s.syncing then 503 else 200 := by
  refine ⟨_, (publishVoluntaryExit_route version).post_run hposts hsize fun r hr =>
    publishVoluntaryExit_run hr hbody s, ?_⟩
  rw [exitOutcome_status]
  simp only [decide_eq_true_eq]

end Memory

end BeaconApi
