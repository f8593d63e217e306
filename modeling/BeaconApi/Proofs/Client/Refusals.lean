import BeaconApi.Proofs.Client.Errors
import BeaconApi.Proofs.Node.Serving
import BeaconApi.Proofs.Wire.Buffered

namespace BeaconApi

open Wire

/-- An error body is read from its text, and a plain one is not taken for one with failures. -/
theorem ErrorBody.decode_encode (body : ErrorBody) :
    Payload.decode (Payload.encode body).toUTF8 = .ok body := by
  refine Payload.decode_encode_of_outline (by decide) ?_
  cases body with
  | indexed e => exact decode_either_inl (by decide) (by decide) false (Payload.toCarrier e)
  | plain e =>
    exact decode_either_inr (by decide) (by decide) false
      (decode_merged_of_missing (by decide) (by decide) (by decide) true (Payload.toCarrier e))

theorem Body.errorOf_of_decode_eq_ok (code : UInt16) {bytes : ByteArray} {body : ErrorBody}
    (h : Payload.decode bytes = .ok body) : Body.errorOf code bytes = .ofBody code body := by
  unfold Body.errorOf Body.decode
  rw [h]
  rfl

namespace Memory.Chronicle

/-- Answers of `Node.answer` with a status from 300 on, at a `Reachable` chronicle, hold an `ErrorBody` that
repeats the status. `Outcome.decode`, at every payload type, and `Outcome.discard` give the same `ApiError` for
it, which is no `malformedErrorBody`. The premise `hmethod` excludes HEAD, whose answers are sent without their
body. -/
theorem error_answer_readable {genesisTime : Timestamp} {c : Chronicle} (h : Reachable genesisTime c)
    (version : String) {request : Http.Request}
    (hmethod : request.method ≠ "HEAD") {response : Http.Response}
    (hresponse : ((Node.answer backend version request).run c.memory).1 = response)
    (hstatus : 300 ≤ response.status) :
    response.headers.get? "content-type" = some "application/json" ∧
    ∃ body : ErrorBody, Payload.decode response.body = .ok body ∧
      body.message.code = UInt64.ofNat response.status.toNat ∧
      ∃ e : ApiError,
        (∀ (α : Type) [Payload α], (Outcome.received response.status response.body).decode =
          (.error e : Except ApiError (UInt16 × α))) ∧
        (Outcome.received response.status response.body).discard = .error e ∧
        (∀ code reason, e ≠ .malformedErrorBody code reason) ∧
        e.status? = some response.status ∧ e.body? = some body ∧ e.failures? = body.failures? ∧
        (e.isSyncing ↔ response.status = 503) := by
  obtain ⟨sent, c', _, hrun, hproper⟩ := respond_run h.ready version request
  rw [answer_run hrun, if_neg hmethod] at hresponse
  obtain rfl : sent.1 = response := hresponse
  have hexplained : ∃ body, sent.1.Explains body := by
    rcases hproper with hsuccess | ⟨_, hexplained⟩
    · have hlow : ∀ code ∈ [200, 202, 206], ¬ (300 : UInt16) ≤ code := by simp
      exact absurd hstatus (hlow _ hsuccess)
    · exact hexplained
  obtain ⟨body, htype, hbody, hrepeats⟩ := hexplained
  have hdecode : Payload.decode sent.1.body = .ok body := hbody ▸ body.decode_encode
  have herror := Body.errorOf_of_decode_eq_ok sent.1.status hdecode
  refine ⟨htype, body, hdecode, hrepeats, .ofBody sent.1.status body, ?_, ?_,
    ApiError.ofBody_ne_malformedErrorBody body, ApiError.ofBody_status? body,
    ApiError.ofBody_body? body, ?_, ?_⟩
  · intro α _
    rw [Outcome.decode_of_error hstatus, herror]
  · rw [Outcome.discard_of_error hstatus, herror]
  · rw [ApiError.failures?, ApiError.ofBody_body?]
    rfl
  · exact (ApiError.ofBody_isSyncing body).trans (StatusClass.of_error hstatus).2.2

/-- The forked node while it is syncing. -/
def forkedSyncing : Chronicle := forked.after (.setSyncing true)

/-- A request that is refused while a node is syncing. -/
def dutiesRequest : Http.Request := ⟨"GET", "/eth/v1/validator/duties/proposer/0", .empty⟩

theorem syncing_answer_readable :
    ∃ e, (Outcome.received 503
        ((Node.answer backend "" dutiesRequest).run forkedSyncing.memory).1.body).discard = .error e ∧
      e.isSyncing := by
  have hreachable : Reachable ⟨0⟩ forkedSyncing :=
    reachable_forked.tail ⟨.setSyncing true, trivial, rfl⟩
  have hstatus : ((Node.answer backend "" dutiesRequest).run forkedSyncing.memory).1.status = 503 := by
    decide +kernel
  obtain ⟨_, _, _, _, e, _, hdiscard, _, _, _, _, hsyncing⟩ := error_answer_readable hreachable ""
    (by decide : dutiesRequest.method ≠ "HEAD") rfl (hstatus ▸ by decide)
  exact ⟨e, hstatus ▸ hdiscard, hsyncing.mpr hstatus⟩

end Memory.Chronicle

end BeaconApi
