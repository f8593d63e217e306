import BeaconApi.Client.Status
import BeaconApi.Proofs.Client.Judgement

namespace BeaconApi

/-- The error of an error status is one of syncing if the status says so and there is an error body. -/
theorem Body.errorOf_isSyncing_iff {code : UInt16} (h : 300 ≤ code) (bytes : ByteArray) :
    (errorOf code bytes).isSyncing ↔
      code = 503 ∧ ∃ body : ErrorBody, Payload.decode bytes = .ok body := by
  cases hbody : (Payload.decode bytes : Wire.Decoded ErrorBody) with
  | ok body =>
    rw [errorOf_of_decode_eq_ok code hbody, ApiError.ofBody_isSyncing, (StatusClass.of_error h).2.2]
    simp
  | error fault =>
    unfold errorOf Body.decode
    rw [hbody]
    simp [Except.mapError, ApiError.isSyncing]

namespace Health

/-- What an outcome tells of the health of a node. -/
def ofOutcome (outcome : Outcome) : Except ApiError Health :=
  outcome.discard.map fun code => if code = 206 then .syncing else .ready

/-- A result is what an answer tells of the health of a node: each state has one status code, and every
other code is an error. -/
structure Tells (code : UInt16) (bytes : ByteArray) (result : Except ApiError Health) : Prop where
  ready : result = .ok .ready ↔ code = 200
  syncing : result = .ok .syncing ↔ code = 206
  error : (∃ e, result = .error e) ↔ code ≠ 200 ∧ code ≠ 206
  isSyncing {e : ApiError} : result = .error e →
    (e.isSyncing ↔ code = 503 ∧ ∃ body : ErrorBody, Payload.decode bytes = .ok body)

/-- A success other than the two that tell of the health of a node. -/
def OtherSuccess (code : UInt16) : Prop := (200 ≤ code ∧ code ≤ 299) ∧ code ≠ 200 ∧ code ≠ 206

instance (code : UInt16) : Decidable (OtherSuccess code) := inferInstanceAs (Decidable (_ ∧ _))

section Received

variable {code : UInt16} (bytes : ByteArray)

theorem ofOutcome_of_success (h : 200 ≤ code ∧ code ≤ 299) :
    ofOutcome (.received code bytes) = .ok (if code = 206 then .syncing else .ready) := by
  rw [ofOutcome, Outcome.discard_of_success h]
  rfl

theorem ofOutcome_of_unexpected (h : code < 200) :
    ofOutcome (.received code bytes) = .error (.unexpectedStatus code) := by
  have hclass : StatusClass.of code = .unexpected := StatusClass.of_eq_iff.mpr h
  rw [ofOutcome, Outcome.discard, Body.discardResponse, hclass]
  rfl

theorem ofOutcome_of_error (h : 300 ≤ code) :
    ofOutcome (.received code bytes) = .error (Body.errorOf code bytes) := by
  rw [ofOutcome, Outcome.discard_of_error h]
  rfl

/-- An answer without success is an error. -/
theorem tells_of_refusal {e : ApiError} (hresult : ofOutcome (.received code bytes) = .error e)
    (hcode : code ≠ 200 ∧ code ≠ 206)
    (he : e.isSyncing ↔ code = 503 ∧ ∃ body : ErrorBody, Payload.decode bytes = .ok body) :
    Tells code bytes (ofOutcome (.received code bytes)) := by
  rw [hresult]
  refine ⟨iff_of_false nofun hcode.1, iff_of_false nofun hcode.2, iff_of_true ⟨e, rfl⟩ hcode, ?_⟩
  rintro _ ⟨⟩
  exact he

/-- The client judges every answer by its documented meaning but the successes that have none. -/
theorem tells_received (h : ¬ OtherSuccess code) : Tells code bytes (ofOutcome (.received code bytes)) := by
  by_cases hsuccess : 200 ≤ code ∧ code ≤ 299
  · have hknown : code = 200 ∨ code = 206 := by
      by_contra hnot
      exact h ⟨hsuccess, not_or.mp hnot⟩
    rw [ofOutcome_of_success bytes hsuccess]
    rcases hknown with rfl | rfl
    · exact ⟨by decide, by decide, by simp, nofun⟩
    · exact ⟨by decide, by decide, by simp, nofun⟩
  · have hcode : code ≠ 200 ∧ code ≠ 206 := by grind
    rcases UInt16.lt_or_le code 200 with hunexpected | hlow
    · refine tells_of_refusal bytes (ofOutcome_of_unexpected bytes hunexpected) hcode ?_
      have hother : code ≠ 503 := by grind
      simp [ApiError.isSyncing, hother]
    · have herror : 300 ≤ code := by grind
      exact tells_of_refusal bytes (ofOutcome_of_error bytes herror) hcode
        (Body.errorOf_isSyncing_iff herror bytes)

end Received

end Health

namespace Client

variable {m : Type → Type} [Monad m] [LawfulMonad m] (client : Client m)

theorem health_eq : client.health = Health.ofOutcome <$> client.request (.get "/eth/v1/node/health") := by
  unfold health send
  simp only [bind_pure_comp, Functor.map_map]
  rfl

/-- One outcome decides about `Client.health` by `Health.ofOutcome`, which `Tells` the state for every status
but an `OtherSuccess`. Those are taken for `ready`, since the whole class of successes is accepted and only 206
is told apart. The two premises on `code` are complementary, so no status is left out. -/
theorem health_judges_status :
    client.health = Health.ofOutcome <$> client.request (.get "/eth/v1/node/health") ∧
    (∀ e, Health.ofOutcome (.failed e) = .error e) ∧
    (∀ code bytes, ¬ Health.OtherSuccess code →
      Health.Tells code bytes (Health.ofOutcome (.received code bytes))) ∧
    ∀ code bytes, Health.OtherSuccess code →
      Health.ofOutcome (.received code bytes) = .ok .ready := by
  refine ⟨client.health_eq, fun _ => rfl, fun _ bytes h => Health.tells_received bytes h, ?_⟩
  intro code bytes ⟨hsuccess, _, hsyncing⟩
  rw [Health.ofOutcome_of_success bytes hsuccess, if_neg hsyncing]

/-- A client is told that a node is syncing by the status 206. It is refused with the status 503, which
without an error body is no sign of syncing. -/
theorem health_of_blank_answers :
    (⟨fun _ => .received 206 .empty⟩ : Client Id).health = .ok .syncing ∧
      ∃ e : ApiError, (⟨fun _ => .received 503 .empty⟩ : Client Id).health = .error e ∧
        e.isSyncing = false := by
  obtain ⟨hsyncing, -, htells, -⟩ := health_judges_status (⟨fun _ => .received 206 .empty⟩ : Client Id)
  obtain ⟨hrefused, -, -, -⟩ := health_judges_status (⟨fun _ => .received 503 .empty⟩ : Client Id)
  refine ⟨hsyncing.trans ((htells 206 .empty (by decide)).syncing.mpr rfl), ?_⟩
  have hjudged := htells 503 .empty (by decide)
  obtain ⟨e, he⟩ := hjudged.error.mpr (by decide)
  refine ⟨e, hrefused.trans he, Bool.eq_false_iff.mpr fun h => ?_⟩
  obtain ⟨-, body, hbody⟩ := (hjudged.isSyncing he).mp h
  obtain ⟨fault, hfault⟩ := Payload.decode_of_isBlank (Array.all_empty : Body.isBlank .empty = true) ErrorBody
  cases hbody.symm.trans hfault

/-- Not every answer is judged by its documented meaning: a success without contents is taken for
readiness. -/
theorem no_content_taken_for_ready :
    ¬ ∀ code bytes, Health.Tells code bytes (⟨fun _ => .received code bytes⟩ : Client Id).health := by
  intro h
  have hready : (⟨fun _ => .received 204 .empty⟩ : Client Id).health = .ok .ready := rfl
  have hcode : (204 : UInt16) = 200 := (h 204 .empty).ready.mp hready
  exact absurd hcode (by decide)

end Client

end BeaconApi
