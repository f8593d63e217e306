import BeaconApi.Client.Outcome

namespace BeaconApi

/-- The status codes of a class. -/
def StatusClass.Covers : StatusClass → UInt16 → Prop
  | .unexpected, code => code < 200
  | .success, code => 200 ≤ code ∧ code ≤ 299
  | .invalidRequest, code => 300 ≤ code ∧ code ≤ 499
  | .currentlySyncing, code => code = 503
  | .internal, code => 500 ≤ code ∧ code ≤ 599 ∧ code ≠ 503
  | .unclassified, code => 600 ≤ code

theorem StatusClass.of_eq_iff {code : UInt16} {k : StatusClass} : of code = k ↔ k.Covers code := by
  unfold of Covers
  simp only [UInt16.le_iff_toNat_le, UInt16.lt_iff_toNat_lt, ← UInt16.toNat_inj, UInt16.reduceToNat, ne_eq]
  cases k <;> grind

/-- The class of an error status tells of syncing exactly if the status does. -/
theorem StatusClass.of_error {code : UInt16} (h : 300 ≤ code) :
    of code ≠ .unexpected ∧ of code ≠ .success ∧ (of code = .currentlySyncing ↔ code = 503) := by
  have hbound : 300 ≤ code.toNat := UInt16.le_iff_toNat_le.mp h
  refine ⟨fun hof => ?_, fun hof => ?_, of_eq_iff⟩
  · have hlow : code.toNat < 200 := UInt16.lt_iff_toNat_lt.mp (of_eq_iff.mp hof)
    omega
  · have hhigh : code.toNat ≤ 299 := UInt16.le_iff_toNat_le.mp (of_eq_iff.mp hof).2
    omega

namespace ApiError

variable {code : UInt16} (body : ErrorBody)

theorem ofBody_status? : (ofBody code body).status? = some code := by
  unfold ofBody
  split <;> rfl

theorem ofBody_body? : (ofBody code body).body? = some body := by
  unfold ofBody
  split <;> rfl

theorem ofBody_ne_malformedErrorBody (other : UInt16) (reason : String) :
    ofBody code body ≠ .malformedErrorBody other reason := by
  unfold ofBody
  split <;> exact fun h => nomatch h

theorem ofBody_isSyncing :
    (ofBody code body).isSyncing ↔ StatusClass.of code = .currentlySyncing := by
  unfold ofBody
  split <;> simp_all [isSyncing]

end ApiError

section Answers

variable {code : UInt16} (h : 300 ≤ code) (bytes : ByteArray)
include h

theorem Body.decodeResponse_of_error (α : Type) [Payload α] :
    (Body.decodeResponse code bytes : Except ApiError α) = .error (Body.errorOf code bytes) := by
  obtain ⟨hunexpected, hsuccess, _⟩ := StatusClass.of_error h
  unfold Body.decodeResponse
  cases hclass : StatusClass.of code with
  | unexpected => exact absurd hclass hunexpected
  | success => exact absurd hclass hsuccess
  | invalidRequest | currentlySyncing | internal | unclassified => rfl

theorem Body.discardResponse_of_error :
    Body.discardResponse code bytes = .error (Body.errorOf code bytes) := by
  obtain ⟨hunexpected, hsuccess, _⟩ := StatusClass.of_error h
  unfold Body.discardResponse
  cases hclass : StatusClass.of code with
  | unexpected => exact absurd hclass hunexpected
  | success => exact absurd hclass hsuccess
  | invalidRequest | currentlySyncing | internal | unclassified => rfl

theorem Outcome.decode_of_error (α : Type) [Payload α] :
    (Outcome.received code bytes).decode =
      (.error (Body.errorOf code bytes) : Except ApiError (UInt16 × α)) := by
  rw [Outcome.decode, Body.decodeResponse_of_error h]
  rfl

theorem Outcome.discard_of_error :
    (Outcome.received code bytes).discard = .error (Body.errorOf code bytes) := by
  rw [Outcome.discard, Body.discardResponse_of_error h]
  rfl

end Answers

end BeaconApi
