import BeaconApi.Proofs.Except
import BeaconApi.Proofs.Node.Reading

namespace BeaconApi

namespace PreparedResponse

/-- The response has an error body, which repeats its code, and nothing else. -/
def Explains (response : PreparedResponse) (body : ErrorBody) : Prop :=
  response.body = some (.ok (Payload.toJson body)) ∧ response.headers = .empty ∧
    body.message.code = UInt64.ofNat response.code.toNat

/-- The refusals of handlers. -/
def Refuses (response : PreparedResponse) : Prop :=
  response.code ∈ [400, 404, 503] ∧ ∃ body, response.Explains body

/-- The responses of handlers. -/
def Proper (response : PreparedResponse) : Prop :=
  response.code ∈ [200, 202, 206] ∨ response.Refuses

theorem proper_of_success {response : PreparedResponse} (h : response.code = 200) :
    response.Proper :=
  .inl (by simp [h])

theorem error_explains (code : UInt16) (message : String) :
    (error code message).Explains (.plain (.plain (UInt64.ofNat code.toNat) message)) :=
  ⟨rfl, rfl, rfl⟩

theorem badInputs_explains (message : String) (failures : List ItemFailure) :
    (badInputs message failures).Explains (.indexed ⟨.plain 400 message, failures⟩) :=
  ⟨rfl, rfl, rfl⟩

theorem badInput_refuses (message : String) : (badInput message).Refuses :=
  ⟨by simp [badInput, error, ofPayload, ofCode, withBody], _, error_explains 400 message⟩

theorem notFound_refuses (message : String) : (notFound message).Refuses :=
  ⟨by simp [notFound, error, ofPayload, ofCode, withBody], _, error_explains 404 message⟩

theorem syncing_refuses (message : String) : (syncing message).Refuses :=
  ⟨by simp [syncing, error, ofPayload, ofCode, withBody], _, error_explains 503 message⟩

theorem badInputs_refuses (message : String) (failures : List ItemFailure) :
    (badInputs message failures).Refuses :=
  ⟨by simp [badInputs, ofPayload, ofCode, withBody], _, badInputs_explains message failures⟩

end PreparedResponse

open PreparedResponse

variable {α β : Type}

/-- A computation gives something good, or breaks off with a refusal. -/
def Sound (good : α → Prop) : Except PreparedResponse α → Prop
  | .ok a => good a
  | .error refusal => refusal.Refuses

theorem Sound.bind {good : α → Prop} {good' : β → Prop} {outcome : Except PreparedResponse α}
    {f : α → Except PreparedResponse β} (h : Sound good outcome)
    (hf : ∀ a, good a → Sound good' (f a)) : Sound good' (outcome >>= f) := by
  cases outcome with
  | error refusal => exact h
  | ok a => exact hf a h

theorem sound_mapError {ε : Type} (outcome : Except ε α) {refusal : ε → PreparedResponse}
    (h : ∀ e, (refusal e).Refuses) : Sound (fun _ => True) (outcome.mapError refusal) := by
  cases outcome with
  | error e => exact h e
  | ok a => trivial

section Requests

variable (r : IncomingRequest) (name : String)

theorem sound_readParam [Param α] (place text : String) :
    Sound (fun _ => True) (readParam name place text : Except PreparedResponse α) :=
  sound_mapError _ fun _ => badInput_refuses _

theorem sound_pathParam [Param α] :
    Sound (fun _ => True) (pathParam r name : Except PreparedResponse α) :=
  (sound_mapError _ fun _ => badInput_refuses _).bind fun text _ => sound_readParam name "path" text

theorem sound_queryParam [Param α] :
    Sound (fun _ => True) (queryParam r name : Except PreparedResponse (Option α)) := by
  unfold queryParam
  cases r.queryFirst? name with
  | none => trivial
  | some text =>
    have hread := sound_readParam (α := α) name "query" text
    dsimp only
    cases hparam : (readParam name "query" text : Except PreparedResponse α) with
    | error refusal => rw [hparam] at hread; exact hread
    | ok a => trivial

theorem sound_readBody [Payload α] :
    Sound (fun _ => True) (readBody r : Except PreparedResponse α) :=
  sound_mapError _ fun _ => badInput_refuses _

end Requests

end BeaconApi
