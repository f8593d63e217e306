import BeaconApi.Client.Basic
import BeaconApi.Proofs.Api.Contents
import BeaconApi.Proofs.Client.Refusals

namespace BeaconApi

namespace PreparedResponse

variable {α : Type} [Payload α]

/-- What a client receives of a response. -/
def received (prepared : PreparedResponse) : Outcome :=
  .received prepared.write.1.status prepared.write.1.body

theorem received_of_body (prepared : PreparedResponse) {x : α} (hcode : Http.isStatus prepared.code)
    (hbody : prepared.body = some (.ok (Payload.toJson x))) :
    prepared.received = .received prepared.code (Payload.encode x).toUTF8 := by
  have hencode : prepared.encodeBody = .ok (some (Payload.encode x)) := by
    rw [encodeBody, hbody]
    rfl
  have hsent : prepared.write.1.body = (Payload.encode x).toUTF8 := by
    unfold write
    rw [hencode]
  rw [received, write_status_of_isStatus hcode, hsent]

/-- A response is a success that has a payload, and the payload can be read back. -/
structure Carries (prepared : PreparedResponse) (x : α) : Prop where
  code : prepared.code = 200
  body : prepared.body = some (.ok (Payload.toJson x))
  readsBack : Body.ReadsBack x

theorem ok_carries {x : α} (h : Body.ReadsBack x) : (ok x).Carries x := ⟨rfl, rfl, h⟩

theorem Carries.decode_received {prepared : PreparedResponse} {x : α} (h : prepared.Carries x) :
    prepared.received.decode = .ok (200, x) := by
  rw [received_of_body prepared (by rw [h.code]; decide) h.body, h.code, Outcome.decode,
    h.readsBack.decodeResponse 200 (by decide) (by decide)]
  rfl

theorem decode_received_error (code : UInt16) (hcode : Http.isStatus code) (h : 300 ≤ code)
    (message : String) :
    ((error code message).received.decode : Except ApiError (UInt16 × α)) =
      .error (.ofBody code (.plain (.plain (UInt64.ofNat code.toNat) message))) := by
  have hbody := ErrorBody.decode_encode (.plain (.plain (UInt64.ofNat code.toNat) message))
  have hreceived : (error code message).received =
      .received code (Payload.encode (ErrorBody.plain
        (.plain (UInt64.ofNat code.toNat) message))).toUTF8 :=
    received_of_body (error code message) hcode (error_explains code message).1
  rw [hreceived, Outcome.decode_of_error h, Body.errorOf_of_decode_eq_ok code hbody]

/-- An error with an error body, of which only the status code counts. -/
theorem discard_received_of_explains (code : UInt16) {prepared : PreparedResponse} {body : ErrorBody}
    (hexplains : prepared.Explains body) (hcode : prepared.code = code) (hstatus : Http.isStatus code)
    (h : 300 ≤ code) : prepared.received.discard = .error (.ofBody code body) := by
  subst hcode
  rw [received_of_body prepared hstatus hexplains.1, Outcome.discard_of_error h,
    Body.errorOf_of_decode_eq_ok prepared.code body.decode_encode]

theorem discard_received_of_ok {prepared : PreparedResponse} (hcode : prepared.code = 200) :
    prepared.received.discard = .ok 200 := by
  have hstatus : prepared.write.1.status = 200 := by
    rw [write_status_of_isStatus (by rw [hcode]; decide), hcode]
  rw [received, hstatus, Outcome.discard, Body.discardResponse,
    StatusClass.of_success (by decide) (by decide)]
  rfl

end PreparedResponse

namespace Client

open PreparedResponse

variable {α : Type} [Payload α]

theorem found_of_carries {prepared : PreparedResponse} {x : α} (h : prepared.Carries x) :
    found prepared.received = .ok (some x) := by
  rw [found, h.decode_received]

theorem found_notFound (message : String) :
    (found (notFound message).received : Except ApiError (Option α)) = .ok none := by
  have hdecode := decode_received_error (α := α) 404 (by decide) (by decide) message
  rw [found, notFound, hdecode]
  exact if_pos rfl

variable {m : Type → Type} {σ : Type} {client : Client (StateM σ)} {r : Request} {s s' : σ} {outcome : Outcome}
  (h : (client.request r).run s = (outcome, s'))
include h

theorem lookup_run :
    (client.lookup r : StateM σ (Except ApiError (Option α))).run s = (found outcome, s') := by
  unfold lookup
  rw [StateT.run_bind, h]
  rfl

theorem send_run : (client.send r).run s = (outcome.discard, s') := by
  unfold send
  rw [StateT.run_bind, h]
  rfl

theorem fetch_run :
    (client.fetch r : StateM σ (Except ApiError α)).run s =
      ((outcome.decode : Except ApiError (UInt16 × α)).map Prod.snd, s') := by
  unfold fetch
  rw [StateT.run_bind, h]
  rfl

end Client

end BeaconApi
