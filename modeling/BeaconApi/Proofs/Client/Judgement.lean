import BeaconApi.Proofs.Api.Contents
import BeaconApi.Proofs.Client.Refusals

namespace BeaconApi

open Json (Break Document)
open Wire (Decoded DecodeError)

/-- There is no value where a value should stand. -/
inductive Json.Document.Missing : Document → Prop
  | absent (stop : Break) : Missing (.absent stop)
  | malformed (stop : Break) : Missing (.malformed stop)

/-- No shape is read where there is no value. -/
theorem Wire.Shape.decode_of_missing (s : Shape) (buffered : Bool) (room : Nat) {d : Document}
    (h : d.Missing) : ∃ e, s.decode buffered room d = .error e := by
  cases h <;> cases s <;> exact ⟨_, rfl⟩

/-- A text of blanks has no value: it ends before one, or a form feed stands in its place. -/
theorem Json.Scan.missing_of_blanks {bytes : List UInt8}
    (h : ∀ byte ∈ bytes, Body.isBlankByte byte = true) : (run bytes).result.1.Missing := by
  unfold run
  induction bytes with
  | nil => exact .absent _
  | cons byte bytes ih =>
    have hrest := ih fun other hother => h other (List.mem_cons_of_mem _ hother)
    have hbyte := h byte List.mem_cons_self
    rw [List.foldl_cons]
    by_cases hfeed : byte = 0x0c
    · -- the one blank that a scan does not pass over
      subst hfeed
      change ((bytes.foldl feed (.broken (.malformed _))).finish).result.1.Missing
      rw [foldl_broken]
      exact .malformed _
    · have hblank : isBlank byte = true := by
        simpa [Body.isBlankByte, isBlank, hfeed] using hbyte
      change ((bytes.foldl feed (feedValue byte [])).finish).result.1.Missing
      rw [feedValue, if_pos hblank]
      exact hrest

/-- Nothing is read from a blank text. -/
theorem Payload.decode_of_isBlank {bytes : ByteArray} (h : Body.isBlank bytes = true) (α : Type) [Payload α] :
    ∃ e, (Payload.decode bytes : Decoded α) = .error e := by
  rw [Body.isBlank, ← Array.all_toList, List.all_eq_true] at h
  obtain ⟨e, he⟩ := (shape α).decode_of_missing false Document.maxDepth (Json.Scan.missing_of_blanks h)
  refine ⟨e, ?_⟩
  have hdocument : (ofDocument (Document.ofBytes bytes).1 : Decoded α) = .error e := by
    unfold ofDocument Document.ofBytes
    rw [he]
    rfl
  unfold decode
  dsimp only
  rw [hdocument]

/-- An error is the one that an answer without success stands for: the status code decides on its kind,
and where the answer has an error body, the error carries that body. -/
structure ApiError.Refuses (e : ApiError) (code : UInt16) (bytes : ByteArray) : Prop where
  status : e.status? = some code
  unexpectedStatus (h : code < 200) : e = .unexpectedStatus code
  malformedErrorBody (reason : String) : e = .malformedErrorBody code reason ↔
    300 ≤ code ∧ ∃ fault, (Payload.decode bytes : Decoded ErrorBody) = .error fault ∧
      (ApiError.decode fault.message).message = reason
  blank (h : 300 ≤ code) (hblank : Body.isBlank bytes = true) : ∃ reason, e = .malformedErrorBody code reason
  invalidRequest {body : ErrorBody} (hbody : Payload.decode bytes = .ok body)
    (h : 300 ≤ code ∧ code ≤ 499) : e = .invalidRequest code body
  currentlySyncing {body : ErrorBody} (hbody : Payload.decode bytes = .ok body) (h : code = 503) :
    e = .currentlySyncing code body
  internal {body : ErrorBody} (hbody : Payload.decode bytes = .ok body)
    (h : 500 ≤ code ∧ code ≤ 599 ∧ code ≠ 503) : e = .internal code body
  unclassified {body : ErrorBody} (hbody : Payload.decode bytes = .ok body) (h : 600 ≤ code) :
    e = .unclassified code body

namespace ApiError

variable {code : UInt16} {bytes : ByteArray}

theorem Refuses.of_unexpected (h : code < 200) : Refuses (.unexpectedStatus code) code bytes := by
  refine ⟨rfl, fun _ => rfl, ?_, ?_, ?_, ?_, ?_, ?_⟩
  -- no other kind of error goes with a status below 200
  all_goals grind

/-- The kind of an error that carries a body is that of the class of its status. -/
theorem ofBody_of_covers {k : StatusClass} (h : k.Covers code) (body : ErrorBody) :
    ofBody code body = match k with
      | .invalidRequest => .invalidRequest code body
      | .currentlySyncing => .currentlySyncing code body
      | .internal => .internal code body
      | .unexpected | .success | .unclassified => .unclassified code body := by
  rw [ofBody, StatusClass.of_eq_iff.mpr h]
  cases k <;> rfl

theorem Refuses.of_errorBody (h : 300 ≤ code) {body : ErrorBody} (hbody : Payload.decode bytes = .ok body) :
    Refuses (.ofBody code body) code bytes := by
  have hread {fault : DecodeError} (hfault : (Payload.decode bytes : Decoded ErrorBody) = .error fault) :
      False := nomatch hbody.symm.trans hfault
  refine ⟨ofBody_status? body, ?_, fun reason => ?_, fun _ hblank => ?_, ?_, ?_, ?_, ?_⟩
  · grind
  · refine iff_of_false (ofBody_ne_malformedErrorBody body code reason) ?_
    exact fun ⟨_, _, hfault, _⟩ => hread hfault
  · obtain ⟨_, hfault⟩ := Payload.decode_of_isBlank hblank ErrorBody
    exact (hread hfault).elim
  all_goals
    intro other hother hcovers
    obtain rfl : other = body := Except.ok.inj (hother.symm.trans hbody)
  · exact ofBody_of_covers (k := .invalidRequest) hcovers other
  · exact ofBody_of_covers (k := .currentlySyncing) hcovers other
  · exact ofBody_of_covers (k := .internal) hcovers other
  · exact ofBody_of_covers (k := .unclassified) hcovers other

theorem Refuses.of_malformed (h : 300 ≤ code) {fault : DecodeError}
    (hfault : (Payload.decode bytes : Decoded ErrorBody) = .error fault) :
    Refuses (.malformedErrorBody code (ApiError.decode fault.message).message) code bytes := by
  refine ⟨rfl, ?_, fun reason => ?_, fun _ _ => ⟨_, rfl⟩, ?_, ?_, ?_, ?_⟩
  case refine_1 => grind
  case refine_2 =>
    constructor
    · intro hreason
      injection hreason with _ hreason
      exact ⟨h, fault, hfault, hreason⟩
    · rintro ⟨_, other, hother, rfl⟩
      rw [Except.error.inj (hother.symm.trans hfault)]
  -- nothing is carried, since no body has been read
  all_goals exact fun hbody _ => nomatch hbody.symm.trans hfault

/-- The error of an answer of an error status is read from the body. -/
theorem Refuses.of_errorOf (h : 300 ≤ code) (bytes : ByteArray) :
    Refuses (Body.errorOf code bytes) code bytes := by
  cases hbody : (Payload.decode bytes : Decoded ErrorBody) with
  | ok body =>
    rw [Body.errorOf_of_decode_eq_ok code hbody]
    exact .of_errorBody h hbody
  | error fault =>
    unfold Body.errorOf Body.decode
    rw [hbody]
    exact .of_malformed h hbody

end ApiError

namespace Outcome

variable {code : UInt16}

/-- A success is read like any body that must have contents. -/
theorem decode_of_success (h : 200 ≤ code ∧ code ≤ 299) (bytes : ByteArray) (α : Type) [Payload α] :
    (received code bytes).decode = (Body.decodeContents bytes : Except ApiError α).map fun x => (code, x) := by
  have hclass : StatusClass.of code = .success := StatusClass.of_eq_iff.mpr h
  rw [decode, Body.decodeResponse, hclass]

theorem discard_of_success (h : 200 ≤ code ∧ code ≤ 299) (bytes : ByteArray) :
    (received code bytes).discard = .ok code := by
  have hclass : StatusClass.of code = .success := StatusClass.of_eq_iff.mpr h
  rw [discard, Body.discardResponse, hclass]
  rfl

/-- For a status outside 200 to 299 there is one `ApiError` that `decode`, at every payload type, and `discard`
give. It does not depend on the type, since the payload is never looked at. -/
theorem exists_refusal (h : ¬ (200 ≤ code ∧ code ≤ 299)) (bytes : ByteArray) :
    ∃ e : ApiError, e.Refuses code bytes ∧
      (∀ (α : Type) [Payload α], (received code bytes).decode = (.error e : Except ApiError (UInt16 × α))) ∧
      (received code bytes).discard = .error e := by
  rcases UInt16.lt_or_le code 200 with hunexpected | hlow
  · have hclass : StatusClass.of code = .unexpected := StatusClass.of_eq_iff.mpr hunexpected
    refine ⟨.unexpectedStatus code, .of_unexpected hunexpected, fun α _ => ?_, ?_⟩
    · rw [decode, Body.decodeResponse, hclass]
      rfl
    · rw [discard, Body.discardResponse, hclass]
      rfl
  · have herror : 300 ≤ code := by grind
    exact ⟨Body.errorOf code bytes, .of_errorOf herror bytes, decode_of_error herror bytes,
      discard_of_error herror bytes⟩

section Reading

variable {bytes : ByteArray} {α : Type} [Payload α]

theorem decode_of_isBlank (h : 200 ≤ code ∧ code ≤ 299) (hblank : Body.isBlank bytes = true) :
    (received code bytes).decode = (.error .noContent : Except ApiError (UInt16 × α)) := by
  rw [decode_of_success h, Body.decodeContents, if_pos hblank]
  rfl

theorem decode_of_contents (h : 200 ≤ code ∧ code ≤ 299) (hblank : Body.isBlank bytes = false) :
    (received code bytes).decode =
      ((Payload.decode bytes : Decoded α).mapError fun e => .decode e.message).map fun x => (code, x) := by
  have hcontents : (Body.decodeContents bytes : Except ApiError α) = Body.decode bytes := by
    rw [Body.decodeContents, hblank]
    rfl
  rw [decode_of_success h, hcontents, Body.decode]

/-- What can be read of an answer: a payload in the body of a success. -/
theorem decode_eq_ok_iff {c : UInt16} {x : α} :
    (received code bytes).decode = .ok (c, x) ↔
      c = code ∧ (200 ≤ code ∧ code ≤ 299) ∧ Body.isBlank bytes = false ∧ Payload.decode bytes = .ok x := by
  by_cases hsuccess : 200 ≤ code ∧ code ≤ 299
  · cases hblank : Body.isBlank bytes with
    | true =>
      rw [decode_of_isBlank hsuccess hblank]
      simp
    | false =>
      rw [decode_of_contents hsuccess hblank, map_eq_ok_iff]
      simp only [mapError_eq_ok_iff, Prod.mk.injEq]
      constructor
      · rintro ⟨y, hread, rfl, rfl⟩
        exact ⟨rfl, hsuccess, trivial, hread⟩
      · rintro ⟨rfl, _, _, hread⟩
        exact ⟨x, hread, rfl, rfl⟩
  · obtain ⟨e, _, hdecode, _⟩ := exists_refusal hsuccess bytes
    rw [hdecode]
    exact iff_of_false nofun fun ⟨_, h, _⟩ => hsuccess h

end Reading

/-- A status from 200 to 299 with a body that decodes and is not blank is what `Outcome.decode` accepts, and any
such status what `Outcome.discard` accepts. Both give the one error that `Refuses` for any other status, and
pass a `failed` outcome on. There is no premise on `code`, so statuses below 200 and above 599 are covered. -/
theorem judgement (code : UInt16) (bytes : ByteArray) :
    (∀ (α : Type) [Payload α] (c : UInt16) (x : α), (received code bytes).decode = .ok (c, x) ↔
      c = code ∧ (200 ≤ code ∧ code ≤ 299) ∧ Body.isBlank bytes = false ∧ Payload.decode bytes = .ok x) ∧
    (200 ≤ code ∧ code ≤ 299 →
      (received code bytes).discard = .ok code ∧
      ∀ (α : Type) [Payload α],
        (Body.isBlank bytes = true →
          (received code bytes).decode = (.error .noContent : Except ApiError (UInt16 × α))) ∧
        ∀ fault, Body.isBlank bytes = false → (Payload.decode bytes : Decoded α) = .error fault →
          (received code bytes).decode = (.error (.decode fault.message) : Except ApiError (UInt16 × α))) ∧
    (¬ (200 ≤ code ∧ code ≤ 299) →
      ∃ e : ApiError, e.Refuses code bytes ∧
        (∀ (α : Type) [Payload α],
          (received code bytes).decode = (.error e : Except ApiError (UInt16 × α))) ∧
        (received code bytes).discard = .error e) ∧
    ∀ e : ApiError,
      (∀ (α : Type) [Payload α], (failed e).decode = (.error e : Except ApiError (UInt16 × α))) ∧
      (failed e).discard = .error e := by
  refine ⟨fun α _ c x => decode_eq_ok_iff, fun hsuccess => ?_, fun h => exists_refusal h bytes,
    fun e => ⟨fun α _ => rfl, rfl⟩⟩
  refine ⟨discard_of_success hsuccess bytes, fun α _ => ⟨decode_of_isBlank hsuccess, ?_⟩⟩
  intro fault hblank hfault
  rw [decode_of_contents hsuccess hblank, hfault]
  rfl

end Outcome

end BeaconApi
