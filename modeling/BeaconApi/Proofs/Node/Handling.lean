import BeaconApi.Proofs.Node.Answers

namespace BeaconApi.Memory

open PreparedResponse

variable {α β : Type} {c : Chronicle}

/-- Started at a chronicle, a computation is a run that ends as described. -/
def Runs (x : StateM Memory α) (c : Chronicle) (post : α → Chronicle → Prop) : Prop :=
  ∃ a c', c.Steps c' ∧ x.run c.memory = (a, c'.memory) ∧ post a c'

namespace Runs

variable {post : α → Chronicle → Prop} {post' : β → Chronicle → Prop}

theorem pure {a : α} (h : post a c) : Runs (Pure.pure a) c post := ⟨a, c, .refl, rfl, h⟩

theorem perform {op : Operation α} (hpermits : c.Permits (.perform op))
    (h : post (c.memory.step op).1 (c.after (.perform op))) : Runs (backend.perform op) c post :=
  ⟨_, _, .single ⟨_, hpermits, rfl⟩, rfl, h⟩

theorem bind {x : StateM Memory α} {f : α → StateM Memory β}
    (h : Runs x c fun a c' => Runs (f a) c' post') : Runs (x >>= f) c post' := by
  obtain ⟨a, c₁, hsteps, hx, b, c₂, hsteps', hf, hpost⟩ := h
  refine ⟨b, c₂, hsteps.trans hsteps', ?_, hpost⟩
  rw [StateT.run_bind, hx]
  exact hf

theorem mono {x : StateM Memory α} {other : α → Chronicle → Prop} (h : Runs x c post)
    (hpost : ∀ a c', post a c' → other a c') : Runs x c other := by
  obtain ⟨a, c', hsteps, hx, hend⟩ := h
  exact ⟨a, c', hsteps, hx, hpost a c' hend⟩

end Runs

/-- Started at a chronicle, a step of a handler is a run that gives something good or breaks off
with a refusal. -/
def Handles (x : ExceptT PreparedResponse (StateM Memory) α) (c : Chronicle) (good : α → Prop) : Prop :=
  Runs x.run c fun outcome _ => Sound good outcome

namespace Handles

variable {good : α → Prop} {good' : β → Prop}

theorem pure {a : α} (h : good a) : Handles (Pure.pure a) c good := Runs.pure h

theorem throw {refusal : PreparedResponse} (h : refusal.Refuses) :
    Handles (MonadExcept.throw refusal) c good :=
  ⟨.error refusal, c, .refl, rfl, h⟩

theorem run_bind {x : StateM Memory α} {f : α → ExceptT PreparedResponse (StateM Memory) β}
    (h : Runs x c fun a c' => Handles (f a) c' good') : Handles (ExceptT.lift x >>= f) c good' := by
  unfold Handles
  rw [ExceptT.run_bind_lift]
  exact Runs.bind h

theorem ask_bind {op : Operation α} {f : α → ExceptT PreparedResponse (StateM Memory) β}
    (hpermits : c.Permits (.perform op))
    (h : Handles (f (c.memory.step op).1) (c.after (.perform op)) good') :
    Handles (backend.ask op >>= f) c good' :=
  run_bind (Runs.perform hpermits h)

theorem lift_bind {outcome : Except PreparedResponse α}
    {f : α → ExceptT PreparedResponse (StateM Memory) β} (h : Sound good outcome)
    (hf : ∀ a, good a → Handles (f a) c good') : Handles (liftM outcome >>= f) c good' := by
  cases outcome with
  | error refusal => exact ⟨.error refusal, c, .refl, rfl, h⟩
  | ok a => exact hf a h

end Handles

theorem Reads.handles {x : ExceptT PreparedResponse (StateM Memory) α} {good : α → Prop}
    {outcome : Except PreparedResponse α} (h : Reads x c.memory outcome) (hsound : Sound good outcome) :
    Handles x c good :=
  ⟨outcome, c, .refl, h, hsound⟩

section Writers

variable (c) (r : IncomingRequest)

/-- Passing something on always succeeds; it tells whether the node is syncing. -/
theorem step_publish (s : Memory) (item : Gossip) :
    (s.step (.publish item)).1 = .ok (s.publish item).1 := rfl

theorem addBlock_ok_or_invalid (s : Memory) (root : Root) (block : SignedBeaconBlock) :
    (s.addBlock root block).1 = .ok () ∨
      ∃ reason, (s.addBlock root block).1 = .error (.invalid reason) := by
  unfold addBlock
  split
  · exact .inl rfl
  · split
    · exact .inr ⟨_, rfl⟩
    · split
      · exact .inr ⟨_, rfl⟩
      · exact .inl rfl

theorem publishBlock_handles : Handles (Endpoint.publishBlock backend r) c Proper := by
  refine .lift_bind (sound_readBody r) fun block _ => ?_
  -- The block is passed on, kept, and added under the root that it was given.
  refine .ask_bind trivial (.ask_bind trivial (.ask_bind List.mem_cons_self ?_))
  rw [step_publish]
  cases (c.memory.publish (.block block)).1 with
  | true => exact .throw (syncing_refuses _)
  | false =>
    generalize himported : (Memory.step _ (.addBlock _ block)).1 = imported
    obtain hok | ⟨reason, hinvalid⟩ := addBlock_ok_or_invalid _ _ block
    · obtain rfl : imported = .ok () := himported.symm.trans hok
      exact .pure (proper_of_success rfl)
    · obtain rfl : imported = .error (.invalid reason) := himported.symm.trans hinvalid
      exact .pure (.inl (by simp [accepted, ofPayload, ofCode, withBody]))

theorem batchReply_proper (outcome : BatchOutcome) (syncing done : String) :
    (Endpoint.batchReply outcome syncing done).Proper := by
  unfold Endpoint.batchReply
  split
  · exact .inr (badInputs_refuses _ _)
  · split
    · exact .inr (syncing_refuses _)
    · exact proper_of_success rfl

theorem acceptFrom_runs {accept : α → StateM Memory (Except BackendError Bool)}
    (haccept : ∀ c item, Runs (accept item) c fun _ _ => True) (items : List α) (c : Chronicle)
    (index : Nat) (outcome : BatchOutcome) :
    Runs (acceptFrom accept index outcome items) c fun _ _ => True := by
  induction items generalizing c index outcome with
  | nil => exact .pure trivial
  | cons item items ih => exact .bind ((haccept c item).mono fun _ c' _ => ih c' _ _)

theorem acceptIndexed_handles {accept : α → StateM Memory (Except BackendError Bool)}
    (haccept : ∀ c item, Runs (accept item) c fun _ _ => True) (items : List α)
    (syncing done : String) :
    Handles (do
      let outcome ← ExceptT.lift (acceptIndexed items accept)
      return Endpoint.batchReply outcome syncing done) c Proper :=
  .run_bind ((acceptFrom_runs haccept items c 0 _).mono fun _ _ _ => .pure (batchReply_proper _ _ _))

theorem acceptAttestation_runs (c : Chronicle) (attestation : Attestation) :
    Runs (Endpoint.acceptAttestation backend attestation) c fun _ _ => True := by
  refine .bind (.perform trivial ?_)
  split
  · exact .pure trivial
  · refine .bind (.perform trivial ?_)
    exact .perform trivial trivial

theorem publishAttestations_handles :
    Handles (Endpoint.publishAttestations backend r) c Proper :=
  .lift_bind (sound_readBody r) fun _ _ => acceptIndexed_handles c acceptAttestation_runs _ _ _

theorem acceptSyncCommitteeMessage_runs (c : Chronicle) (message : SyncCommitteeMessage) :
    Runs (Endpoint.acceptSyncCommitteeMessage backend message) c fun _ _ => True := by
  refine .bind (.perform trivial ?_)
  split
  · exact .pure trivial
  · exact .perform trivial trivial

theorem publishSyncCommitteeMessages_handles :
    Handles (Endpoint.publishSyncCommitteeMessages backend r) c Proper :=
  .lift_bind (sound_readBody r) fun _ _ =>
    acceptIndexed_handles c acceptSyncCommitteeMessage_runs _ _ _

theorem addVoluntaryExit_ok_or_invalid (s : Memory) (exit : SignedVoluntaryExit) :
    (s.addVoluntaryExit exit).1 = .ok () ∨
      ∃ reason, (s.addVoluntaryExit exit).1 = .error (.invalid reason) := by
  unfold addVoluntaryExit
  dsimp only
  split
  · exact .inr ⟨_, rfl⟩
  · exact .inl rfl

theorem publishVoluntaryExit_handles :
    Handles (Endpoint.publishVoluntaryExit backend r) c Proper := by
  refine .lift_bind (sound_readBody r) fun exit _ => ?_
  refine .ask_bind trivial ?_
  generalize hadded : (c.memory.step (.addVoluntaryExit exit)).1 = added
  obtain hok | ⟨reason, hinvalid⟩ := addVoluntaryExit_ok_or_invalid c.memory exit
  · obtain rfl : added = .ok () := hadded.symm.trans hok
    refine .ask_bind trivial ?_
    rw [step_publish]
    generalize (Memory.publish _ _).1 = syncing
    cases syncing with
    | true => exact .throw (syncing_refuses _)
    | false => exact .pure (proper_of_success rfl)
  · obtain rfl : added = .error (.invalid reason) := hadded.symm.trans hinvalid
    exact .throw (badInput_refuses reason)

end Writers

end BeaconApi.Memory
