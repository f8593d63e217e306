import BeaconApi.Proofs.Memory.Import

namespace BeaconApi

/-- The validator that exits. -/
def SignedVoluntaryExit.validator (exit : SignedVoluntaryExit) : ValidatorIndex := exit.message.validatorIndex

namespace Memory

open PreparedResponse

/-- A validator has an exit in the pool. -/
def Pending (s : Memory) (validator : ValidatorIndex) : Prop :=
  ∃ exit ∈ s.voluntaryExits, exit.validator = validator

instance (s : Memory) (validator : ValidatorIndex) : Decidable (s.Pending validator) :=
  inferInstanceAs (Decidable (∃ exit ∈ s.voluntaryExits, exit.validator = validator))

/-- What is said about an exit of a validator that has one in the pool. -/
def alreadyPending (exit : SignedVoluntaryExit) : String :=
  "validator " ++ exit.validator.display ++ " already has a pending exit"

/-- Only the chain can be different after a block was added to it, or was not. -/
theorem addBlock_frame (s : Memory) (root : Root) (b : SignedBeaconBlock) : ∃ entries canonical head,
    (s.addBlock root b).2 = { s with entries, canonical, head } := by
  unfold addBlock
  split
  · exact ⟨_, _, _, rfl⟩
  · split
    · exact ⟨_, _, _, rfl⟩
    · split
      · exact ⟨_, _, _, rfl⟩
      · rw [extend_eq]
        exact ⟨_, _, _, rfl⟩

section Add

variable {s : Memory} {exit : SignedVoluntaryExit}

theorem any_eq_true_iff_pending :
    (s.voluntaryExits.any fun e => e.message.validatorIndex = exit.message.validatorIndex) = true ↔
      s.Pending exit.validator := by
  simp only [List.any_eq_true, decide_eq_true_eq]
  rfl

theorem addVoluntaryExit_of_pending (h : s.Pending exit.validator) :
    s.addVoluntaryExit exit = (.error (.invalid (alreadyPending exit)), s) :=
  if_pos (any_eq_true_iff_pending.mpr h)

theorem addVoluntaryExit_of_not_pending (h : ¬ s.Pending exit.validator) :
    s.addVoluntaryExit exit = (.ok (), { s with voluntaryExits := s.voluntaryExits ++ [exit] }) :=
  if_neg fun hany => h (any_eq_true_iff_pending.mp hany)

end Add

namespace Chronicle

/-- An event leaves the pool as it is, or adds the exit of a validator that has none there. -/
theorem Next.exits {c c' : Chronicle} (h : c.Next c') :
    c'.memory.voluntaryExits = c.memory.voluntaryExits ∨ ∃ exit, ¬ c.memory.Pending exit.validator ∧
      c'.memory.voluntaryExits = c.memory.voluntaryExits ++ [exit] := by
  obtain ⟨e, _, rfl⟩ := h
  obtain ⟨s, stored⟩ := c
  cases e with
  | perform op =>
    change (s.step op).2.voluntaryExits = s.voluntaryExits ∨ ∃ exit, ¬ s.Pending exit.validator ∧
      (s.step op).2.voluntaryExits = s.voluntaryExits ++ [exit]
    cases op with
    | addVoluntaryExit exit =>
      rw [step]
      by_cases hpending : s.Pending exit.validator
      · rw [addVoluntaryExit_of_pending hpending]
        exact .inl rfl
      · rw [addVoluntaryExit_of_not_pending hpending]
        exact .inr ⟨exit, hpending, rfl⟩
    | addBlock root b =>
      obtain ⟨entries, canonical, head, hadd⟩ := s.addBlock_frame root b
      rw [step, hadd]
      exact .inl rfl
    | publish item =>
      refine .inl ?_
      change (s.publish item).2.voluntaryExits = s.voluntaryExits
      rw [publish_snd]
    | addSyncCommitteeMessage message =>
      refine .inl ?_
      simp only [step, addSyncCommitteeMessage]
      split <;> rfl
    | genesis | head | finalized | justified | byBlockRoot | byStateRoot | canonicalAt | search | finality
    | syncStatus | getBlock | storeBlock | attestations | addAttestation | voluntaryExits | produceBlock
    | proposerDuties => exact .inl rfl
  | insertBlock b =>
    obtain ⟨entries, canonical, head, hadd⟩ := (s.storeBlock b).2.addBlock_frame (s.storeBlock b).1 b
    refine .inl ?_
    change ((s.storeBlock b).2.addBlock (s.storeBlock b).1 b).2.voluntaryExits = s.voluntaryExits
    rw [hadd]
    rfl
  | finalize root =>
    refine .inl ?_
    simp only [after, Event.apply, Memory.finalize]
    split <;> rfl
  | setSyncing syncing => exact .inl rfl

/-- Every run keeps the validators of the pool distinct, and only adds to the pool. -/
theorem Steps.exits {c c' : Chronicle} (h : c.Steps c')
    (hdistinct : (c.memory.voluntaryExits.map SignedVoluntaryExit.validator).Nodup) :
    (c'.memory.voluntaryExits.map SignedVoluntaryExit.validator).Nodup ∧
      c.memory.voluntaryExits <+: c'.memory.voluntaryExits := by
  induction h with
  | refl => exact ⟨hdistinct, List.prefix_refl _⟩
  | tail _ hnext ih =>
    obtain ⟨hnodup, hprefix⟩ := ih
    rcases hnext.exits with hsame | ⟨exit, hpending, hadd⟩
    · rw [hsame]
      exact ⟨hnodup, hprefix⟩
    · rw [hadd]
      refine ⟨?_, hprefix.trans (List.prefix_append _ _)⟩
      rw [List.map_append, List.nodup_append]
      refine ⟨hnodup, List.pairwise_singleton _ _, ?_⟩
      rintro validator hmem _ hnew rfl
      obtain ⟨other, hother, hvalidator⟩ := List.mem_map.mp hmem
      obtain rfl := List.mem_singleton.mp hnew
      exact hpending ⟨other, hother, hvalidator⟩

/-- After every run, a validator has one exit in the pool at most. -/
theorem Reachable.exits_distinct {genesisTime : Timestamp} {c : Chronicle} (h : Reachable genesisTime c) :
    (c.memory.voluntaryExits.map SignedVoluntaryExit.validator).Nodup :=
  (Steps.exits h List.nodup_nil).1

end Chronicle

end Memory

end BeaconApi
