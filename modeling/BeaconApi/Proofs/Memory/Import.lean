import BeaconApi.Proofs.Memory.Lookup

namespace BeaconApi.Memory

/-- The parent of a block is in the chain, at a slot before that of the block. -/
def Admits (s : Memory) (b : SignedBeaconBlock) : Prop :=
  ∃ parent, s.entry? b.parentRoot = some parent ∧ parent.slot.val < b.slot.val

instance (s : Memory) (b : SignedBeaconBlock) : Decidable (s.Admits b) :=
  decidable_of_iff ((s.entry? b.parentRoot).any fun parent => parent.slot.val < b.slot.val) <| by
    simp only [Admits, Option.any_eq_true, decide_eq_true_eq]

/-- The parent of a block that is admitted is the head. -/
def Leads (s : Memory) (b : SignedBeaconBlock) : Prop := s.Admits b ∧ b.parentRoot = s.head

instance (s : Memory) (b : SignedBeaconBlock) : Decidable (s.Leads b) :=
  inferInstanceAs (Decidable (_ ∧ _))

theorem publish_fst (s : Memory) (item : Gossip) : (s.publish item).1 = s.syncing := by
  unfold publish
  split
  next h => exact h.symm
  next h => exact (Bool.eq_false_iff.mpr h).symm

theorem publish_snd (s : Memory) (item : Gossip) : (s.publish item).2 =
    { s with published := if s.syncing then s.published else s.published.push item } := by
  unfold publish
  split <;> rfl

/-- What comes of passing something on. -/
theorem publish_run (s : Memory) (item : Gossip) : (backend.perform (.publish item)).run s =
    (.ok s.syncing, { s with published := if s.syncing then s.published else s.published.push item }) := by
  change ((.ok (s.publish item).1, (s.publish item).2) : Except BackendError Bool × Memory) = _
  rw [publish_fst, publish_snd]

theorem extend_eq (s : Memory) (e : ChainEntry) : s.extend e =
    { s with
      entries := s.entries.insert e.blockRoot e
      head := if e.parentRoot = s.head then e.blockRoot else s.head
      canonical := if e.parentRoot = s.head then s.canonical.insert e.slot e.blockRoot else s.canonical } := by
  unfold extend
  split <;> rfl

section Add

variable {s : Memory} {root : Root} {b : SignedBeaconBlock} (hfresh : s.entry? root = none)
include hfresh

/-- Under a fresh root, a block that is admitted extends the chain. -/
theorem addBlock_of_admits (hfiled : s.Filed) (h : s.Admits b) :
    s.addBlock root b = (.ok (), s.extend (entryOf root b)) := by
  obtain ⟨parent, hparent, hslot⟩ := h
  have hcontains : s.entries.contains root = false := by
    rw [Table.contains, show s.entries.get? root = none from hfresh]
    rfl
  simp only [addBlock, hcontains, Bool.false_eq_true, if_false, hparent, if_neg (UInt64.not_le.mpr hslot),
    hfiled.entryBehind_eq hparent]

/-- A block that is not admitted is found invalid, and the chain stays as it is. -/
theorem addBlock_of_not_admits (h : ¬ s.Admits b) :
    ∃ reason, s.addBlock root b = (.error (.invalid reason), s) := by
  have hcontains : s.entries.contains root = false := by
    rw [Table.contains, show s.entries.get? root = none from hfresh]
    rfl
  simp only [addBlock, hcontains, Bool.false_eq_true, if_false]
  cases hparent : s.entry? b.parentRoot with
  | none => exact ⟨_, rfl⟩
  | some parent =>
    have hslot : b.slot.val ≤ parent.slot.val := UInt64.not_lt.mp fun hlt => h ⟨parent, hparent, hlt⟩
    exact ⟨_, if_pos hslot⟩

end Add

/-- A block that could be added has an entry under its root. -/
theorem entry?_addBlock_of_ok {s : Memory} {root : Root} {b : SignedBeaconBlock}
    (h : (s.addBlock root b).1 = .ok ()) : ∃ entry, Memory.entry? (s.addBlock root b).2 root = some entry := by
  unfold addBlock at h ⊢
  split
  next hknown => exact Option.isSome_iff_exists.mp hknown
  next hunknown =>
    rw [if_neg hunknown] at h
    cases hparent : s.entry? b.parentRoot with
    | none =>
      rw [hparent] at h
      cases h
    | some parent =>
      rw [hparent] at h
      dsimp only at h ⊢
      split at h
      · cases h
      next hslot =>
        rw [if_neg hslot]
        exact ⟨_, entry?_extend_self s (entryBehind _ root b)⟩

/-- A node after a submitted block has been passed on and kept. -/
def keepBlock (s : Memory) (b : SignedBeaconBlock) : Memory := ((s.publish (.block b)).2.storeBlock b).2

/-- A node after a submitted block has been passed on, kept, and added to the chain. -/
def submitBlock (s : Memory) (b : SignedBeaconBlock) : Memory :=
  ((s.keepBlock b).addBlock (s.storeBlock b).1 b).2

/-- What has become of a node that has been given a block, which it keeps under a root. -/
structure Records (s : Memory) (b : SignedBeaconBlock) (root : Root) (s' : Memory) : Prop where
  /-- The root is a new one. -/
  fresh : s.blocks.get? root = none ∧ s.entry? root = none
  blocks (other : Root) : s'.blocks.get? other = if other = root then some b else s.blocks.get? other
  published : s'.published = if s.syncing then s.published else
    { s.published with blocks := s.published.blocks ++ [b] }
  entries (other : Root) : s'.entry? other =
    if other = root ∧ s.Admits b then some (entryOf root b) else s.entry? other
  head : s'.head = if s.Leads b then root else s.head
  canonical (slot : Slot) : s'.canonical.get? slot =
    if slot = b.slot ∧ s.Leads b then some root else s.canonical.get? slot
  finalized : s'.finalized = s.finalized
  justified : s'.justified = s.justified
  attestations : s'.attestations = s.attestations
  voluntaryExits : s'.voluntaryExits = s.voluntaryExits
  syncCommitteeMessages : s'.syncCommitteeMessages = s.syncCommitteeMessages
  syncing : s'.syncing = s.syncing
  genesisTime : s'.genesisTime = s.genesisTime

theorem keepBlock_eq (s : Memory) (b : SignedBeaconBlock) : s.keepBlock b =
    { s with
      published := if s.syncing then s.published else s.published.push (.block b)
      nextSequence := s.nextSequence + 1
      blocks := s.blocks.insert (s.storeBlock b).1 b } := by
  rw [keepBlock, publish_snd]
  rfl

section Submit

variable {s : Memory} {b : SignedBeaconBlock}
  (hfresh : s.blocks.get? (s.storeBlock b).1 = none ∧ s.entry? (s.storeBlock b).1 = none)
include hfresh

theorem addBlock_keepBlock_of_admits (hfiled : s.Filed) (h : s.Admits b) :
    (s.keepBlock b).addBlock (s.storeBlock b).1 b =
      (.ok (), (s.keepBlock b).extend (entryOf (s.storeBlock b).1 b)) := by
  refine addBlock_of_admits ?_ ?_ ?_ <;> rw [keepBlock_eq]
  · exact hfresh.2
  · exact hfiled
  · exact h

theorem addBlock_keepBlock_of_not_admits (h : ¬ s.Admits b) : ∃ reason,
    (s.keepBlock b).addBlock (s.storeBlock b).1 b = (.error (.invalid reason), s.keepBlock b) := by
  refine addBlock_of_not_admits ?_ ?_ <;> rw [keepBlock_eq]
  · exact hfresh.2
  · exact h

theorem submitBlock_eq (hfiled : s.Filed) : s.submitBlock b =
    { s with
      published := if s.syncing then s.published else s.published.push (.block b)
      nextSequence := s.nextSequence + 1
      blocks := s.blocks.insert (s.storeBlock b).1 b
      entries := if s.Admits b then s.entries.insert (s.storeBlock b).1 (entryOf (s.storeBlock b).1 b) else
        s.entries
      head := if s.Leads b then (s.storeBlock b).1 else s.head
      canonical := if s.Leads b then s.canonical.insert b.slot (s.storeBlock b).1 else s.canonical } := by
  by_cases hadmits : s.Admits b
  · have hleads : s.Leads b ↔ (entryOf (s.storeBlock b).1 b).parentRoot = s.head := and_iff_right hadmits
    rw [submitBlock, addBlock_keepBlock_of_admits hfresh hfiled hadmits, extend_eq, keepBlock_eq]
    simp only [hleads, if_pos hadmits]
    rfl
  · have hleads : ¬ s.Leads b := fun h => hadmits h.1
    obtain ⟨reason, hadd⟩ := addBlock_keepBlock_of_not_admits hfresh hadmits
    rw [submitBlock, hadd, keepBlock_eq, if_neg hadmits, if_neg hleads, if_neg hleads]

/-- A node that is given a block records it in each of its parts as the part demands. -/
theorem submitBlock_records (hfiled : s.Filed) : s.Records b (s.storeBlock b).1 (s.submitBlock b) := by
  rw [submitBlock_eq hfresh hfiled]
  refine ⟨hfresh, fun other => Table.get?_insert .., rfl, fun other => ?_, rfl, fun slot => ?_, rfl, rfl,
    rfl, rfl, rfl, rfl, rfl⟩
  · by_cases hadmits : s.Admits b
    · simp only [hadmits, and_true, if_true, entry?]
      exact Table.get?_insert ..
    · simp only [hadmits, and_false, if_false, entry?]
  · by_cases hleads : s.Leads b
    · simp only [hleads, and_true, if_true]
      exact Table.get?_insert ..
    · simp only [hleads, and_false, if_false]

end Submit

/-- The root that a stocked node gives next names neither a block nor an entry. -/
theorem Chronicle.Stocked.fresh_root {c : Chronicle} (h : c.Stocked) (b : SignedBeaconBlock) :
    c.memory.blocks.get? (c.memory.storeBlock b).1 = none ∧
      c.memory.entry? (c.memory.storeBlock b).1 = none := by
  have hblock := h.fresh b
  refine ⟨hblock, Option.eq_none_iff_forall_ne_some.mpr fun entry hentry => ?_⟩
  obtain ⟨other, hother, _⟩ := h.entries hentry
  rw [hblock] at hother
  cases hother

end BeaconApi.Memory
