import BeaconApi.Proofs.Memory.Linked
import BeaconApi.Proofs.Memory.Roots

namespace BeaconApi.Memory

theorem blocks_extend (s : Memory) (entry : ChainEntry) : (s.extend entry).blocks = s.blocks := by
  unfold Memory.extend
  split <;> rfl

theorem blocks_storeBlock (s : Memory) (block : SignedBeaconBlock) (root : Root) :
    (s.storeBlock block).2.blocks.get? root =
      if root = (s.storeBlock block).1 then some block else s.blocks.get? root :=
  Table.get?_insert ..

theorem toNat_nextSequence_storeBlock {s : Memory} (hroom : s.nextSequence.toNat + 1 < UInt64.size)
    (block : SignedBeaconBlock) : (s.storeBlock block).2.nextSequence.toNat = s.nextSequence.toNat + 1 := by
  change (s.nextSequence + 1).toNat = s.nextSequence.toNat + 1
  rw [UInt64.toNat_add]
  exact Nat.mod_eq_of_lt hroom

/-- Every block is kept under a running number that has been given. -/
def Numbered (s : Memory) : Prop :=
  ∀ (root : Root) (block : SignedBeaconBlock), s.blocks.get? root = some block →
    ∃ number slot, root = derivedRoot number slot .block ∧ number < s.nextSequence

namespace Numbered

variable {s : Memory} (h : s.Numbered)
include h

/-- The root that is given next is a new one. -/
theorem fresh (block : SignedBeaconBlock) : s.blocks.get? (s.storeBlock block).1 = none := by
  cases hknown : s.blocks.get? (s.storeBlock block).1 with
  | none => rfl
  | some other =>
    obtain ⟨number, slot, hroot, hlt⟩ := h _ _ hknown
    rw [← derivedRoot_sequence hroot] at hlt
    exact absurd hlt (UInt64.lt_irrefl _)

/-- The root that is given next is new, so that no block is replaced. -/
theorem keeps {root : Root} {other : SignedBeaconBlock} (hother : s.blocks.get? root = some other)
    (block : SignedBeaconBlock) : (s.storeBlock block).2.blocks.get? root = some other := by
  have hne : root ≠ (s.storeBlock block).1 := by
    rintro rfl
    rw [h.fresh block] at hother
    cases hother
  rw [blocks_storeBlock, if_neg hne, hother]

/-- The root that is given next stands above those of all blocks. -/
theorem lt_given {root : Root} {other : SignedBeaconBlock} (hother : s.blocks.get? root = some other)
    (block : SignedBeaconBlock) : root.toList < (s.storeBlock block).1.toList := by
  obtain ⟨number, slot, rfl, hlt⟩ := h _ _ hother
  exact derivedRoot_lt hlt slot block.slot .block .block

theorem store (hroom : s.nextSequence.toNat + 1 < UInt64.size) (block : SignedBeaconBlock) :
    (s.storeBlock block).2.Numbered := by
  have hlt : s.nextSequence < (s.storeBlock block).2.nextSequence := by
    rw [UInt64.lt_iff_toNat_lt, toNat_nextSequence_storeBlock hroom]
    omega
  intro root other hother
  rw [blocks_storeBlock] at hother
  split at hother
  next hroot => exact ⟨_, _, hroot, hlt⟩
  · obtain ⟨number, slot, hroot, hnumber⟩ := h _ _ hother
    exact ⟨number, slot, hroot, UInt64.lt_trans hnumber hlt⟩

end Numbered

/-- A new node keeps the first block alone, under a number that is given to no other. -/
theorem numbered_new (genesisTime : Timestamp) : (new genesisTime).Numbered := by
  intro root block hblock
  have hroot := Table.get?_single genesisRoot root genesisBlock
  split at hroot
  next heq => exact ⟨0, ⟨0⟩, heq, show (0 : UInt64) < 1 by decide⟩
  · cases hroot.symm.trans hblock

namespace Chronicle

/-- Some block is kept under each root that was given, and under the root of each entry. -/
structure Backed (c : Chronicle) : Prop where
  given {root : Root} {block : SignedBeaconBlock} : (root, block) ∈ c.stored →
    ∃ kept, c.memory.blocks.get? root = some kept
  entries {root : Root} {entry : ChainEntry} : c.memory.entry? root = some entry →
    ∃ kept, c.memory.blocks.get? root = some kept

theorem Backed.initial (genesisTime : Timestamp) : (initial genesisTime).Backed where
  given h := nomatch h
  entries := by
    intro root entry hentry
    have hroot := Table.get?_single genesisRoot root genesisEntry
    split at hroot
    next heq => exact ⟨genesisBlock, (Table.get?_single ..).trans (if_pos heq)⟩
    · cases hroot.symm.trans hentry

namespace Backed

variable {s : Memory} {stored : List (Root × SignedBeaconBlock)}

theorem store (h : Backed ⟨s, stored⟩) (block : SignedBeaconBlock) :
    Backed ⟨(s.storeBlock block).2, ((s.storeBlock block).1, block) :: stored⟩ := by
  have hkeeps : ∀ {root}, (∃ kept, s.blocks.get? root = some kept) →
      ∃ kept, (s.storeBlock block).2.blocks.get? root = some kept := by
    rintro root ⟨kept, hkept⟩
    rw [blocks_storeBlock]
    split
    · exact ⟨block, rfl⟩
    · exact ⟨kept, hkept⟩
  refine ⟨?_, fun hentry => hkeeps (h.entries hentry)⟩
  intro root other hmem
  rcases List.mem_cons.mp hmem with heq | hmem
  · obtain ⟨rfl, rfl⟩ := Prod.mk.inj heq
    exact ⟨_, (blocks_storeBlock ..).trans (if_pos rfl)⟩
  · exact hkeeps (h.given hmem)

theorem extend (h : Backed ⟨s, stored⟩) {e : ChainEntry} {block : SignedBeaconBlock}
    (hstored : (e.blockRoot, block) ∈ stored) : Backed ⟨s.extend e, stored⟩ := by
  refine ⟨?_, ?_⟩ <;> simp only [blocks_extend]
  · exact h.given
  · intro other entry hentry
    rw [entry?_extend] at hentry
    split at hentry
    next hother => exact hother ▸ h.given hstored
    · exact h.entries hentry

end Backed

theorem Change.backed {c c' : Chronicle} (hchange : Change c c') (h : c.Backed) : c'.Backed := by
  cases hchange with
  | aside => exact ⟨h.given, h.entries⟩
  | store block => exact h.store block
  | extend hstored _ _ _ => exact h.extend hstored
  | finalize => exact ⟨h.given, h.entries⟩

/-- After every run there is a block behind each entry. -/
theorem Reachable.backed {genesisTime : Timestamp} {c : Chronicle} (h : Reachable genesisTime c) :
    c.Backed :=
  Steps.keeps h Change.backed (.initial genesisTime)

/-- Running numbers are given once each, and the blocks behind the roots that were given are kept.
-/
structure Stocked (c : Chronicle) : Prop where
  sequence : c.memory.nextSequence.toNat = c.stored.length + 1
  numbered {root : Root} {block : SignedBeaconBlock} : c.memory.blocks.get? root = some block →
    ∃ number slot, root = derivedRoot number slot .block ∧ number < c.memory.nextSequence
  kept {root : Root} {block : SignedBeaconBlock} : (root, block) ∈ c.stored →
    c.memory.blocks.get? root = some block
  entries {root : Root} {entry : ChainEntry} : c.memory.entry? root = some entry →
    ∃ block, c.memory.blocks.get? root = some block ∧ entry = entryOf root block

/-- The number of blocks that can be kept before the running numbers are used up. -/
def capacity : Nat := UInt64.size - 1

theorem Stocked.initial (genesisTime : Timestamp) : (initial genesisTime).Stocked where
  sequence := rfl
  numbered := numbered_new genesisTime _ _
  kept h := nomatch h
  entries := by
    intro root entry hentry
    have hroot := Table.get?_single genesisRoot root genesisEntry
    split at hroot
    next heq =>
      obtain rfl : genesisEntry = entry := Option.some.inj (hroot.symm.trans hentry)
      exact ⟨genesisBlock, (Table.get?_single ..).trans (if_pos heq), heq ▸ rfl⟩
    · cases hroot.symm.trans hentry

namespace Stocked

variable {s : Memory} {stored : List (Root × SignedBeaconBlock)}

theorem memory_numbered (h : Stocked ⟨s, stored⟩) : s.Numbered := fun _ _ => h.numbered

/-- The root that is given next is a new one. -/
theorem fresh (h : Stocked ⟨s, stored⟩) (block : SignedBeaconBlock) :
    s.blocks.get? (s.storeBlock block).1 = none :=
  h.memory_numbered.fresh block

theorem store (h : Stocked ⟨s, stored⟩) (hroom : stored.length + 1 < capacity)
    (block : SignedBeaconBlock) :
    Stocked ⟨(s.storeBlock block).2, ((s.storeBlock block).1, block) :: stored⟩ := by
  have hnumbered := h.memory_numbered
  have hsequence : s.nextSequence.toNat = stored.length + 1 := h.sequence
  have hnumber : s.nextSequence.toNat + 1 < UInt64.size := by
    simp only [capacity] at hroom
    omega
  refine ⟨?_, hnumbered.store hnumber block _ _, ?_, ?_⟩
  · rw [toNat_nextSequence_storeBlock hnumber, hsequence]
    rfl
  · intro root other hmem
    rcases List.mem_cons.mp hmem with heq | hmem
    · obtain ⟨hroot, hblock⟩ := Prod.mk.inj heq
      rw [blocks_storeBlock, if_pos hroot, hblock]
    · exact hnumbered.keeps (h.kept hmem) block
  · intro root entry hentry
    obtain ⟨other, hother, heq⟩ := h.entries hentry
    exact ⟨other, hnumbered.keeps hother block, heq⟩

/-- The entries of blocks are filed. -/
theorem filed (h : Stocked ⟨s, stored⟩) : s.Filed := by
  intro root entry hentry
  obtain ⟨block, -, rfl⟩ := h.entries hentry
  rfl

theorem extend (h : Stocked ⟨s, stored⟩) {root : Root} {block : SignedBeaconBlock}
    (hstored : (root, block) ∈ stored) : Stocked ⟨s.extend (entryOf root block), stored⟩ := by
  have hblocks := blocks_extend s (entryOf root block)
  have hsequence : (s.extend (entryOf root block)).nextSequence = s.nextSequence := by
    unfold Memory.extend
    split <;> rfl
  refine ⟨?_, ?_, ?_, ?_⟩ <;> simp only [hblocks, hsequence]
  · exact h.sequence
  · exact h.numbered
  · exact h.kept
  · intro other entry hentry
    rw [entry?_extend] at hentry
    split at hentry
    next hother =>
      cases hentry
      exact ⟨block, hother ▸ h.kept hstored, hother ▸ rfl⟩
    · exact h.entries hentry

end Stocked

/-- Every change keeps a node stocked while there is room. -/
theorem Change.stocked {c c' : Chronicle} (hchange : Change c c') (h : c.Stocked)
    (hroom : c'.stored.length < capacity) : c'.Stocked := by
  cases hchange with
  | aside => exact ⟨h.sequence, h.numbered, h.kept, h.entries⟩
  | store block => exact h.store hroom block
  | extend hstored _ hparent _ =>
    rw [h.filed.entryBehind_eq hparent]
    exact h.extend hstored
  | finalize => exact ⟨h.sequence, h.numbered, h.kept, h.entries⟩

theorem Change.stored_length_le {c c' : Chronicle} (hchange : Change c c') :
    c.stored.length ≤ c'.stored.length := by
  cases hchange <;> simp

/-- A node is stocked after every run in which fewer blocks are kept than there are numbers for. -/
theorem Reachable.stocked {genesisTime : Timestamp} {c : Chronicle} (h : Reachable genesisTime c)
    (hroom : c.stored.length < capacity) : c.Stocked := by
  have hstocked := Steps.keeps (P := fun c => c.stored.length < capacity → c.Stocked) h
    (fun hchange ih hroom =>
      hchange.stocked (ih (Nat.lt_of_le_of_lt hchange.stored_length_le hroom)) hroom)
    (fun _ => .initial genesisTime)
  exact hstocked hroom

/-- Every root is given once in a run in which fewer blocks are kept than there are numbers for. -/
theorem Reachable.stored_distinct {genesisTime : Timestamp} {c : Chronicle} (h : Reachable genesisTime c)
    (hroom : c.stored.length < capacity) : (c.stored.map Prod.fst).Nodup := by
  have hdistinct := Steps.keeps
    (P := fun c => c.stored.length < capacity → c.Stocked ∧ (c.stored.map Prod.fst).Nodup) h ?_
    (fun _ => ⟨.initial genesisTime, List.nodup_nil⟩)
  · exact (hdistinct hroom).2
  · intro c c' hchange ih hroom
    obtain ⟨hstocked, hnodup⟩ := ih (Nat.lt_of_le_of_lt hchange.stored_length_le hroom)
    refine ⟨hchange.stocked hstocked hroom, ?_⟩
    cases hchange with
    | aside => exact hnodup
    | extend => exact hnodup
    | finalize => exact hnodup
    | store block =>
      refine List.nodup_cons.mpr ⟨fun hmem => ?_, hnodup⟩
      -- What was given before stands for a block, and the new root does not.
      obtain ⟨⟨root, other⟩, hgiven, hroot⟩ := List.mem_map.mp hmem
      have hkept := hstocked.kept hgiven
      rw [show root = _ from hroot, hstocked.fresh block] at hkept
      cases hkept

/-- What has been given stays given, and more stands before it. -/
theorem Steps.stored_suffix {c c' : Chronicle} (h : c.Steps c') : c.stored <:+ c'.stored := by
  refine h.keeps (P := fun c' => c.stored <:+ c'.stored) (fun hchange ih => ?_) (List.suffix_refl _)
  cases hchange with
  | aside => exact ih
  | extend => exact ih
  | finalize => exact ih
  | store block => exact ih.trans (List.suffix_cons _ _)

/-- A root that names no block after a run has named none before. -/
theorem Steps.unnamed {c c' : Chronicle} (h : c.Steps c') {root : Root}
    (hnone : c'.memory.blocks.get? root = none) : c.memory.blocks.get? root = none := by
  cases hblock : c.memory.blocks.get? root with
  | none => rfl
  | some b =>
    refine absurd hnone (h.keeps (P := fun c' => c'.memory.blocks.get? root ≠ none) (fun hchange ih => ?_) ?_)
    · cases hchange with
      | aside => exact ih
      | finalize => exact ih
      | extend =>
        rw [blocks_extend]
        exact ih
      | store block =>
        rw [blocks_storeBlock]
        split
        · exact Option.some_ne_none _
        · exact ih
    · rw [hblock]
      exact Option.some_ne_none b

end Chronicle

end BeaconApi.Memory
