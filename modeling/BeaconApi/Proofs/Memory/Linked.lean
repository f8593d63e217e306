import BeaconApi.Proofs.Map.Table
import BeaconApi.Proofs.Memory.Run

namespace BeaconApi

namespace Memory

/-- Going from parent to parent leads from a root to another, in no step or in some. The line of parents
ends at the first block. -/
inductive Descends (s : Memory) : Root → Root → Prop
  | refl (root : Root) : Descends s root root
  | step {root ancestor : Root} {entry : ChainEntry} (hentry : s.entry? root = some entry)
      (hroot : root ≠ genesisRoot) (hline : Descends s entry.parentRoot ancestor) :
      Descends s root ancestor

/-- Every entry is filed under its own root. -/
def Filed (s : Memory) : Prop :=
  ∀ ⦃root : Root⦄ ⦃entry : ChainEntry⦄, s.entry? root = some entry → entry.blockRoot = root

/-- The entry of a block, with the parent that the block names. -/
def entryOf (root : Root) (block : SignedBeaconBlock) : ChainEntry where
  slot := block.slot
  blockRoot := root
  parentRoot := block.parentRoot
  stateRoot := block.stateRoot
  bodyRoot := bodyRootOf root
  proposerIndex := block.proposerIndex

/-- The parent root that `addBlock` takes from the entry it finds is the one that the block names, since the entry
is filed under that root. -/
theorem Filed.entryBehind_eq {s : Memory} (h : s.Filed) {block : SignedBeaconBlock} {parent : ChainEntry}
    (hparent : s.entry? block.parentRoot = some parent) (root : Root) :
    entryBehind parent root block = entryOf root block := by
  rw [entryBehind, entryOf, h hparent]

/-- The entries of a node are linked up to the first one, and its canonical table is the line of its
head. -/
structure Linked (s : Memory) : Prop where
  filed : s.Filed
  genesis : s.entry? genesisRoot = some genesisEntry
  /-- Every other entry stands behind an entry at a lower slot. -/
  parent {root : Root} {entry : ChainEntry} : s.entry? root = some entry → root ≠ genesisRoot →
    ∃ parent, s.entry? entry.parentRoot = some parent ∧ parent.slot.val < entry.slot.val
  head : ∃ entry, s.entry? s.head = some entry
  finalized : ∃ entry, s.entry? s.finalized = some entry
  justified : ∃ entry, s.entry? s.justified = some entry
  canonical {slot : Slot} {root : Root} : s.canonical.get? slot = some root ↔
    s.Descends s.head root ∧ ∃ entry, s.entry? root = some entry ∧ entry.slot = slot

/-- No entry is lost or replaced on the way from one node to another. -/
def Keeps (s s' : Memory) : Prop :=
  ∀ ⦃root : Root⦄ ⦃entry : ChainEntry⦄, s.entry? root = some entry → s'.entry? root = some entry

theorem Descends.trans {s : Memory} {a b c : Root} (hab : s.Descends a b) (hbc : s.Descends b c) :
    s.Descends a c := by
  induction hab with
  | refl => exact hbc
  | step hentry hroot _ ih => exact .step hentry hroot (ih hbc)

theorem Descends.mono {s s' : Memory} (hkeeps : s.Keeps s') {root ancestor : Root}
    (h : s.Descends root ancestor) : s'.Descends root ancestor := by
  induction h with
  | refl => exact .refl _
  | step hentry hroot _ ih => exact .step (hkeeps hentry) hroot ih

namespace Linked

variable {s s' : Memory}

/-- The line of a known root consists of known roots, at slots that do not rise. -/
theorem line (h : s.Linked) {root ancestor : Root} {entry : ChainEntry}
    (hentry : s.entry? root = some entry) (hline : s.Descends root ancestor) :
    ∃ other, s.entry? ancestor = some other ∧ other.slot.val ≤ entry.slot.val := by
  induction hline generalizing entry with
  | refl => exact ⟨entry, hentry, UInt64.le_refl _⟩
  | step hknown hroot _ ih =>
    obtain rfl : _ = entry := Option.some.inj (hknown.symm.trans hentry)
    obtain ⟨parent, hparent, hslot⟩ := h.parent hentry hroot
    obtain ⟨other, hother, hle⟩ := ih hparent
    exact ⟨other, hother, UInt64.le_trans hle (UInt64.le_of_lt hslot)⟩

/-- New entries do not change the line of a known root. -/
theorem descends_iff (h : s.Linked) (hkeeps : s.Keeps s') {root ancestor : Root}
    {entry : ChainEntry} (hentry : s.entry? root = some entry) :
    s'.Descends root ancestor ↔ s.Descends root ancestor := by
  refine ⟨fun hline => ?_, .mono hkeeps⟩
  induction hline generalizing entry with
  | refl => exact .refl _
  | step hknown hroot _ ih =>
    obtain rfl : entry = _ := Option.some.inj ((hkeeps hentry).symm.trans hknown)
    obtain ⟨parent, hparent, _⟩ := h.parent hentry hroot
    exact .step hentry hroot (ih hparent)

/-- The line of every known root ends at the first block. -/
theorem descends_genesis (h : s.Linked) {root : Root} {entry : ChainEntry}
    (hentry : s.entry? root = some entry) : s.Descends root genesisRoot := by
  -- The slots of parents are lower, so the line cannot go on for ever.
  induction hslot : entry.slot.val.toNat using Nat.strongRecOn generalizing root entry with
  | ind slot ih =>
    by_cases hroot : root = genesisRoot
    · exact hroot ▸ .refl _
    · obtain ⟨parent, hparent, hlt⟩ := h.parent hentry hroot
      have hlt : parent.slot.val.toNat < slot := hslot ▸ UInt64.lt_iff_toNat_lt.mp hlt
      exact .step hentry hroot (ih _ hlt hparent rfl)

end Linked

theorem entry?_extend (s : Memory) (e : ChainEntry) (root : Root) :
    entry? (s.extend e) root = if root = e.blockRoot then some e else s.entry? root := by
  unfold extend
  split <;> exact Table.get?_insert ..

theorem entry?_extend_self (s : Memory) (e : ChainEntry) :
    entry? (s.extend e) e.blockRoot = some e := by
  rw [entry?_extend, if_pos rfl]

section Extend

variable {s : Memory} {e : ChainEntry}

/-- An entry behind the head becomes the head. -/
theorem head_extend_of_eq (h : e.parentRoot = s.head) : (s.extend e).head = e.blockRoot := by
  rw [extend, if_pos h]

theorem canonical_extend_of_eq (h : e.parentRoot = s.head) :
    (s.extend e).canonical = s.canonical.insert e.slot e.blockRoot := by
  rw [extend, if_pos h]

/-- Any other entry is a fork. -/
theorem head_extend_of_ne (h : e.parentRoot ≠ s.head) : (s.extend e).head = s.head := by
  rw [extend, if_neg h]

theorem canonical_extend_of_ne (h : e.parentRoot ≠ s.head) :
    (s.extend e).canonical = s.canonical := by
  rw [extend, if_neg h]

end Extend

/-- Extending a chain by an entry with a fresh root keeps the others. -/
theorem keeps_extend {s : Memory} {e : ChainEntry} (hfresh : s.entry? e.blockRoot = none) :
    s.Keeps (s.extend e) := by
  intro root entry hentry
  have hne : root ≠ e.blockRoot := by
    rintro rfl
    simp [hfresh] at hentry
  rw [entry?_extend, if_neg hne, hentry]

namespace Linked

/-- Whether a state is `Linked` depends on `entry?`, `canonical` and `head`, and on `finalized` and `justified`
only in that they have entries. Pools, published items, kept blocks and syncing do not matter. -/
theorem of_same_chain {s s' : Memory} (h : s.Linked) (hentry : s'.entry? = s.entry?)
    (hcanonical : s'.canonical = s.canonical) (hhead : s'.head = s.head)
    (hfinalized : ∃ entry, s.entry? s'.finalized = some entry)
    (hjustified : ∃ entry, s.entry? s'.justified = some entry) : s'.Linked := by
  have hkeeps : s.Keeps s' := by
    intro root entry hroot
    rw [hentry, hroot]
  refine ⟨?_, ?_, ?_, ?_, ?_, ?_, ?_⟩ <;> simp only [Filed, hentry, hhead, hcanonical]
  · exact h.filed
  · exact h.genesis
  · exact h.parent
  · exact h.head
  · exact hfinalized
  · exact hjustified
  · intro slot root
    obtain ⟨head, hknown⟩ := h.head
    rw [h.canonical, h.descends_iff hkeeps hknown]

section Extend

variable {s : Memory} {e parent : ChainEntry}

theorem ne_genesisRoot (h : s.Linked) (hfresh : s.entry? e.blockRoot = none) :
    e.blockRoot ≠ genesisRoot := by
  intro heq
  simp [heq, h.genesis] at hfresh

/-- The line of a new entry is the line of its parent with the entry itself. -/
theorem descends_extend_iff (h : s.Linked) (hfresh : s.entry? e.blockRoot = none)
    (hparent : s.entry? e.parentRoot = some parent) {ancestor : Root} :
    (s.extend e).Descends e.blockRoot ancestor ↔
      ancestor = e.blockRoot ∨ s.Descends e.parentRoot ancestor := by
  have hnew := entry?_extend_self s e
  rw [← h.descends_iff (keeps_extend hfresh) hparent]
  constructor
  · intro hline
    cases hline with
    | refl => exact .inl rfl
    | step hentry _ hline =>
      obtain rfl : _ = e := Option.some.inj (hentry.symm.trans hnew)
      exact .inr hline
  · rintro (rfl | hline)
    · exact .refl _
    · exact .step hnew (h.ne_genesisRoot hfresh) hline

/-- A root on a line of known roots has the entry that it had before. -/
theorem entry?_extend_of_line (h : s.Linked) (hfresh : s.entry? e.blockRoot = none)
    {root ancestor : Root} {known entry : ChainEntry} (hknown : s.entry? root = some known)
    (hline : s.Descends root ancestor) (hentry : entry? (s.extend e) ancestor = some entry) :
    s.entry? ancestor = some entry ∧ entry.slot.val ≤ known.slot.val := by
  obtain ⟨other, hother, hle⟩ := h.line hknown hline
  obtain rfl : other = entry :=
    Option.some.inj ((keeps_extend hfresh hother).symm.trans hentry)
  exact ⟨hother, hle⟩

/-- So a new entry makes no difference to the slots on such a line. -/
theorem line_extend_iff (h : s.Linked) (hfresh : s.entry? e.blockRoot = none)
    {root ancestor : Root} {known : ChainEntry} (hknown : s.entry? root = some known) {slot : Slot} :
    (s.Descends root ancestor ∧
        ∃ entry, entry? (s.extend e) ancestor = some entry ∧ entry.slot = slot) ↔
      s.Descends root ancestor ∧ ∃ entry, s.entry? ancestor = some entry ∧ entry.slot = slot := by
  constructor
  · rintro ⟨hline, entry, hentry, heq⟩
    exact ⟨hline, entry, (h.entry?_extend_of_line hfresh hknown hline hentry).1, heq⟩
  · rintro ⟨hline, entry, hentry, heq⟩
    exact ⟨hline, entry, keeps_extend hfresh hentry, heq⟩

/-- The canonical table remains the line of the head when an entry behind the head is added. -/
theorem canonical_extend_head (h : s.Linked) (hfresh : s.entry? e.blockRoot = none)
    (hparent : s.entry? e.parentRoot = some parent) (hslot : parent.slot.val < e.slot.val)
    (hbehind : e.parentRoot = s.head) {slot : Slot} {root : Root} :
    (s.extend e).canonical.get? slot = some root ↔
      (s.extend e).Descends (s.extend e).head root ∧
        ∃ entry, entry? (s.extend e) root = some entry ∧ entry.slot = slot := by
  rw [head_extend_of_eq hbehind, canonical_extend_of_eq hbehind, Table.get?_insert,
    h.descends_extend_iff hfresh hparent]
  split
  next heq =>
    constructor
    · intro hroot
      cases hroot
      exact ⟨.inl rfl, e, entry?_extend_self s e, heq.symm⟩
    · rintro ⟨rfl | hline, entry, hentry, rfl⟩
      · rfl
      -- The slots on the line of the parent lie below the slot of the new entry.
      · have hle := (h.entry?_extend_of_line hfresh hparent hline hentry).2
        rw [heq] at hle
        exact absurd hslot (UInt64.not_lt.mpr hle)
  next hne =>
    rw [h.canonical, ← hbehind, ← h.line_extend_iff hfresh hparent]
    constructor
    · rintro ⟨hline, hentry⟩
      exact ⟨.inr hline, hentry⟩
    · rintro ⟨rfl | hline, entry, hentry, rfl⟩
      · obtain rfl : e = entry := Option.some.inj ((entry?_extend_self s e).symm.trans hentry)
        exact absurd rfl hne
      · exact ⟨hline, entry, hentry, rfl⟩

/-- The canonical table remains the line of the head when a fork is added. -/
theorem canonical_extend_fork (h : s.Linked) (hfresh : s.entry? e.blockRoot = none)
    (hfork : e.parentRoot ≠ s.head) {slot : Slot} {root : Root} :
    (s.extend e).canonical.get? slot = some root ↔
      (s.extend e).Descends (s.extend e).head root ∧
        ∃ entry, entry? (s.extend e) root = some entry ∧ entry.slot = slot := by
  obtain ⟨head, hhead⟩ := h.head
  rw [head_extend_of_ne hfork, canonical_extend_of_ne hfork, h.canonical,
    h.descends_iff (keeps_extend hfresh) hhead, h.line_extend_iff hfresh hhead]

/-- An entry behind a known one at a lower slot keeps a chain linked. -/
theorem extend (h : s.Linked) (hfresh : s.entry? e.blockRoot = none)
    (hparent : s.entry? e.parentRoot = some parent) (hslot : parent.slot.val < e.slot.val) :
    (s.extend e).Linked := by
  have hkeeps := keeps_extend hfresh
  have hfinalized : (s.extend e).finalized = s.finalized := by
    unfold Memory.extend
    split <;> rfl
  have hjustified : (s.extend e).justified = s.justified := by
    unfold Memory.extend
    split <;> rfl
  refine ⟨?_, hkeeps h.genesis, ?_, ?_, ?_, ?_, ?_⟩
  · intro root entry hentry
    rw [entry?_extend] at hentry
    split at hentry
    next hroot =>
      cases hentry
      exact hroot.symm
    · exact h.filed hentry
  · intro root entry hentry hroot
    rw [entry?_extend] at hentry
    split at hentry
    · cases hentry
      exact ⟨parent, hkeeps hparent, hslot⟩
    · obtain ⟨other, hother, hlt⟩ := h.parent hentry hroot
      exact ⟨other, hkeeps hother, hlt⟩
  · by_cases hbehind : e.parentRoot = s.head
    · rw [head_extend_of_eq hbehind]
      exact ⟨e, entry?_extend_self s e⟩
    · rw [head_extend_of_ne hbehind]
      exact h.head.imp fun _ hentry => hkeeps hentry
  · rw [hfinalized]
    exact h.finalized.imp fun _ hentry => hkeeps hentry
  · rw [hjustified]
    exact h.justified.imp fun _ hentry => hkeeps hentry
  · intro slot root
    by_cases hbehind : e.parentRoot = s.head
    · exact h.canonical_extend_head hfresh hparent hslot hbehind
    · exact h.canonical_extend_fork hfresh hbehind

end Extend

/-- The chain of a new node is linked. -/
theorem new (genesisTime : Timestamp) : (Memory.new genesisTime).Linked := by
  have hentry : ∀ root, entry? (Memory.new genesisTime) root =
      if root = genesisRoot then some genesisEntry else none := fun root => Table.get?_single ..
  have hcanonical : ∀ slot, (Memory.new genesisTime).canonical.get? slot =
      if slot = ⟨0⟩ then some genesisRoot else none := fun slot => Table.get?_single ..
  have hgenesis : entry? (Memory.new genesisTime) genesisRoot = some genesisEntry := by simp [hentry]
  refine ⟨?_, hgenesis, ?_, ⟨_, hgenesis⟩, ⟨_, hgenesis⟩, ⟨_, hgenesis⟩, ?_⟩
  · intro root entry hroot
    rw [hentry] at hroot
    split at hroot
    next heq =>
      cases hroot
      exact heq.symm
    · cases hroot
  · intro root entry hroot hne
    rw [hentry, if_neg hne] at hroot
    cases hroot
  · intro slot root
    rw [hcanonical]
    constructor
    · intro hslot
      split at hslot
      next heq =>
        cases hslot
        exact ⟨.refl _, genesisEntry, hgenesis, heq.symm⟩
      · cases hslot
    · rintro ⟨hline, entry, hroot, rfl⟩
      rw [hentry] at hroot
      split at hroot
      next heq =>
        cases hroot
        rw [heq]
        rfl
      · cases hroot

end Linked

/-- Every change keeps a chain linked. -/
theorem Chronicle.Change.linked {c c' : Chronicle} (hchange : Chronicle.Change c c')
    (h : c.memory.Linked) : c'.memory.Linked := by
  cases hchange with
  | aside => exact h.of_same_chain rfl rfl rfl h.finalized h.justified
  | store block => exact h.of_same_chain rfl rfl rfl h.finalized h.justified
  | extend _ hfresh hparent hslot =>
    rw [h.filed.entryBehind_eq hparent]
    exact h.extend hfresh hparent hslot
  | finalize hentry => exact h.of_same_chain rfl rfl rfl ⟨_, hentry⟩ ⟨_, hentry⟩

/-- The chain of a node is linked after every run. -/
theorem Chronicle.Reachable.linked {genesisTime : Timestamp} {c : Chronicle}
    (h : Reachable genesisTime c) : c.memory.Linked :=
  Steps.keeps (P := fun c => c.memory.Linked) h Change.linked (Linked.new genesisTime)

namespace Chronicle

/-- Every `Reachable` chronicle has a well-formed chain: `entry?` files each entry under its own root and behind
an entry at a lower slot, and `canonical` is the line of `Descends` from the head to `genesisRoot`. No bound on
the kept blocks is imposed, since `addBlock` leaves a root that has an entry alone, also when running numbers
come round. -/
theorem reachable_chain_wellFormed {genesisTime : Timestamp} {c : Chronicle}
    (h : Reachable genesisTime c) :
    (∀ root entry, c.memory.entry? root = some entry → entry.blockRoot = root) ∧
    (∃ entry, c.memory.entry? genesisRoot = some entry ∧ entry.slot = ⟨0⟩) ∧
    (∀ root entry, c.memory.entry? root = some entry → root ≠ genesisRoot →
      ∃ parent, c.memory.entry? entry.parentRoot = some parent ∧
        parent.slot.val < entry.slot.val) ∧
    (∀ root ∈ [c.memory.head, c.memory.finalized, c.memory.justified],
      ∃ entry, c.memory.entry? root = some entry) ∧
    c.memory.Descends c.memory.head genesisRoot ∧
    ∀ slot root, c.memory.canonical.get? slot = some root ↔
      c.memory.Descends c.memory.head root ∧
        ∃ entry, c.memory.entry? root = some entry ∧ entry.slot = slot := by
  have hlinked := h.linked
  obtain ⟨head, hhead⟩ := hlinked.head
  refine ⟨fun _ _ hentry => hlinked.filed hentry, ⟨_, hlinked.genesis, rfl⟩,
    fun _ _ hentry hroot => hlinked.parent hentry hroot, ?_, hlinked.descends_genesis hhead,
    fun _ _ => hlinked.canonical⟩
  simpa using ⟨hlinked.head, hlinked.finalized, hlinked.justified⟩

/-- A block at a slot behind a parent. -/
def sampleBlock (slot : Slot) (parentRoot : Root) : SignedBeaconBlock :=
  .phase0 { (default : Phase0.SignedBeaconBlock) with
    message := { (default : Phase0.BeaconBlock) with slot, parentRoot } }

/-- A node with a block that became the head, and later another one behind the first block. -/
def forked : Chronicle :=
  (((initial ⟨0⟩).after (.insertBlock (sampleBlock ⟨2⟩ genesisRoot))).after
    (.perform (.storeBlock (sampleBlock ⟨5⟩ genesisRoot)))).after
    (.perform (.addBlock (derivedRoot 2 ⟨5⟩ .block) (sampleBlock ⟨5⟩ genesisRoot)))

theorem reachable_forked : Reachable ⟨0⟩ forked := by
  refine .tail (.tail (.tail .refl ⟨.insertBlock _, ?_, rfl⟩) ⟨.perform (.storeBlock _), ?_, rfl⟩)
    ⟨.perform (.addBlock _ _), ?_, rfl⟩
  · trivial
  · trivial
  · exact List.mem_cons_self

/-- The fork is known but not canonical. -/
theorem forked_chain_wellFormed :
    forked.memory.Descends forked.memory.head (derivedRoot 1 ⟨2⟩ .block) ∧
      (forked.memory.entry? (derivedRoot 2 ⟨5⟩ .block)).isSome ∧
      ¬ forked.memory.Descends forked.memory.head (derivedRoot 2 ⟨5⟩ .block) := by
  obtain ⟨_, _, _, _, _, hcanonical⟩ := reachable_chain_wellFormed reachable_forked
  refine ⟨((hcanonical ⟨2⟩ _).mp (by decide +kernel)).1, by decide +kernel, fun hline => ?_⟩
  have hslot : forked.memory.canonical.get? ⟨5⟩ = some (derivedRoot 2 ⟨5⟩ .block) :=
    (hcanonical ⟨5⟩ _).mpr ⟨hline, entryOf (derivedRoot 2 ⟨5⟩ .block) (sampleBlock ⟨5⟩ genesisRoot),
      by decide +kernel, rfl⟩
  exact absurd hslot (by decide +kernel)

end Chronicle

end Memory

end BeaconApi
