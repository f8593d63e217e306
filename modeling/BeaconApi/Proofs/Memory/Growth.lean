import BeaconApi.Proofs.Memory.Linked

namespace BeaconApi.Memory

/-- One chain is a later state of another. -/
structure Grows (s s' : Memory) : Prop where
  keeps : s.Keeps s'
  line : s'.Descends s'.head s.head
  /-- The canonical entries up to the head are settled, and so are the slots without one. -/
  settled {head : ChainEntry} : s.entry? s.head = some head →
    ∀ slot : Slot, slot.val ≤ head.slot.val → s'.canonicalAt? slot = s.canonicalAt? slot

namespace Linked

variable {s s' : Memory}

/-- The canonical entry of a slot stays as long as its root does. -/
theorem canonicalAt?_eq (h : s.Linked) (hkeeps : s.Keeps s') {slot : Slot}
    (hslot : s'.canonical.get? slot = s.canonical.get? slot) :
    s'.canonicalAt? slot = s.canonicalAt? slot := by
  unfold canonicalAt?
  rw [hslot]
  cases hroot : s.canonical.get? slot with
  | none => rfl
  | some root =>
    obtain ⟨_, entry, hentry, _⟩ := h.canonical.mp hroot
    rw [Option.bind_some, Option.bind_some, hentry, hkeeps hentry]

/-- The slot of the head does not fall. -/
theorem head_slot_le (h' : s'.Linked) (hgrows : s.Grows s') {head head' : ChainEntry}
    (hhead : s.entry? s.head = some head) (hhead' : s'.entry? s'.head = some head') :
    head.slot.val ≤ head'.slot.val := by
  obtain ⟨other, hother, hle⟩ := h'.line hhead' hgrows.line
  obtain rfl : other = head := Option.some.inj (hother.symm.trans (hgrows.keeps hhead))
  exact hle

/-- What leaves the entries and the line of the head alone counts as growth. -/
theorem grows_of_same_chain (h : s.Linked) (hentries : s'.entries = s.entries)
    (hcanonical : s'.canonical = s.canonical) (hhead : s'.head = s.head) : s.Grows s' := by
  have hkeeps : s.Keeps s' := by
    intro root entry hentry
    simpa only [Memory.entry?, hentries] using hentry
  refine ⟨hkeeps, ?_, ?_⟩
  · rw [hhead]
    exact .refl _
  · intro head _ slot _
    exact h.canonicalAt?_eq hkeeps (by rw [hcanonical])

/-- A new entry takes a canonical slot only above the head. -/
theorem grows_extend (h : s.Linked) {e parent : ChainEntry}
    (hfresh : s.entry? e.blockRoot = none) (hparent : s.entry? e.parentRoot = some parent)
    (hslot : parent.slot.val < e.slot.val) : s.Grows (s.extend e) := by
  have hkeeps := keeps_extend hfresh
  by_cases hbehind : e.parentRoot = s.head
  · refine ⟨hkeeps, ?_, ?_⟩
    · rw [head_extend_of_eq hbehind, h.descends_extend_iff hfresh hparent, hbehind]
      exact .inr (.refl _)
    · intro head hknown slot hle
      obtain rfl : parent = head := Option.some.inj (hparent.symm.trans (hbehind ▸ hknown))
      have hne : slot ≠ e.slot := by
        rintro rfl
        exact UInt64.not_lt.mpr hle hslot
      refine h.canonicalAt?_eq hkeeps ?_
      rw [canonical_extend_of_eq hbehind, Table.get?_insert, if_neg hne]
  · refine ⟨hkeeps, ?_, ?_⟩
    · rw [head_extend_of_ne hbehind]
      exact .refl _
    · intro head _ slot _
      refine h.canonicalAt?_eq hkeeps ?_
      rw [canonical_extend_of_ne hbehind]

end Linked

theorem Grows.trans {s s' s'' : Memory} (h : s.Grows s') (h' : s'.Grows s'')
    (hlinked' : s'.Linked) : s.Grows s'' where
  keeps _ _ hentry := h'.keeps (h.keeps hentry)
  line := h'.line.trans (h.line.mono h'.keeps)
  settled := by
    intro head hhead slot hslot
    obtain ⟨head', hhead'⟩ := hlinked'.head
    -- The head has not fallen, so what the first step settles the second one settles too.
    have hle := hlinked'.head_slot_le h hhead hhead'
    rw [h'.settled hhead' slot (UInt64.le_trans hslot hle), h.settled hhead slot hslot]

namespace Chronicle

/-- Every change lets a linked chain grow. -/
theorem Change.grows {c c' : Chronicle} (hchange : Change c c') (h : c.memory.Linked) :
    c.memory.Grows c'.memory := by
  cases hchange with
  | aside => exact h.grows_of_same_chain rfl rfl rfl
  | store block => exact h.grows_of_same_chain rfl rfl rfl
  | extend _ hfresh hparent hslot =>
    rw [h.filed.entryBehind_eq hparent]
    exact h.grows_extend hfresh hparent hslot
  | finalize => exact h.grows_of_same_chain rfl rfl rfl

/-- Every run lets a linked chain grow. -/
theorem Steps.grows {c c' : Chronicle} (hsteps : c.Steps c') (h : c.memory.Linked) :
    c'.memory.Linked ∧ c.memory.Grows c'.memory := by
  refine hsteps.keeps (P := fun c' => c'.memory.Linked ∧ c.memory.Grows c'.memory) ?_
    ⟨h, h.grows_of_same_chain rfl rfl rfl⟩
  intro c₁ c₂ hchange ⟨hlinked, hgrows⟩
  exact ⟨hchange.linked hlinked, hgrows.trans (hchange.grows hlinked) hlinked⟩

/-- From a `Reachable` chronicle on, `Steps` preserve every entry of `entry?` and the canonical entries and gaps
up to the slot of the head, and the new head `Descends` to the old one. The chain only grows behind the head by
`Change.extend`, so neither finality nor a bound on the kept blocks is needed. -/
theorem canonical_history_immutable {genesisTime : Timestamp} {c c' : Chronicle}
    (hreachable : Reachable genesisTime c) (hsteps : c.Steps c') :
    ∃ head head', c.memory.head? = some head ∧ c'.memory.head? = some head' ∧
      (∀ slot : Slot, slot.val ≤ head.slot.val →
        c'.memory.canonicalAt? slot = c.memory.canonicalAt? slot) ∧
      c'.memory.Descends c'.memory.head c.memory.head ∧ head.slot.val ≤ head'.slot.val ∧
      ∀ root entry, c.memory.entry? root = some entry → c'.memory.entry? root = some entry := by
  have hlinked := hreachable.linked
  obtain ⟨hlinked', hgrows⟩ := hsteps.grows hlinked
  obtain ⟨head, hhead⟩ := hlinked.head
  obtain ⟨head', hhead'⟩ := hlinked'.head
  exact ⟨head, head', hhead, hhead', hgrows.settled hhead, hgrows.line,
    hlinked'.head_slot_le hgrows hhead hhead', fun _ _ hentry => hgrows.keeps hentry⟩

/-- The forked node with one more block behind its head. -/
def forkedLater : Chronicle :=
  forked.after (.insertBlock (sampleBlock ⟨3⟩ (derivedRoot 1 ⟨2⟩ .block)))

/-- The head moves on, and the gap at slot 1 and the block at slot 2 stay. -/
theorem forked_history_immutable :
    forked.memory.head ≠ forkedLater.memory.head ∧
      forkedLater.memory.canonicalAt? ⟨1⟩ = none ∧
      (forkedLater.memory.canonicalAt? ⟨2⟩).map ChainEntry.blockRoot =
        some (derivedRoot 1 ⟨2⟩ .block) := by
  obtain ⟨head, _, hhead, _, hsettled, _⟩ :=
    canonical_history_immutable reachable_forked
      (.single ⟨.insertBlock _, trivial, rfl⟩ : forked.Steps forkedLater)
  have hslot : head.slot = ⟨2⟩ := by
    have hknown : forked.memory.head?.map ChainEntry.slot = some ⟨2⟩ := by decide +kernel
    rw [hhead] at hknown
    exact Option.some.inj hknown
  rw [hslot] at hsettled
  refine ⟨by decide +kernel, ?_, ?_⟩
  · rw [hsettled ⟨1⟩ (by decide)]
    decide +kernel
  · rw [hsettled ⟨2⟩ (by decide)]
    decide +kernel

end Chronicle

end BeaconApi.Memory
