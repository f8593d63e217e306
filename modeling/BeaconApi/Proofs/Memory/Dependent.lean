import Mathlib.Data.List.Induction
import BeaconApi.Proofs.Memory.Duties
import BeaconApi.Proofs.Memory.Growth
import BeaconApi.Proofs.Memory.Lookup

namespace BeaconApi.Memory

/-- What has been found among some rows: the row at the highest slot below a bound, or nothing if all of
them are at the bound or above. -/
def Highest (bound : Nat) (rows : List (Slot × Root)) : Option (Slot × Root) → Prop
  | none => ∀ row ∈ rows, bound ≤ row.1.val.toNat
  | some best => best ∈ rows ∧ best.1.val.toNat < bound ∧
    ∀ row ∈ rows, row.1.val.toNat < bound → row.1.val ≤ best.1.val

variable {bound : Nat}

/-- One more row takes the place of what has been found if it is higher and below the bound. -/
theorem Highest.step {rows : List (Slot × Root)} {best : Option (Slot × Root)} (h : Highest bound rows best)
    (row : Slot × Root) : Highest bound (rows ++ [row]) (laterBelow bound best row) := by
  have hboth {P : Slot × Root → Prop} (hrows : ∀ other ∈ rows, P other) (hrow : P row) :
      ∀ other ∈ rows ++ [row], P other :=
    List.forall_mem_append.mpr ⟨hrows, List.forall_mem_singleton.mpr hrow⟩
  have hlast : row ∈ rows ++ [row] := List.mem_append_right rows List.mem_cons_self
  unfold laterBelow
  split
  next hbelow =>
    cases best with
    | none =>
      refine ⟨hlast, hbelow, hboth (fun other hother hlt => ?_) fun _ => UInt64.le_refl _⟩
      exact absurd hlt (Nat.not_lt.mpr (h other hother))
    | some best =>
      obtain ⟨hmem, hbest, hhighest⟩ := h
      dsimp only
      split
      next hlower =>
        refine ⟨hlast, hbelow, hboth (fun other hother hlt => ?_) fun _ => UInt64.le_refl _⟩
        exact UInt64.le_trans (hhighest other hother hlt) (UInt64.le_of_lt hlower)
      next hlower =>
        exact ⟨List.mem_append_left _ hmem, hbest, hboth hhighest fun _ => UInt64.not_lt.mp hlower⟩
  next habove =>
    cases best with
    | none => exact hboth h (Nat.not_lt.mp habove)
    | some best =>
      obtain ⟨hmem, hbest, hhighest⟩ := h
      exact ⟨List.mem_append_left _ hmem, hbest, hboth hhighest fun hlt => absurd hlt habove⟩

/-- Going through all rows finds the highest one below the bound. -/
theorem highest_foldl (bound : Nat) (rows : List (Slot × Root)) :
    Highest bound rows (rows.foldl (laterBelow bound) none) := by
  induction rows using List.reverseRecOn with
  | nil => exact nofun
  | append_singleton rows row ih =>
    rw [List.foldl_concat]
    exact ih.step row

/-- The latest block of the line of the head before a slot: the block is on the line, and every other
block of the line before the slot stands at a lower slot. -/
structure LatestBefore (s : Memory) (bound : Nat) (root : Root) (entry : ChainEntry) : Prop where
  line : s.Descends s.head root
  known : s.entry? root = some entry
  before : entry.slot.val.toNat < bound
  latest {other : Root} {otherEntry : ChainEntry} : s.Descends s.head other →
    s.entry? other = some otherEntry → otherEntry.slot.val.toNat < bound → other ≠ root →
    otherEntry.slot.val < entry.slot.val

variable {s s' : Memory} {root : Root} {entry : ChainEntry}

theorem LatestBefore.unique (h : s.LatestBefore bound root entry) {root' : Root} {entry' : ChainEntry}
    (h' : s.LatestBefore bound root' entry') : root = root' := by
  by_contra hne
  have hlower := h.latest h'.line h'.known h'.before (Ne.symm hne)
  exact UInt64.lt_asymm hlower (h'.latest h.line h.known h.before hne)

/-- Before the first slot there is no block, and the first block stands in. -/
theorem dependentRoot_zero (s : Memory) : s.dependentRoot 0 = genesisRoot := by
  have hhighest := highest_foldl 0 s.canonical.rows
  unfold dependentRoot
  cases hfold : s.canonical.rows.foldl (laterBelow 0) none with
  | none => rfl
  | some best =>
    rw [hfold] at hhighest
    exact absurd hhighest.2.1 (Nat.not_lt_zero _)

namespace Linked

/-- Two blocks of the line of the head at one slot are the same. -/
theorem line_slot_injective (h : s.Linked) {other : Root} {otherEntry : ChainEntry}
    (hline : s.Descends s.head root) (hentry : s.entry? root = some entry)
    (hotherLine : s.Descends s.head other) (hother : s.entry? other = some otherEntry)
    (hslot : otherEntry.slot = entry.slot) : other = root := by
  have hroot := h.canonical.mpr ⟨hline, entry, hentry, rfl⟩
  have hotherRoot := h.canonical.mpr ⟨hotherLine, otherEntry, hother, hslot⟩
  exact Option.some.inj (hotherRoot.symm.trans hroot)

/-- After the first slot the dependent root is that of the latest block before the bound. -/
theorem latestBefore_dependentRoot (h : s.Linked) (hbound : 0 < bound) :
    ∃ entry, s.LatestBefore bound (s.dependentRoot bound) entry := by
  have hhighest := highest_foldl bound s.canonical.rows
  have hrow {root : Root} {entry : ChainEntry} (hline : s.Descends s.head root)
      (hentry : s.entry? root = some entry) : (entry.slot, root) ∈ s.canonical.rows :=
    Table.get?_eq_some_iff.mp (h.canonical.mpr ⟨hline, entry, hentry, rfl⟩)
  unfold dependentRoot
  cases hfold : s.canonical.rows.foldl (laterBelow bound) none with
  | none =>
    -- The first block is on the line of the head, below every bound.
    rw [hfold] at hhighest
    obtain ⟨head, hhead⟩ := h.head
    have hgenesis := hhighest _ (hrow (h.descends_genesis hhead) h.genesis)
    exact absurd hbound (Nat.not_lt.mpr hgenesis)
  | some best =>
    rw [hfold] at hhighest
    obtain ⟨hmem, hbelow, hhighest⟩ := hhighest
    obtain ⟨hline, entry, hentry, hslot⟩ := h.canonical.mp (Table.get?_eq_some_iff.mpr hmem)
    refine ⟨entry, hline, hentry, by rwa [hslot], fun {other otherEntry} hotherLine hother hlt hne => ?_⟩
    have hle := hhighest _ (hrow hotherLine hother) hlt
    rw [← hslot] at hle
    refine UInt64.lt_of_le_of_ne hle fun heq => hne ?_
    exact h.line_slot_injective hline hentry hotherLine hother (congrArg Quantity.mk heq)

/-- Once the head has reached the slot before a bound, the latest block before the bound stays. -/
theorem latestBefore_of_grows (h : s.Linked) (h' : s'.Linked) (hgrows : s.Grows s') {head : ChainEntry}
    (hhead : s.head? = some head) (hbound : bound ≤ head.slot.val.toNat + 1)
    (hlatest : s.LatestBefore bound root entry) : s'.LatestBefore bound root entry where
  line := hgrows.line.trans (hlatest.line.mono hgrows.keeps)
  known := hgrows.keeps hlatest.known
  before := hlatest.before
  latest {other otherEntry} hotherLine hother hlt hne := by
    have hcanonical' : s'.canonicalAt? otherEntry.slot = some otherEntry := by
      unfold canonicalAt?
      rw [h'.canonical.mpr ⟨hotherLine, otherEntry, hother, rfl⟩]
      exact hother
    -- The slot is at or below that of the head, so its canonical block is settled.
    have hslot : otherEntry.slot.val ≤ head.slot.val := UInt64.le_iff_toNat_le.mpr (by omega)
    rw [hgrows.settled hhead _ hslot] at hcanonical'
    obtain ⟨settledRoot, hsettled, hentry⟩ := Option.bind_eq_some_iff.mp hcanonical'
    obtain rfl : settledRoot = other := (h.filed hentry).symm.trans (h'.filed hother)
    exact hlatest.latest (h.canonical.mp hsettled).1 hentry hlt hne

/-- So the dependent root stays as well. -/
theorem dependentRoot_of_grows (h : s.Linked) (h' : s'.Linked) (hgrows : s.Grows s') {head : ChainEntry}
    (hhead : s.head? = some head) (hbound : bound ≤ head.slot.val.toNat + 1) :
    s'.dependentRoot bound = s.dependentRoot bound := by
  rcases Nat.eq_zero_or_pos bound with rfl | hpos
  · rw [dependentRoot_zero, dependentRoot_zero]
  · obtain ⟨entry, hlatest⟩ := h.latestBefore_dependentRoot hpos
    obtain ⟨entry', hlatest'⟩ := h'.latestBefore_dependentRoot hpos
    exact hlatest'.unique (h.latestBefore_of_grows h' hgrows hhead hbound hlatest)

theorem dependentRoot_known (h : s.Linked) (bound : Nat) :
    ∃ entry, s.entry? (s.dependentRoot bound) = some entry := by
  rcases Nat.eq_zero_or_pos bound with rfl | hpos
  · exact ⟨genesisEntry, s.dependentRoot_zero ▸ h.genesis⟩
  · obtain ⟨entry, hlatest⟩ := h.latestBefore_dependentRoot hpos
    exact ⟨entry, hlatest.known⟩

end Linked

namespace Chronicle

/-- The `dependentRoot` of an epoch is the block of the canonical line that is `LatestBefore` the epoch, or
`genesisRoot` for epoch 0, and `Steps` keep it once the head is at the last slot before the epoch. `hepoch` says
that the first slot is in range, since `proposerDuties` refuses the epoch otherwise. -/
theorem dependent_root_settles {genesisTime : Timestamp} {c : Chronicle} (hreachable : Reachable genesisTime c)
    (epoch : Epoch) (hepoch : epoch.val.toNat * slotsPerEpoch < UInt64.size) :
    ∃ duties, c.memory.proposerDuties epoch = .ok duties ∧
      (epoch = ⟨0⟩ → duties.dependentRoot = genesisRoot) ∧
      (epoch ≠ ⟨0⟩ → ∃ entry,
        c.memory.LatestBefore (epoch.val.toNat * slotsPerEpoch) duties.dependentRoot entry) ∧
      (∃ entry, c.memory.entry? duties.dependentRoot = some entry) ∧
      ∀ head c', c.memory.head? = some head → epoch.val.toNat * slotsPerEpoch ≤ head.slot.val.toNat + 1 →
        c.Steps c' → ∃ duties', c'.memory.proposerDuties epoch = .ok duties' ∧
          duties'.dependentRoot = duties.dependentRoot := by
  have hlinked := hreachable.linked
  refine ⟨_, c.memory.proposerDuties_eq hepoch, ?_, fun hne => ?_, hlinked.dependentRoot_known _, ?_⟩
  · rintro rfl
    exact c.memory.dependentRoot_zero
  · have hpos : 0 < epoch.val.toNat := by
      refine Nat.pos_of_ne_zero fun hzero => hne ?_
      exact congrArg Quantity.mk (UInt64.toNat_inj.mp hzero)
    exact hlinked.latestBefore_dependentRoot (Nat.mul_pos hpos (by decide))
  · intro head c' hhead hbound hsteps
    obtain ⟨hlinked', hgrows⟩ := hsteps.grows hlinked
    exact ⟨_, c'.memory.proposerDuties_eq hepoch,
      hlinked.dependentRoot_of_grows hlinked' hgrows hhead hbound⟩

/-- The forked node with a block at slot 40 behind its head. -/
def passedBoundary : Chronicle :=
  forked.after (.insertBlock (sampleBlock ⟨40⟩ (derivedRoot 1 ⟨2⟩ .block)))

/-- The same node later: a block in the gap before slot 32 does not become part of its line. -/
def passedBoundaryLater : Chronicle :=
  passedBoundary.after (.insertBlock (sampleBlock ⟨31⟩ (derivedRoot 1 ⟨2⟩ .block)))

/-- The duties of epoch 1 depend on the block at slot 2 and not on the fork at slot 5, and the later block
at slot 31 changes nothing. -/
theorem boundary_duties_settled :
    ∃ duties duties', passedBoundary.memory.proposerDuties ⟨1⟩ = .ok duties ∧
      passedBoundaryLater.memory.proposerDuties ⟨1⟩ = .ok duties' ∧
      duties.dependentRoot = derivedRoot 1 ⟨2⟩ .block ∧ duties'.dependentRoot = derivedRoot 1 ⟨2⟩ .block := by
  have hreachable : Reachable ⟨0⟩ passedBoundary := reachable_forked.tail ⟨.insertBlock _, trivial, rfl⟩
  obtain ⟨duties, hduties, _, _, _, hlater⟩ := dependent_root_settles hreachable ⟨1⟩ (by decide)
  obtain ⟨head, hhead, hslot⟩ : ∃ head, passedBoundary.memory.head? = some head ∧ head.slot = ⟨40⟩ := by
    have hknown : passedBoundary.memory.head?.map ChainEntry.slot = some ⟨40⟩ := by decide +kernel
    exact Option.map_eq_some_iff.mp hknown
  obtain ⟨duties', hduties', hsame⟩ := hlater head passedBoundaryLater hhead (by rw [hslot]; decide)
    (.single ⟨.insertBlock _, trivial, rfl⟩)
  have hroot : duties.dependentRoot = derivedRoot 1 ⟨2⟩ .block := by
    have hcounted : firstSlotOf ⟨1⟩ < UInt64.size := by decide
    obtain rfl := Except.ok.inj (hduties.symm.trans (passedBoundary.memory.proposerDuties_eq hcounted))
    change passedBoundary.memory.dependentRoot 32 = _
    decide +kernel
  exact ⟨duties, duties', hduties, hduties', hroot, hsame.trans hroot⟩

end Chronicle

end BeaconApi.Memory
