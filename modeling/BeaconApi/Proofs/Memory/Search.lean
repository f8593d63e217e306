import BeaconApi.Proofs.Memory.Lookup
import BeaconApi.Proofs.Memory.Sequence

namespace BeaconApi

/-- An entry stands before another: by its slot, then by its root. -/
def ChainEntry.Before (a b : ChainEntry) : Prop :=
  a.slot.val < b.slot.val ∨ a.slot = b.slot ∧ a.blockRoot.toList < b.blockRoot.toList

namespace Memory

theorem entryLE_iff {a b : ChainEntry} :
    entryLE a b ↔ a.slot.val < b.slot.val ∨ a.slot = b.slot ∧ a.blockRoot.toList ≤ b.blockRoot.toList := by
  simp [entryLE, Bytes.le]

theorem entryLE_trans (a b c : ChainEntry) (hab : entryLE a b) (hbc : entryLE b c) : entryLE a c := by
  rw [entryLE_iff] at *
  rcases hab with hab | ⟨hab, hroot⟩ <;> rcases hbc with hbc | ⟨hbc, hroot'⟩
  · exact .inl (UInt64.lt_trans hab hbc)
  · exact .inl (hbc ▸ hab)
  · exact .inl (hab ▸ hbc)
  · exact .inr ⟨hab.trans hbc, List.le_trans hroot hroot'⟩

theorem entryLE_total (a b : ChainEntry) : entryLE a b || entryLE b a := by
  rw [Bool.or_eq_true, entryLE_iff, entryLE_iff]
  by_cases hslot : a.slot = b.slot
  · exact (List.le_total a.blockRoot.toList b.blockRoot.toList).imp (fun hle => .inr ⟨hslot, hle⟩)
      fun hle => .inr ⟨hslot.symm, hle⟩
  · have hval : a.slot.val ≠ b.slot.val := fun hval => hslot (congrArg Quantity.mk hval)
    exact (UInt64.lt_or_lt_of_ne hval).imp .inl .inl

/-- Entries with different roots stand one strictly before the other. -/
theorem before_of_entryLE {a b : ChainEntry} (h : entryLE a b) (hne : a.blockRoot ≠ b.blockRoot) :
    a.Before b := by
  refine (entryLE_iff.mp h).imp_right fun ⟨hslot, hle⟩ => ⟨hslot, Std.lt_of_le_of_ne hle fun heq => hne ?_⟩
  exact congrArg Bytes.mk (Vector.toList_inj.mp heq)

/-- An entry passes the filters that are given. Without a filter it has to be at the slot of the head. -/
structure Passes (s : Memory) (parentRoot? : Option Root) (slot? : Option Slot) (entry : ChainEntry) :
    Prop where
  parentRoot {root : Root} : parentRoot? = some root → entry.parentRoot = root
  slot {slot : Slot} : slot? = some slot → entry.slot = slot
  head : parentRoot? = none → slot? = none → ∃ head, s.head? = some head ∧ entry.slot = head.slot

theorem wanted_iff {α : Type} [DecidableEq α] {filter : Option α} {x : α} :
    wanted filter x ↔ ∀ y, filter = some y → x = y := by
  cases filter <;> simp [wanted]

namespace Linked

variable {s : Memory} (h : s.Linked)
include h

theorem mem_values_iff {entry : ChainEntry} : entry ∈ s.entries.values ↔ s.Known entry :=
  ⟨h.known_of_mem_values, fun hknown => List.mem_map.mpr ⟨_, Table.get?_eq_some_iff.mp hknown, rfl⟩⟩

/-- Each root has at most one entry. -/
theorem values_pairwise : s.entries.values.Pairwise fun a b => a.blockRoot ≠ b.blockRoot := by
  have hkeys : s.entries.rows.map (ChainEntry.blockRoot ∘ Prod.snd) = s.entries.rows.map Prod.fst := by
    refine List.map_congr_left fun ⟨root, entry⟩ hrow => ?_
    exact h.filed (Table.get?_eq_some_iff.mpr hrow)
  have hdistinct : (s.entries.values.map ChainEntry.blockRoot).Nodup := by
    rw [Table.values, List.map_map, hkeys]
    exact s.entries.distinct
  exact List.pairwise_map.mp hdistinct

/-- A search finds the entries that pass the filters, and nothing else. -/
theorem mem_search_iff {parentRoot : Option Root} {slot : Option Slot} {entry : ChainEntry} :
    entry ∈ s.search parentRoot slot ↔ s.Known entry ∧ s.Passes parentRoot slot entry := by
  obtain ⟨head, hhead⟩ := h.head
  have hhead : s.head? = some head := hhead
  unfold search
  rw [List.mem_mergeSort, List.mem_filter, h.mem_values_iff, Bool.and_eq_true, wanted_iff, wanted_iff]
  refine and_congr_right fun _ => ?_
  -- Only without any filter the slot of the head stands in for the wanted one.
  cases parentRoot with
  | some root =>
    exact ⟨fun ⟨hroot, hslot⟩ => ⟨(hroot _ ·), (hslot _ ·), nofun⟩,
      fun hpasses => ⟨fun _ => hpasses.parentRoot, fun _ => hpasses.slot⟩⟩
  | none =>
    cases slot with
    | some slot =>
      exact ⟨fun ⟨hroot, hslot⟩ => ⟨(hroot _ ·), (hslot _ ·), nofun⟩,
        fun hpasses => ⟨fun _ => hpasses.parentRoot, fun _ => hpasses.slot⟩⟩
    | none =>
      constructor
      · rintro ⟨-, hslot⟩
        exact ⟨nofun, nofun, fun _ _ => ⟨head, hhead, hslot _ (congrArg (Option.map _) hhead)⟩⟩
      · intro hpasses
        obtain ⟨other, hother, hslot⟩ := hpasses.head rfl rfl
        refine ⟨nofun, fun y hy => ?_⟩
        rw [hother] at hy
        exact hslot.trans (Option.some.inj hy)

/-- What a search finds is strictly ordered, so nothing is found twice. -/
theorem search_pairwise (parentRoot : Option Root) (slot : Option Slot) :
    (s.search parentRoot slot).Pairwise ChainEntry.Before := by
  have hroots : (s.search parentRoot slot).Pairwise fun a b => a.blockRoot ≠ b.blockRoot :=
    ((List.mergeSort_perm _ _).pairwise_iff Ne.symm).mpr (h.values_pairwise.filter _)
  exact (List.pairwise_mergeSort entryLE_trans entryLE_total _).imp₂ (fun _ _ => before_of_entryLE) hroots

/-- Only the first entry is at the first slot. -/
theorem eq_genesisRoot_of_slot {root : Root} {entry : ChainEntry} (hentry : s.entry? root = some entry)
    (hslot : entry.slot = ⟨0⟩) : root = genesisRoot := by
  by_contra hroot
  obtain ⟨parent, -, hlt⟩ := h.parent hentry hroot
  rw [hslot] at hlt
  exact absurd hlt UInt64.not_lt_zero

/-- A block is canonical in its slot exactly if it is the head or one of its ancestors. -/
theorem canonicalAt?_iff {root : Root} {entry : ChainEntry} (hentry : s.entry? root = some entry) :
    (s.canonicalAt? entry.slot).any (fun c => c.blockRoot = root) ↔ s.Descends s.head root := by
  rw [Option.any_eq_true]
  constructor
  · rintro ⟨other, hother, hroot⟩
    obtain ⟨key, hkey, hfound⟩ := Option.bind_eq_some_iff.mp hother
    rw [← of_decide_eq_true hroot, h.filed hfound]
    exact (h.canonical.mp hkey).1
  · intro hline
    have hslot : s.canonical.get? entry.slot = some root := h.canonical.mpr ⟨hline, entry, hentry, rfl⟩
    refine ⟨entry, ?_, decide_eq_true (h.filed hentry)⟩
    rw [canonicalAt?, hslot, Option.bind_some, hentry]

end Linked

/-- Of two entries of one slot the one whose block was kept first stands before the other. -/
theorem Chronicle.Sequenced.storedBefore_of_before {c : Chronicle} (h : c.Sequenced)
    (hlinked : c.memory.Linked) {a b : ChainEntry} (ha : c.memory.Known a) (hb : c.memory.Known b)
    (hslot : a.slot = b.slot) (hbefore : a.Before b) : c.StoredBefore a.blockRoot b.blockRoot := by
  have hlt : a.blockRoot.toList < b.blockRoot.toList := by
    rcases hbefore with hlt | ⟨-, hlt⟩
    · rw [hslot] at hlt
      exact absurd hlt (UInt64.lt_irrefl _)
    · exact hlt
  -- The first entry is alone in its slot, so both entries have roots that were given.
  have hgiven {x y : ChainEntry} (hx : c.memory.Known x) (hy : c.memory.Known y) (hxy : x.slot = y.slot)
      (hne : x.blockRoot ≠ y.blockRoot) : x.blockRoot ∈ c.given := by
    refine (h.entries hx).resolve_left fun hgenesis => hne ?_
    have hfirst : genesisEntry = x := Option.some.inj (hlinked.genesis.symm.trans (hgenesis ▸ hx))
    have hzero : y.slot = ⟨0⟩ := by
      rw [← hxy, ← hfirst]
      rfl
    rw [hgenesis, hlinked.eq_genesisRoot_of_slot hy hzero]
  have hne : a.blockRoot ≠ b.blockRoot := fun heq => List.lt_irrefl _ (heq ▸ hlt)
  exact (h.storedBefore_iff (hgiven ha hb hslot hne) (hgiven hb ha hslot.symm hne.symm)).mpr hlt

end Memory

end BeaconApi
