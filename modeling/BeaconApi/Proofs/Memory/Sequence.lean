import Mathlib.Data.List.Pairwise
import BeaconApi.Proofs.Memory.Stored

namespace BeaconApi.Memory.Chronicle

/-- The roots that were given, latest first. -/
def given (c : Chronicle) : List Root := c.stored.map Prod.fst

/-- A block was kept under a root before one was kept under another. -/
def StoredBefore (c : Chronicle) (root other : Root) : Prop := [other, root].Sublist c.given

/-- Roots are given in rising order, and only under them blocks have been added. -/
structure Sequenced (c : Chronicle) : Prop where
  rising : c.given.Pairwise fun later earlier => earlier.toList < later.toList
  entries {root : Root} {entry : ChainEntry} : c.memory.entry? root = some entry →
    root = genesisRoot ∨ root ∈ c.given

theorem Sequenced.initial (genesisTime : Timestamp) : (initial genesisTime).Sequenced where
  rising := .nil
  entries := by
    intro root entry hentry
    have hroot := Table.get?_single genesisRoot root genesisEntry
    split at hroot
    next heq => exact .inl heq
    · cases hroot.symm.trans hentry

/-- The root that is given next stands above all that were given. -/
theorem Stocked.given_lt {s : Memory} {stored : List (Root × SignedBeaconBlock)}
    (h : Stocked ⟨s, stored⟩) (block : SignedBeaconBlock) {root : Root} (hgiven : root ∈ given ⟨s, stored⟩) :
    root.toList < (s.storeBlock block).1.toList := by
  obtain ⟨⟨_, kept⟩, hmem, rfl⟩ := List.mem_map.mp hgiven
  exact h.memory_numbered.lt_given (h.kept hmem) block

/-- Every change of a stocked node keeps the order. -/
theorem Change.sequenced {c c' : Chronicle} (hchange : Change c c') (hstocked : c.Stocked)
    (h : c.Sequenced) : c'.Sequenced := by
  cases hchange with
  | aside => exact ⟨h.rising, h.entries⟩
  | finalize => exact ⟨h.rising, h.entries⟩
  | store block =>
    refine ⟨List.pairwise_cons.mpr ⟨fun _ => hstocked.given_lt block, h.rising⟩, fun hentry => ?_⟩
    exact (h.entries hentry).imp_right (List.mem_cons_of_mem _)
  | extend hstored =>
    refine ⟨h.rising, fun {root} _ hentry => ?_⟩
    rw [entry?_extend] at hentry
    split at hentry
    next hroot => exact .inr (List.mem_map.mpr ⟨_, hstored, hroot.symm⟩)
    · exact h.entries hentry

/-- The order is kept by every run in which fewer blocks are kept than there are numbers for. -/
theorem Reachable.sequenced {genesisTime : Timestamp} {c : Chronicle} (h : Reachable genesisTime c)
    (hroom : c.stored.length < capacity) : c.Sequenced := by
  have hsequenced := Steps.keeps
    (P := fun c => c.stored.length < capacity → c.Stocked ∧ c.Sequenced) h
    (fun hchange ih hroom => by
      obtain ⟨hstocked, hsequenced⟩ := ih (Nat.lt_of_le_of_lt hchange.stored_length_le hroom)
      exact ⟨hchange.stocked hstocked hroom, hchange.sequenced hstocked hsequenced⟩)
    (fun _ => ⟨.initial genesisTime, .initial genesisTime⟩)
  exact (hsequenced hroom).2

namespace Sequenced

variable {c : Chronicle} (h : c.Sequenced)
include h

theorem lt_of_storedBefore {root other : Root} (hbefore : c.StoredBefore root other) :
    root.toList < other.toList :=
  List.pairwise_iff_forall_sublist.mp h.rising hbefore

/-- Of two roots that were given, the lower one was given first. -/
theorem storedBefore_iff {root other : Root} (hroot : root ∈ c.given) (hother : other ∈ c.given) :
    c.StoredBefore root other ↔ root.toList < other.toList := by
  refine ⟨h.lt_of_storedBefore, fun hlt => ?_⟩
  have hne : root ≠ other := fun heq => List.lt_irrefl _ (heq ▸ hlt)
  -- Two different members of a list stand in it one way or the other.
  have hpairs : c.given.Pairwise fun later earlier =>
      c.StoredBefore earlier later ∨ c.StoredBefore later earlier :=
    List.pairwise_iff_forall_sublist.mpr .inl
  have : Std.Symm fun later earlier => c.StoredBefore earlier later ∨ c.StoredBefore later earlier :=
    ⟨fun _ _ => Or.symm⟩
  rcases hpairs.forall hroot hother hne with hafter | hbefore
  · exact absurd (h.lt_of_storedBefore hafter) (List.lt_asymm hlt)
  · exact hbefore

end Sequenced

end BeaconApi.Memory.Chronicle
