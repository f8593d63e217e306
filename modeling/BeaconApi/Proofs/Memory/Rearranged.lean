import BeaconApi.Proofs.Memory.Search

namespace BeaconApi

namespace Memory

/-- Looking for a state finds an entry that has it. -/
theorem stateRoot_of_byStateRoot? {s : Memory} {root : Root} {entry : ChainEntry}
    (h : s.byStateRoot? root = some entry) : entry.stateRoot = root := by
  unfold byStateRoot? at h
  have hroot := List.find?_some h
  exact of_decide_eq_true hroot

/-- A node holds what another one holds, with the entries of its chain in any order. -/
structure Rearranges (s' s : Memory) : Prop where
  same : ∃ entries, s' = { s with entries }
  rows : s'.entries.rows.Perm s.entries.rows

namespace Rearranges

theorem refl (s : Memory) : s.Rearranges s := ⟨⟨s.entries, rfl⟩, .refl _⟩

theorem trans {s s' s'' : Memory} (h' : s''.Rearranges s') (h : s'.Rearranges s) : s''.Rearranges s := by
  refine ⟨?_, h'.rows.trans h.rows⟩
  obtain ⟨entries, rfl⟩ := h'.same
  obtain ⟨_, rfl⟩ := h.same
  exact ⟨entries, rfl⟩

section Lookups

variable {s s' : Memory} (h : s'.Rearranges s)
include h

theorem entry?_eq : s'.entry? = s.entry? := funext (Table.get?_of_perm h.rows)

theorem contains_eq : s'.entries.contains = s.entries.contains :=
  congrArg (fun lookup root => (lookup root).isSome) h.entry?_eq

theorem canonicalAt?_eq : s'.canonicalAt? = s.canonicalAt? := by
  unfold canonicalAt?
  rw [h.entry?_eq]
  obtain ⟨_, rfl⟩ := h.same
  rfl

theorem head?_eq : s'.head? = s.head? := by
  unfold head?
  rw [h.entry?_eq]
  obtain ⟨_, rfl⟩ := h.same
  rfl

theorem blockAt?_eq : s'.blockAt? = s.blockAt? := by
  have hentry := h.entry?_eq
  have hhead := h.head?_eq
  have hcanonical := h.canonicalAt?_eq
  obtain ⟨_, rfl⟩ := h.same
  funext id
  cases id with
  | root root => exact congrFun hentry root
  | slot slot => exact congrFun hcanonical slot
  | head => exact hhead
  | genesis => exact congrFun hcanonical _
  | finalized => exact congrFun hentry _

theorem finality_eq : s'.finality = s.finality := by
  simp only [finality, checkpoint, h.entry?_eq]
  obtain ⟨_, rfl⟩ := h.same
  rfl

theorem syncStatus_eq : s'.syncStatus = s.syncStatus := by
  rw [syncStatus, syncStatus, h.head?_eq]
  obtain ⟨_, rfl⟩ := h.same
  rfl

theorem produceBlock_eq : s'.produceBlock = s.produceBlock := by
  funext slot randaoReveal graffiti
  rw [produceBlock, produceBlock, h.head?_eq]
  obtain ⟨_, rfl⟩ := h.same
  rfl

theorem values_perm : s'.entries.values.Perm s.entries.values := h.rows.map _

/-- The chain is linked in whatever order its entries are. -/
theorem linked (hlinked : s.Linked) : s'.Linked := by
  have hentry := h.entry?_eq
  obtain ⟨_, rfl⟩ := h.same
  exact hlinked.of_same_chain hentry rfl rfl hlinked.finalized hlinked.justified

/-- A search finds the same entries in the same order. -/
theorem search_eq (hlinked : s.Linked) (parentRoot : Option Root) (slot : Option Slot) :
    s'.search parentRoot slot = s.search parentRoot slot := by
  refine List.Perm.eq_of_pairwise (fun a b _ _ (hab : a.Before b) (hba : b.Before a) => ?_)
    ((h.linked hlinked).search_pairwise parentRoot slot) (hlinked.search_pairwise parentRoot slot) ?_
  · rcases hab with hlt | ⟨hslot, hlt⟩ <;> rcases hba with hlt' | ⟨hslot', hlt'⟩
    · exact absurd hlt' (UInt64.lt_asymm hlt)
    · exact absurd hlt (hslot' ▸ UInt64.lt_irrefl _)
    · exact absurd hlt' (hslot ▸ UInt64.lt_irrefl _)
    · exact absurd hlt' (List.lt_asymm hlt)
  · unfold search
    rw [h.head?_eq]
    refine (List.mergeSort_perm _ _).trans (.trans ?_ (List.mergeSort_perm _ _).symm)
    exact h.values_perm.filter _

/-- Looking for a state finds an entry unless none has it. -/
theorem byStateRoot?_isSome_iff (hlinked : s.Linked) {root : Root} :
    (s'.byStateRoot? root).isSome ↔ ∃ entry, s.Known entry ∧ entry.stateRoot = root := by
  unfold byStateRoot?
  simp only [List.find?_isSome, h.values_perm.mem_iff, hlinked.mem_values_iff, decide_eq_true_eq]

/-- What is found is an entry of the chain. -/
theorem known_of_byStateRoot? (hlinked : s.Linked) {root : Root} {entry : ChainEntry}
    (hfound : s'.byStateRoot? root = some entry) : s.Known entry := by
  unfold byStateRoot? at hfound
  exact hlinked.mem_values_iff.mp (h.values_perm.mem_iff.mp (List.mem_of_find?_eq_some hfound))

/-- The entries that are found for a state need not be the same, but they have it in common. -/
theorem map_byStateRoot? (hlinked : s.Linked) (root : Root) :
    (s'.byStateRoot? root).map ChainEntry.stateRoot = (s.byStateRoot? root).map ChainEntry.stateRoot := by
  have hsome : (s'.byStateRoot? root).isSome ↔ (s.byStateRoot? root).isSome :=
    (h.byStateRoot?_isSome_iff hlinked).trans ((refl s).byStateRoot?_isSome_iff hlinked).symm
  cases hfound : s.byStateRoot? root with
  | none =>
    rw [hfound, Option.isSome_none, Bool.false_eq_true, iff_false, Option.not_isSome_iff_eq_none] at hsome
    rw [hsome]
  | some entry =>
    obtain ⟨entry', hfound'⟩ := Option.isSome_iff_exists.mp (hsome.mpr (hfound ▸ rfl))
    rw [hfound', Option.map_some, Option.map_some, stateRoot_of_byStateRoot? hfound,
      stateRoot_of_byStateRoot? hfound']

theorem map_stateAt? (hlinked : s.Linked) (id : StateId) :
    (s'.stateAt? id).map ChainEntry.stateRoot = (s.stateAt? id).map ChainEntry.stateRoot := by
  have hentry := h.entry?_eq
  have hhead := h.head?_eq
  have hcanonical := h.canonicalAt?_eq
  have hstate := h.map_byStateRoot? hlinked
  obtain ⟨_, rfl⟩ := h.same
  cases id with
  | root root => exact hstate root
  | slot slot => exact congrArg _ (congrFun hcanonical slot)
  | head => exact congrArg _ hhead
  | genesis => exact congrArg _ (congrFun hcanonical _)
  | finalized | justified => exact congrArg _ (congrFun hentry _)

end Lookups

section Events

variable {s s' : Memory} (h : s'.Rearranges s)
include h

theorem storeBlock (block : SignedBeaconBlock) :
    (s'.storeBlock block).1 = (s.storeBlock block).1 ∧
      (s'.storeBlock block).2.Rearranges (s.storeBlock block).2 := by
  obtain ⟨entries, rfl⟩ := h.same
  exact ⟨rfl, ⟨entries, rfl⟩, h.rows⟩

theorem extend (e : ChainEntry) : (s'.extend e).Rearranges (s.extend e) := by
  have hrows := Table.insert_perm h.rows e.blockRoot e
  obtain ⟨entries, rfl⟩ := h.same
  by_cases hbehind : e.parentRoot = s.head
  · rw [Memory.extend, Memory.extend, if_pos hbehind, if_pos hbehind]
    exact ⟨⟨_, rfl⟩, hrows⟩
  · rw [Memory.extend, Memory.extend, if_neg hbehind, if_neg hbehind]
    exact ⟨⟨_, rfl⟩, hrows⟩

theorem addBlock (root : Root) (block : SignedBeaconBlock) :
    (s'.addBlock root block).2.Rearranges (s.addBlock root block).2 := by
  unfold Memory.addBlock
  rw [h.contains_eq, h.entry?_eq]
  by_cases hknown : s.entries.contains root = true
  · rw [if_pos hknown, if_pos hknown]
    exact h
  · rw [if_neg hknown, if_neg hknown]
    cases s.entry? block.parentRoot with
    | none => exact h
    | some parent =>
      by_cases hslot : block.slot.val ≤ parent.slot.val
      · simp only [if_pos hslot]
        exact h
      · simp only [if_neg hslot]
        exact h.extend _

/-- An operation does the same to nodes that differ in the order of their entries. -/
theorem step {α : Type} (op : Operation α) : (s'.step op).2.Rearranges (s.step op).2 := by
  cases op with
  | addBlock root block => exact h.addBlock root block
  | storeBlock block => exact (h.storeBlock block).2
  | publish item =>
    obtain ⟨entries, rfl⟩ := h.same
    simp only [Memory.step, publish]
    split <;> exact ⟨⟨entries, rfl⟩, h.rows⟩
  | addAttestation attestation =>
    obtain ⟨entries, rfl⟩ := h.same
    exact ⟨⟨entries, rfl⟩, h.rows⟩
  | addVoluntaryExit exit =>
    obtain ⟨entries, rfl⟩ := h.same
    simp only [Memory.step, addVoluntaryExit]
    split <;> exact ⟨⟨entries, rfl⟩, h.rows⟩
  | addSyncCommitteeMessage message =>
    simp only [Memory.step, addSyncCommitteeMessage, h.contains_eq]
    obtain ⟨entries, rfl⟩ := h.same
    split <;> exact ⟨⟨entries, rfl⟩, h.rows⟩
  | genesis | head | finalized | justified | byBlockRoot | byStateRoot | canonicalAt | search
  | finality | syncStatus | getBlock | attestations | voluntaryExits | produceBlock
  | proposerDuties => exact h

/-- So does every event. -/
theorem apply (e : Event) : (e.apply s').Rearranges (e.apply s) := by
  cases e with
  | perform op => exact h.step op
  | insertBlock block =>
    obtain ⟨hroot, hstored⟩ := h.storeBlock block
    change ((s'.storeBlock block).2.addBlock (s'.storeBlock block).1 block).2.Rearranges
      ((s.storeBlock block).2.addBlock (s.storeBlock block).1 block).2
    rw [hroot]
    exact hstored.addBlock _ block
  | finalize root =>
    simp only [Event.apply, finalize, h.contains_eq]
    obtain ⟨entries, rfl⟩ := h.same
    split <;> exact ⟨⟨entries, rfl⟩, h.rows⟩
  | setSyncing syncing =>
    obtain ⟨entries, rfl⟩ := h.same
    exact ⟨⟨entries, rfl⟩, h.rows⟩

end Events

end Rearranges

namespace Chronicle

/-- An event comes to a chronicle whose entries have come into another order. -/
def Shuffles (c c' : Chronicle) : Prop :=
  ∃ s : Memory, s.Rearranges c.memory ∧ Next ⟨s, c.stored⟩ c'

/-- A run leads from a new node to a chronicle, while its entries come into any order at any time. -/
def Shuffled (genesisTime : Timestamp) (c : Chronicle) : Prop :=
  Relation.ReflTransGen Shuffles (initial genesisTime) c

/-- A chronicle may be shuffled in every event, or in none. -/
theorem Reachable.shuffled {genesisTime : Timestamp} {c : Chronicle} (h : Reachable genesisTime c) :
    Shuffled genesisTime c :=
  Relation.ReflTransGen.mono (fun _ _ hnext => ⟨_, .refl _, hnext⟩) _ _ h

/-- Whatever order the entries come into, the chronicle is the same as without that, but for the order. -/
theorem Shuffled.exists_reachable {genesisTime : Timestamp} {c' : Chronicle} (h : Shuffled genesisTime c') :
    ∃ c, Reachable genesisTime c ∧ c'.memory.Rearranges c.memory ∧ c'.stored = c.stored := by
  induction h with
  | refl => exact ⟨_, .refl, .refl _, rfl⟩
  | tail _ hlast ih =>
    obtain ⟨c, hreachable, hmemory, hstored⟩ := ih
    obtain ⟨s, hshuffled, e, hpermits, rfl⟩ := hlast
    have hs := hshuffled.trans hmemory
    have hpermits' : c.Permits e := by
      cases e with
      | perform op =>
        cases op with
        | addBlock root block => exact (congrArg ((root, block) ∈ ·) hstored).mp hpermits
        | _ => trivial
      | _ => trivial
    have hstores : e.stores s = e.stores c.memory := by
      cases e with
      | perform op =>
        cases op with
        | storeBlock block => exact congrArg (fun root => [(root, block)]) (hs.storeBlock block).1
        | _ => rfl
      | insertBlock block => exact congrArg (fun root => [(root, block)]) (hs.storeBlock block).1
      | _ => rfl
    refine ⟨c.after e, .tail hreachable ⟨e, hpermits', rfl⟩, hs.apply e, ?_⟩
    exact congrArg₂ (· ++ ·) hstores hstored

end Chronicle

end Memory

end BeaconApi
