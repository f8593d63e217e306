import BeaconApi.Proofs.Memory.Stored

namespace BeaconApi

namespace Memory

/-- The entry that a block identifier names. -/
def blockAt? (s : Memory) : BlockId → Option ChainEntry
  | .root root => s.entry? root
  | .slot slot => s.canonicalAt? slot
  | .head => s.head?
  | .genesis => s.canonicalAt? ⟨0⟩
  | .finalized => s.entry? s.finalized

/-- The entry that a state identifier names. -/
def stateAt? (s : Memory) : StateId → Option ChainEntry
  | .root root => s.byStateRoot? root
  | .slot slot => s.canonicalAt? slot
  | .head => s.head?
  | .genesis => s.canonicalAt? ⟨0⟩
  | .finalized => s.entry? s.finalized
  | .justified => s.entry? s.justified

theorem lookupBlock_run (s : Memory) (id : BlockId) :
    (backend.lookupBlock id).run s = (s.blockAt? id, s) := by
  cases id <;> rfl

theorem lookupState_run (s : Memory) (id : StateId) :
    (backend.lookupState id).run s = (s.stateAt? id, s) := by
  cases id <;> rfl

/-- An entry that the chain has under its own root. -/
def Known (s : Memory) (entry : ChainEntry) : Prop := s.entry? entry.blockRoot = some entry

namespace Linked

variable {s : Memory}

theorem known (h : s.Linked) {root : Root} {entry : ChainEntry}
    (hentry : s.entry? root = some entry) : s.Known entry := by
  unfold Known
  rw [h.filed hentry, hentry]

theorem known_of_mem_values (h : s.Linked) {entry : ChainEntry} (hmem : entry ∈ s.entries.values) :
    s.Known entry := by
  obtain ⟨root, hroot⟩ := Table.exists_get?_of_mem_values hmem
  exact h.known hroot

theorem known_of_canonicalAt? (h : s.Linked) {slot : Slot} {entry : ChainEntry}
    (hentry : s.canonicalAt? slot = some entry) : s.Known entry := by
  obtain ⟨root, _, hroot⟩ := Option.bind_eq_some_iff.mp hentry
  exact h.known hroot

theorem known_of_blockAt? (h : s.Linked) {id : BlockId} {entry : ChainEntry}
    (hentry : s.blockAt? id = some entry) : s.Known entry := by
  cases id with
  | slot | genesis => exact h.known_of_canonicalAt? hentry
  | root | head | finalized => exact h.known hentry

theorem known_of_mem_search (h : s.Linked) {parentRoot : Option Root} {slot : Option Slot}
    {entry : ChainEntry} (hmem : entry ∈ s.search parentRoot slot) : s.Known entry := by
  unfold search at hmem
  exact h.known_of_mem_values (List.mem_filter.mp (List.mem_mergeSort.mp hmem)).1

end Linked

end Memory

end BeaconApi
