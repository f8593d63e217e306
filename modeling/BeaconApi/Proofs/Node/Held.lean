import Mathlib.Data.Set.List
import BeaconApi.Proofs.Node.Lookups

namespace BeaconApi

namespace Memory

/-- What a node computes for an operation. -/
def computed {α : Type} (s : Memory) (op : Operation α) : α := ((backend.perform op).run s).1

/-- An entry with the block that is kept for it. -/
structure Held (s : Memory) where
  entry : ChainEntry
  block : SignedBeaconBlock
  held : s.computed (.getBlock entry.blockRoot) = .ok (some block)

namespace Held

variable {s : Memory} (held : s.Held)

/-- The header of an entry. A block is canonical if it is the canonical block of its slot. -/
def header : BeaconBlockHeaderAndInfo where
  root := held.entry.blockRoot
  canonical := (s.computed (.canonicalAt held.entry.slot)).any fun c => c.blockRoot = held.entry.blockRoot
  header := held.block.signedHeader held.entry.bodyRoot

theorem load_entry : s.load held.entry = .ok held.block := by
  have hblock : s.blocks.get? held.entry.blockRoot = some held.block := by
    have hheld : Except.ok (s.blocks.get? held.entry.blockRoot) = Except.ok (some held.block) := held.held
    exact Except.ok.inj hheld
  rw [load, hblock]

theorem header_entry : s.header held.entry = .ok held.header := by
  rw [Memory.header, held.load_entry]
  rfl

theorem mapM_header (found : List s.Held) :
    (found.map entry).mapM s.header = .ok (found.map header) := by
  refine mapM_eq_ok_iff.mpr ?_
  rw [List.forall₂_map_left_iff, List.forall₂_map_right_iff, List.forall₂_same]
  exact fun held _ => held.header_entry

end Held

section Ready

variable {c : Chronicle} (h : c.Ready)
include h

theorem exists_held {entry : ChainEntry} (hknown : c.memory.Known entry) :
    ∃ held : c.memory.Held, held.entry = entry := by
  obtain ⟨block, hblock⟩ := h.backed.entries hknown
  exact ⟨⟨entry, block, congrArg Except.ok hblock⟩, rfl⟩

theorem exists_held_blockAt? (id : BlockId) :
    ∃ found : Option c.memory.Held, c.memory.blockAt? id = found.map Held.entry := by
  cases hentry : c.memory.blockAt? id with
  | none => exact ⟨none, rfl⟩
  | some entry =>
    obtain ⟨held, rfl⟩ := exists_held h (h.linked.known_of_blockAt? hentry)
    exact ⟨some held, rfl⟩

theorem exists_held_search (parentRoot : Option Root) (slot : Option Slot) :
    ∃ found : List c.memory.Held, c.memory.search parentRoot slot = found.map Held.entry := by
  have hrange : c.memory.search parentRoot slot ∈ Set.range (List.map (Held.entry (s := c.memory))) := by
    rw [Set.range_list_map]
    exact fun entry hentry => exists_held h (h.linked.known_of_mem_search hentry)
  obtain ⟨found, hfound⟩ := hrange
  exact ⟨found, hfound.symm⟩

end Ready

end Memory

end BeaconApi
