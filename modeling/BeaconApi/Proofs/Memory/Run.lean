import Mathlib.Logic.Relation
import BeaconApi.Node.Memory.Perform

namespace BeaconApi.Memory

/-- What can happen to a node: an operation of some request, or a step that is taken from outside
the requests. The insertion of a block keeps it and adds it. -/
inductive Event : Type 1
  | perform {α : Type} (op : Operation α)
  | insertBlock (block : SignedBeaconBlock)
  | finalize (root : Root)
  | setSyncing (syncing : Bool)

/-- What an event makes of a node. -/
def Event.apply (s : Memory) : Event → Memory
  | .perform op => (s.step op).2
  | .insertBlock block => (s.insertBlock block).2
  | .finalize root => (s.finalize root).2
  | .setSyncing syncing => s.setSyncing syncing

/-- The block that an event keeps, if it keeps one, under its new root. -/
def Event.stores (s : Memory) : Event → List (Root × SignedBeaconBlock)
  | .perform (.storeBlock block) | .insertBlock block => [((s.storeBlock block).1, block)]
  | _ => []

/-- A node with the blocks that it has been asked to keep, latest first, each under the root that
was given for it. -/
structure Chronicle where
  memory : Memory
  stored : List (Root × SignedBeaconBlock)

namespace Chronicle

/-- A new node, which has not been asked to keep anything. -/
def initial (genesisTime : Timestamp) : Chronicle := ⟨.new genesisTime, []⟩

/-- Whether an event can come next: a block is added only under a root that was given for it. -/
def Permits (c : Chronicle) : Event → Prop
  | .perform (.addBlock root block) => (root, block) ∈ c.stored
  | _ => True

/-- The chronicle after an event. -/
def after (c : Chronicle) (e : Event) : Chronicle :=
  ⟨e.apply c.memory, e.stores c.memory ++ c.stored⟩

/-- One event leads from a chronicle to another. -/
def Next (c c' : Chronicle) : Prop := ∃ e : Event, c.Permits e ∧ c' = c.after e

/-- A run leads from a chronicle to another. -/
abbrev Steps : Chronicle → Chronicle → Prop := Relation.ReflTransGen Next

/-- A run leads from a new node to a chronicle. -/
def Reachable (genesisTime : Timestamp) (c : Chronicle) : Prop := Steps (initial genesisTime) c

/-- What the chain of a node and the blocks that it keeps can see of an event. -/
inductive Change : Chronicle → Chronicle → Prop
  /-- Pools, published items and the syncing flag stand aside from the chain. -/
  | aside {s : Memory} {stored : List (Root × SignedBeaconBlock)}
      (attestations : List Attestation) (voluntaryExits : List SignedVoluntaryExit)
      (syncCommitteeMessages : List SyncCommitteeMessage) (published : Published) (syncing : Bool) :
      Change ⟨s, stored⟩
        ⟨{ s with attestations, voluntaryExits, syncCommitteeMessages, published, syncing }, stored⟩
  | store {s : Memory} {stored : List (Root × SignedBeaconBlock)} (block : SignedBeaconBlock) :
      Change ⟨s, stored⟩ ⟨(s.storeBlock block).2, ((s.storeBlock block).1, block) :: stored⟩
  | extend {s : Memory} {stored : List (Root × SignedBeaconBlock)} {root : Root}
      {block : SignedBeaconBlock} {parent : ChainEntry} (hstored : (root, block) ∈ stored)
      (hfresh : s.entry? root = none) (hparent : s.entry? block.parentRoot = some parent)
      (hslot : parent.slot.val < block.slot.val) :
      Change ⟨s, stored⟩ ⟨s.extend (entryBehind parent root block), stored⟩
  | finalize {s : Memory} {stored : List (Root × SignedBeaconBlock)} {root : Root}
      {entry : ChainEntry} (hentry : s.entry? root = some entry) :
      Change ⟨s, stored⟩ ⟨{ s with justified := root, finalized := root }, stored⟩

/-- Adding a block under a root that was given for it extends the chain or does nothing. -/
theorem addBlock_changes {s : Memory} {stored : List (Root × SignedBeaconBlock)} {root : Root}
    {block : SignedBeaconBlock} (hstored : (root, block) ∈ stored) :
    Relation.ReflTransGen Change ⟨s, stored⟩ ⟨(s.addBlock root block).2, stored⟩ := by
  unfold Memory.addBlock
  split
  · exact .refl
  next hcontains =>
    have hfresh : s.entry? root = none := by simpa [Table.contains, entry?] using hcontains
    split
    · exact .refl
    next parent hparent =>
      split
      · exact .refl
      next hslot => exact .single (.extend hstored hfresh hparent (UInt64.not_le.mp hslot))

/-- An operation changes a chronicle in at most one of the ways of a `Change`. -/
theorem perform_changes {c : Chronicle} {α : Type} (op : Operation α)
    (hpermits : c.Permits (.perform op)) :
    Relation.ReflTransGen Change c (c.after (.perform op)) := by
  obtain ⟨s, stored⟩ := c
  cases op with
  | addBlock root block => exact addBlock_changes hpermits
  | storeBlock block => exact .single (.store block)
  | publish item =>
    simp only [after, Event.apply, Event.stores, step, publish]
    split
    · exact .refl
    · exact .single (.aside _ _ _ _ _)
  | addAttestation attestation => exact .single (.aside _ _ _ _ _)
  | addVoluntaryExit exit =>
    simp only [after, Event.apply, Event.stores, step, addVoluntaryExit]
    split
    · exact .refl
    · exact .single (.aside _ _ _ _ _)
  | addSyncCommitteeMessage message =>
    simp only [after, Event.apply, Event.stores, step, addSyncCommitteeMessage]
    split
    · exact .single (.aside _ _ _ _ _)
    · exact .refl
  | genesis | head | finalized | justified | byBlockRoot | byStateRoot | canonicalAt | search
  | finality | syncStatus | getBlock | attestations | voluntaryExits | produceBlock
  | proposerDuties => exact .refl

/-- An event is a sequence of changes. -/
theorem Next.changes {c c' : Chronicle} (h : c.Next c') : Relation.ReflTransGen Change c c' := by
  obtain ⟨e, hpermits, rfl⟩ := h
  obtain ⟨s, stored⟩ := c
  cases e with
  | perform op => exact perform_changes op hpermits
  -- The block is added under the very root that it has just been given.
  | insertBlock block =>
    exact .head (.store block) (addBlock_changes List.mem_cons_self)
  | finalize root =>
    simp only [after, Event.apply, Event.stores, Memory.finalize]
    split
    next hcontains =>
      obtain ⟨entry, hentry⟩ := Option.isSome_iff_exists.mp hcontains
      exact .single (.finalize hentry)
    · exact .refl
  | setSyncing syncing => exact .single (.aside _ _ _ _ _)

/-- A run is a sequence of changes. -/
theorem Steps.changes {c c' : Chronicle} (h : c.Steps c') : Relation.ReflTransGen Change c c' := by
  induction h with
  | refl => exact .refl
  | tail _ hnext ih => exact ih.trans hnext.changes

/-- What every change keeps, every run keeps. -/
theorem Steps.keeps {P : Chronicle → Prop} {c c' : Chronicle} (h : c.Steps c')
    (hchange : ∀ {c c' : Chronicle}, Change c c' → P c → P c') (hc : P c) : P c' := by
  have hchanges := h.changes
  clear h
  induction hchanges with
  | refl => exact hc
  | tail _ hlast ih => exact hchange hlast ih

end Chronicle

end BeaconApi.Memory
