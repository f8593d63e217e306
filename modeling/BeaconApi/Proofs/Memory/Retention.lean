import BeaconApi.Proofs.Memory.Lookup

namespace BeaconApi

namespace Memory

/-- The block that an event asks to keep, if it asks for that. -/
def Event.kept? : Event → Option SignedBeaconBlock
  | .perform (.storeBlock block) | .insertBlock block => some block
  | _ => none

/-- An event asks a node to keep a block, alone or before the block is added, and a root is given for it. -/
structure Event.Gives (e : Event) (s : Memory) (block : SignedBeaconBlock) (root : Root) : Prop where
  asks : e.kept? = some block
  answer : (s.step (.storeBlock block)).1 = .ok root

/-- A node after a run: one event after another, whatever they are. -/
def run (s : Memory) (events : List Event) : Memory := events.foldl Event.apply s

theorem run_append (s : Memory) (events later : List Event) :
    s.run (events ++ later) = (s.run events).run later :=
  List.foldl_append

/-- The number of calls to keep a block that a run makes. -/
def calls (events : List Event) : Nat := events.countP fun e => e.kept?.isSome

theorem calls_singleton (e : Event) : calls [e] = if e.kept?.isSome then 1 else 0 := List.countP_singleton

theorem calls_append (events later : List Event) : calls (events ++ later) = calls events + calls later :=
  List.countP_append

/-- The same blocks are kept, and the same number is given next. -/
structure SameStore (s s' : Memory) : Prop where
  blocks : s'.blocks = s.blocks
  sequence : s'.nextSequence = s.nextSequence

theorem sameStore_extend (s : Memory) (entry : ChainEntry) : s.SameStore (s.extend entry) := by
  unfold Memory.extend
  split <;> exact ⟨rfl, rfl⟩

theorem sameStore_addBlock (s : Memory) (root : Root) (block : SignedBeaconBlock) :
    s.SameStore (s.addBlock root block).2 := by
  unfold Memory.addBlock
  split
  · exact ⟨rfl, rfl⟩
  · split
    · exact ⟨rfl, rfl⟩
    · split
      · exact ⟨rfl, rfl⟩
      · exact sameStore_extend ..

/-- An event that asks to keep a block does no more to the blocks than that. -/
theorem Event.sameStore_of_kept {e : Event} {block : SignedBeaconBlock} (h : e.kept? = some block) (s : Memory) :
    (s.storeBlock block).2.SameStore (e.apply s) := by
  cases e with
  | perform op =>
    cases op with
    | storeBlock other =>
      obtain rfl : other = block := Option.some.inj h
      exact ⟨rfl, rfl⟩
    | _ => cases h
  | insertBlock other =>
    obtain rfl : other = block := Option.some.inj h
    exact sameStore_addBlock ..
  | finalize | setSyncing => cases h

/-- Any other event leaves the blocks alone. -/
theorem Event.sameStore_of_not_kept {e : Event} (h : e.kept? = none) (s : Memory) : s.SameStore (e.apply s) := by
  cases e with
  | perform op =>
    cases op with
    | storeBlock => cases h
    | addBlock root block => exact sameStore_addBlock ..
    | publish item =>
      simp only [apply, step, publish]
      split <;> exact ⟨rfl, rfl⟩
    | addVoluntaryExit exit =>
      simp only [apply, step, addVoluntaryExit]
      split <;> exact ⟨rfl, rfl⟩
    | addSyncCommitteeMessage message =>
      simp only [apply, step, addSyncCommitteeMessage]
      split <;> exact ⟨rfl, rfl⟩
    | _ => exact ⟨rfl, rfl⟩
  | insertBlock => cases h
  | finalize root =>
    simp only [apply, Memory.finalize]
    split <;> exact ⟨rfl, rfl⟩
  | setSyncing syncing => exact ⟨rfl, rfl⟩

/-- The running numbers count the blocks. -/
structure Counted (s : Memory) : Prop where
  numbered : s.Numbered
  sequence : s.nextSequence.toNat = s.blocks.rows.length

/-- Every block that was kept still has its row, and as many rows have come behind as there were calls. -/
structure Retains (s s' : Memory) (calls : Nat) : Prop where
  counted : s'.Counted
  rows : s.blocks.rows <+: s'.blocks.rows
  count : s'.blocks.rows.length = s.blocks.rows.length + calls

theorem counted_new (genesisTime : Timestamp) : (new genesisTime).Counted := ⟨numbered_new genesisTime, rfl⟩

theorem Retains.trans {s s' s'' : Memory} {calls calls' : Nat} (h : s.Retains s' calls)
    (h' : s'.Retains s'' calls') : s.Retains s'' (calls + calls') := by
  refine ⟨h'.counted, h.rows.trans h'.rows, ?_⟩
  rw [h'.count, h.count, Nat.add_assoc]

namespace Counted

variable {s : Memory} (h : s.Counted)
include h

theorem of_sameStore {s' : Memory} (hsame : s.SameStore s') : s'.Counted := by
  refine ⟨?_, ?_⟩
  · intro root block hblock
    rw [hsame.blocks] at hblock
    rw [hsame.sequence]
    exact h.numbered root block hblock
  · rw [hsame.sequence, hsame.blocks]
    exact h.sequence

/-- A block that is to be kept gets a row of its own behind the others. -/
theorem rows_storeBlock (block : SignedBeaconBlock) :
    (s.storeBlock block).2.blocks.rows = s.blocks.rows ++ [((s.storeBlock block).1, block)] :=
  Table.rows_insert_of_get?_eq_none (h.numbered.fresh block) block

theorem storeBlock (hroom : s.blocks.rows.length + 1 < UInt64.size) (block : SignedBeaconBlock) :
    (s.storeBlock block).2.Counted := by
  rw [← h.sequence] at hroom
  refine ⟨h.numbered.store hroom block, ?_⟩
  rw [toNat_nextSequence_storeBlock hroom, h.sequence, h.rows_storeBlock, List.length_append]
  rfl

/-- No event replaces a block. -/
theorem apply (e : Event) (hroom : s.blocks.rows.length + calls [e] < UInt64.size) :
    s.Retains (e.apply s) (calls [e]) := by
  rw [calls_singleton] at hroom ⊢
  cases hkept : e.kept? with
  | none =>
    have hsame := e.sameStore_of_not_kept hkept s
    have hrows := congrArg Table.rows hsame.blocks
    exact ⟨h.of_sameStore hsame, hrows ▸ List.prefix_rfl, congrArg List.length hrows⟩
  | some block =>
    rw [hkept] at hroom
    have hsame := Event.sameStore_of_kept hkept s
    have hrows := (congrArg Table.rows hsame.blocks).trans (h.rows_storeBlock block)
    refine ⟨(h.storeBlock hroom block).of_sameStore hsame, ?_, ?_⟩
    · exact hrows ▸ List.prefix_append ..
    · exact (congrArg List.length hrows).trans List.length_append

/-- No run replaces a block. -/
theorem run (events : List Event) (hroom : s.blocks.rows.length + calls events < UInt64.size) :
    s.Retains (s.run events) (calls events) := by
  induction events generalizing s with
  | nil => exact ⟨h, List.prefix_rfl, rfl⟩
  | cons e events ih =>
    rw [show e :: events = [e] ++ events from rfl, calls_append] at hroom ⊢
    have hfirst := h.apply e (by omega)
    have hrest := ih hfirst.counted (by rw [hfirst.count]; omega)
    exact hfirst.trans hrest

/-- The root that an event is given stands above those of all blocks, and later the block is there under it. -/
theorem gives {e : Event} {block : SignedBeaconBlock} {root : Root} (hgives : e.Gives s block root)
    (later : List Event) (hroom : s.blocks.rows.length + calls (e :: later) < UInt64.size) :
    (∀ other kept, s.blocks.get? other = some kept → other.toList < root.toList) ∧
      (s.run (e :: later)).blocks.get? root = some block := by
  obtain rfl : (s.storeBlock block).1 = root := Except.ok.inj hgives.answer
  refine ⟨fun other kept hother => h.numbered.lt_given hother block, Table.get?_eq_some_iff.mpr ?_⟩
  rw [show e :: later = [e] ++ later from rfl, calls_append] at hroom
  have hfirst := h.apply e (by omega)
  have hrest := hfirst.counted.run later (by rw [hfirst.count]; omega)
  apply hrest.rows.subset
  rw [(Event.sameStore_of_kept hgives.asks s).blocks, h.rows_storeBlock]
  exact List.mem_append_right _ List.mem_cons_self

end Counted

/-- A new node retains its first block, and keeps one more block than there are calls. -/
theorem new_retains (genesisTime : Timestamp) (events : List Event) (hroom : calls events < Chronicle.capacity) :
    (new genesisTime).Retains ((new genesisTime).run events) (calls events) ∧
      ((new genesisTime).run events).blocks.rows.length = calls events + 1 := by
  have hfirst : (new genesisTime).blocks.rows.length = 1 := rfl
  rw [Chronicle.capacity] at hroom
  have hretains := (counted_new genesisTime).run events (by omega)
  exact ⟨hretains, by rw [hretains.count, hfirst, Nat.add_comm]⟩

/-- The root that `e` gives lies above all roots of earlier blocks, and the block is under it after all `later`
events. `hroom` counts the calls of the whole run, since a later call would overwrite the block when the running
numbers come round. -/
theorem new_gives {genesisTime : Timestamp} {before : List Event} {e : Event} (later : List Event)
    {block : SignedBeaconBlock} {root : Root} (hroom : calls (before ++ e :: later) < Chronicle.capacity)
    (hgives : e.Gives ((new genesisTime).run before) block root) :
    (∀ other kept, ((new genesisTime).run before).blocks.get? other = some kept → other.toList < root.toList) ∧
      ((new genesisTime).run (before ++ e :: later)).blocks.get? root = some block := by
  rw [calls_append] at hroom
  obtain ⟨hretains, hcount⟩ := new_retains genesisTime before (by omega)
  rw [Chronicle.capacity] at hroom
  rw [run_append]
  exact hretains.counted.gives hgives later (by omega)

/-- A root that `storeBlock` gives in a run names its block at the end, and later roots are above it. The
`events` are arbitrary and `addBlock` may come with any root, since only `storeBlock` touches `blocks`. `hroom`
keeps `nextSequence` from coming round to 0, where `storeBlock` would give `genesisRoot` again. -/
theorem stored_blocks_stay (genesisTime : Timestamp) (events : List Event)
    (hroom : calls events < Chronicle.capacity) :
    (∀ before e later block root, events = before ++ e :: later →
      e.Gives ((new genesisTime).run before) block root →
        root ≠ genesisRoot ∧ (((new genesisTime).run events).step (.getBlock root)).1 = .ok (some block)) ∧
    (∀ before e between e' later block block' root root', events = before ++ e :: (between ++ e' :: later) →
      e.Gives ((new genesisTime).run before) block root →
      e'.Gives ((new genesisTime).run (before ++ e :: between)) block' root' →
        root ≠ root' ∧ root.toList < root'.toList) ∧
    ((new genesisTime).run events).blocks.rows.length = calls events + 1 := by
  refine ⟨?_, ?_, (new_retains genesisTime events hroom).2⟩
  · rintro before e later block root rfl hgives
    obtain ⟨habove, hkept⟩ := new_gives later hroom hgives
    rw [calls_append] at hroom
    obtain ⟨hretains, _⟩ := new_retains genesisTime before (by omega)
    have hgenesis : ((new genesisTime).run before).blocks.get? genesisRoot = some genesisBlock :=
      Table.get?_eq_some_iff.mpr (hretains.rows.subset List.mem_cons_self)
    refine ⟨?_, congrArg Except.ok hkept⟩
    rintro rfl
    exact List.lt_irrefl _ (habove _ _ hgenesis)
  · rintro before e between e' later block block' root root' rfl hgives hgives'
    rw [← List.cons_append, ← List.append_assoc] at hroom
    obtain ⟨habove, _⟩ := new_gives later hroom hgives'
    -- The first block is there when the second one is kept, and so its root lies below.
    rw [calls_append] at hroom
    obtain ⟨_, hkept⟩ := new_gives between (by omega) hgives
    have hlt := habove root block hkept
    refine ⟨?_, hlt⟩
    rintro rfl
    exact List.lt_irrefl _ hlt

/-- A run that adds a block under a root that was not given for it, between two calls for blocks of one slot. -/
def strayRun : List Event :=
  [.insertBlock (Chronicle.sampleBlock ⟨1⟩ genesisRoot),
    .perform (.addBlock .zero (Chronicle.sampleBlock ⟨2⟩ genesisRoot)),
    .perform (.storeBlock (Chronicle.sampleBlock ⟨1⟩ .zero))]

/-- The stray entry does not touch the blocks. -/
theorem strayRun_blocks_stay :
    calls strayRun < Chronicle.capacity ∧ ((new ⟨0⟩).run strayRun).entries.contains .zero = true ∧
      (((new ⟨0⟩).run strayRun).step (.getBlock (derivedRoot 1 ⟨1⟩ .block))).1 =
        .ok (some (Chronicle.sampleBlock ⟨1⟩ genesisRoot)) ∧
      (derivedRoot 1 ⟨1⟩ .block).toList < (derivedRoot 2 ⟨1⟩ .block).toList ∧
      ((new ⟨0⟩).run strayRun).blocks.rows.length = 3 := by
  have hroom : calls strayRun < Chronicle.capacity := by decide
  obtain ⟨hstays, hrises, hcount⟩ := stored_blocks_stay ⟨0⟩ strayRun hroom
  refine ⟨hroom, by decide +kernel, ?_, ?_, hcount⟩
  · exact (hstays [] _ _ _ _ rfl ⟨rfl, rfl⟩).2
  · exact (hrises [] _ [_] _ [] _ _ _ _ rfl ⟨rfl, rfl⟩ ⟨rfl, rfl⟩).2

end Memory

end BeaconApi
