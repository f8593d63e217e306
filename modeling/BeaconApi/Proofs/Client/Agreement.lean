import BeaconApi.Proofs.Client.Direct

namespace BeaconApi

/-- All reads of a block by a client tell of the same entry and its block, or of nothing. -/
structure Memory.BlockAgreement (client : Client (StateM Memory)) (s : Memory) (id : BlockId)
    (found : Option s.Held) : Prop where
  lookup : ((backend.lookupBlock id).run s).1 = found.map Held.entry
  root : s.Agrees (client.blockRoot id) Endpoint.blockRoot (Names "block_id" id)
    (.ok (found.map fun held => held.entry.blockRoot))
  block : s.Agrees (client.block id) Endpoint.block (Names "block_id" id) (.ok (found.map Held.block))
  versioned : s.Agrees (client.blockWithVersion id) Endpoint.blockWithVersion (Names "block_id" id)
    (.ok (found.map fun held => held.block.versioned))
  attestations : s.Agrees (client.blockAttestations id) Endpoint.blockAttestations (Names "block_id" id)
    (.ok (found.map fun held => held.block.attestations))
  header : s.Agrees (client.blockHeader id) Endpoint.blockHeader (Names "block_id" id)
    (.ok (found.map Held.header))

/-- All reads by a client tell what a node in a state computes. -/
structure Memory.Agreement (client : Client (StateM Memory)) (version : String) (s : Memory) : Prop where
  genesis : s.Agrees client.genesis Endpoint.genesis (fun _ => True) (.ok (some (s.computed .genesis)))
  version : s.Agrees client.version (Endpoint.version version) (fun _ => True) (.ok version)
  syncing : s.Agrees client.syncing Endpoint.syncing (fun _ => True) (.ok (s.computed .syncStatus))
  block (id : BlockId) : ∃ found : Option s.Held, BlockAgreement client s id found
  headers (slot : Option Slot) (parentRoot : Option Root) : ∃ found : List s.Held,
    s.computed (.search parentRoot slot) = found.map Held.entry ∧
      s.Agrees (client.blockHeaders slot parentRoot) Endpoint.blockHeaders
        (fun r => Asks "slot" slot r ∧ Asks "parent_root" parentRoot r) (.ok (found.map Held.header))
  stateRoot (id : StateId) : s.Agrees (client.stateRoot id) Endpoint.stateRoot (Names "state_id" id)
    (.ok (((backend.lookupState id).run s).1.map ChainEntry.stateRoot))
  finalityCheckpoints (id : StateId) :
    s.Agrees (client.finalityCheckpoints id) Endpoint.finalityCheckpoints (Names "state_id" id)
      (.ok (((backend.lookupState id).run s).1.map fun entry => s.computed (.finality entry)))
  poolAttestations (slot : Option Slot) (index : Option CommitteeIndex) :
    s.Agrees (client.poolAttestations slot index) Endpoint.poolAttestations
      (fun r => Asks "slot" slot r ∧ Asks "committee_index" index r)
      (.ok (s.computed (.attestations slot index)))
  poolVoluntaryExits : s.Agrees client.poolVoluntaryExits Endpoint.poolVoluntaryExits (fun _ => True)
    (.ok (s.computed .voluntaryExits))
  produceBlock (slot : Slot) (randaoReveal : BlsSignature) (graffiti : Option Root) :
    s.Agrees (client.produceBlock slot randaoReveal graffiti) Endpoint.produceBlock
      (fun r => Names "slot" slot r ∧ Asks "randao_reveal" (some randaoReveal) r ∧
        Asks "graffiti" graffiti r)
      (s.told (s.computed (.produceBlock slot randaoReveal (graffiti.getD .zero))))
  proposerDuties (epoch : Epoch) :
    s.Agrees (client.proposerDuties epoch) Endpoint.proposerDuties (Names "epoch" epoch)
      (s.told (s.computed (.proposerDuties epoch)))

namespace Memory.Chronicle

/-- At a `Reachable` chronicle each reading call of a client over `Node.direct` returns what `Memory.computed`
gives for its arguments, through the URL, the routes, the handler and the decoder, and the handler answers with
a code that mirrors it. Reachability provides an entry of the head and a block behind each entry, without which
handlers answer 500. -/
theorem client_agrees_with_node {genesisTime : Timestamp} {c : Chronicle} (h : Reachable genesisTime c)
    (version address : String) : Agreement (Node.direct version address) version c.memory := by
  have hready := h.ready
  exact
    { genesis := Node.direct_genesis version address c.memory
      version := Node.direct_version version address c.memory
      syncing := Node.direct_syncing version address c.memory
      block := by
        intro id
        obtain ⟨found, hfound⟩ := exists_held_blockAt? hready id
        refine ⟨found, ?_, Node.direct_blockRoot address hfound, Node.direct_block address hfound,
          Node.direct_blockWithVersion address hfound, Node.direct_blockAttestations address hfound,
          Node.direct_blockHeader address hfound⟩
        rw [lookupBlock_run, hfound]
      headers := by
        intro slot parentRoot
        obtain ⟨found, hfound⟩ := exists_held_search hready parentRoot slot
        exact ⟨found, hfound, Node.direct_blockHeaders address c.memory hfound⟩
      stateRoot := by
        intro id
        rw [lookupState_run]
        exact Node.direct_stateRoot address c.memory id
      finalityCheckpoints := by
        intro id
        rw [lookupState_run]
        exact Node.direct_finalityCheckpoints address c.memory id
      poolAttestations := Node.direct_poolAttestations address c.memory
      poolVoluntaryExits := Node.direct_poolVoluntaryExits version address c.memory
      produceBlock := fun slot randaoReveal graffiti =>
        Node.direct_produceBlock address c.memory slot randaoReveal graffiti fun _ => produceBlock_error hready
      proposerDuties := fun epoch =>
        Node.direct_proposerDuties address c.memory epoch fun _ => proposerDuties_error }

/-- A client of the forked node finds the root of its head, and nothing at a slot without a block. It is
refused a block for a slot that is past, and duties while the node is syncing. -/
theorem forked_client_agrees :
    ((Node.direct "" "http://localhost/").blockRoot .head).run forked.memory =
      (.ok (some forked.memory.head), forked.memory) ∧
    ((Node.direct "" "http://localhost/").block (.slot ⟨7⟩)).run forked.memory =
      (.ok none, forked.memory) ∧
    ((Node.direct "" "http://localhost/").produceBlock ⟨2⟩ .zero none).run forked.memory =
      (.error (.invalidRequest 400 (.plain (.plain 400
        "cannot produce a block at slot 2: head is at slot 2"))), forked.memory) ∧
    ((Node.direct "" "http://localhost/").proposerDuties ⟨0⟩).run forkedSyncing.memory =
      (.error (.currentlySyncing 503 (.plain (.plain 503 "beacon node is syncing"))),
        forkedSyncing.memory) := by
  have hagrees := client_agrees_with_node reachable_forked "" "http://localhost/"
  have hsyncing : Reachable ⟨0⟩ forkedSyncing := reachable_forked.tail ⟨.setSyncing true, trivial, rfl⟩
  refine ⟨?_, ?_, ?_, ?_⟩
  · obtain ⟨found, hblock⟩ := hagrees.block .head
    have hhead : (found.map Held.entry).map ChainEntry.blockRoot = some forked.memory.head := by
      rw [← hblock.lookup]
      decide +kernel
    rw [Option.map_map] at hhead
    exact hhead ▸ hblock.root.called
  · obtain ⟨found, hblock⟩ := hagrees.block (.slot ⟨7⟩)
    have hnone : found.map Held.entry = none := by
      rw [← hblock.lookup]
      decide +kernel
    obtain rfl := Option.map_eq_none_iff.mp hnone
    exact hblock.block.called
  · exact (hagrees.produceBlock ⟨2⟩ .zero none).called
  · exact ((client_agrees_with_node hsyncing "" "http://localhost/").proposerDuties ⟨0⟩).called

end Memory.Chronicle

end BeaconApi
