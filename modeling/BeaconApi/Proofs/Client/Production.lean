import BeaconApi.Proofs.Client.Direct
import BeaconApi.Proofs.Memory.Duties
import BeaconApi.Proofs.Node.Import

namespace BeaconApi

namespace Memory

open PreparedResponse (discard_received_of_ok okMessage)

/-- A block is what a node has to offer for a slot: it stands behind the head, and holds what was asked for
and what is in the pools. -/
structure Offers (s : Memory) (slot : Slot) (randaoReveal : BlsSignature) (graffiti : Option Root)
    (b : Phase0.BeaconBlock) : Prop where
  slot_eq : b.slot = slot
  proposerIndex : b.proposerIndex.val.toNat = slot.val.toNat % 64
  parentRoot : b.parentRoot = s.head
  randaoReveal_eq : b.body.randaoReveal = randaoReveal
  graffiti_eq : b.body.graffiti = graffiti.getD .zero
  attestations : b.body.attestations = s.attestations.filter fun a => a.data.slot.val < slot.val
  voluntaryExits : b.body.voluntaryExits = s.voluntaryExits

/-- What comes of a request for a block to sign, at the handler and at a client. It changes nothing. -/
structure Produces (client : Client (StateM Memory)) (s : Memory) (slot : Slot) (randaoReveal : BlsSignature)
    (graffiti : Option Root) (response : PreparedResponse) (result : Except ApiError Phase0.BeaconBlock) :
    Prop where
  handled (r : IncomingRequest) : Names "slot" slot r → Asks "randao_reveal" (some randaoReveal) r →
    Asks "graffiti" graffiti r → (Endpoint.produceBlock backend r).response.run s = (response, s)
  called : (client.produceBlock slot randaoReveal graffiti).run s = (result, s)

/-- A node takes a block as processed, whether it comes to the handler, in a request, or from a client. -/
structure Takes (client : Client (StateM Memory)) (version : String) (s : Memory) (b : SignedBeaconBlock)
    (s' : Memory) : Prop where
  handled (r : IncomingRequest) (bytes : ByteArray) : r.body = some bytes → Body.decodeContents bytes = .ok b →
    (Endpoint.publishBlock backend r).response.run s = (.okMessage "processed and published block", s')
  answered (request : Http.Request) : request.Posts "/eth/v1/beacon/blocks" →
    Body.decodeContents request.body = .ok b → request.body.size ≤ Router.maxBodySize →
    ∃ response, (Node.answer backend version request).run s = (response, s') ∧ response.status = 200
  published : (Payload.encode b).toUTF8.size ≤ Router.maxBodySize →
    (client.publishBlock b).run s = (.ok true, s')

/-- A block has become the head of a node, behind the head before it, and the canonical block of its slot. -/
structure MovesTo (s : Memory) (b : SignedBeaconBlock) (s' : Memory) (entry : ChainEntry) : Prop where
  head : s'.head? = some entry
  slot : entry.slot = b.slot
  parentRoot : entry.parentRoot = s.head
  canonical : s'.canonicalAt? b.slot = some entry

section Production

variable {s : Memory} {head : ChainEntry} {slot : Slot} (randaoReveal : BlsSignature)

/-- No block is produced for the slot of the head or one before it. -/
theorem produceBlock_of_le (hhead : s.head? = some head) (hslot : slot.val ≤ head.slot.val) (graffiti : Root) :
    s.produceBlock slot randaoReveal graffiti = .error (.invalid ("cannot produce a block at slot " ++
      slot.display ++ ": head is at slot " ++ head.slot.display)) := by
  rw [produceBlock, hhead]
  exact if_pos hslot

theorem exists_produceBlock (hlinked : s.Linked) (hhead : s.head? = some head)
    (hslot : head.slot.val < slot.val) (graffiti : Option Root) :
    ∃ b, s.produceBlock slot randaoReveal (graffiti.getD .zero) = .ok b ∧
      s.Offers slot randaoReveal graffiti b := by
  rw [produceBlock, hhead]
  exact ⟨_, if_neg (UInt64.not_le.mpr hslot), rfl, toNat_proposerAt slot, hlinked.filed hhead, rfl, rfl, rfl,
    rfl⟩

/-- A block that is offered for a slot after the head leads the chain, whoever signs it. -/
theorem Offers.leads {randaoReveal : BlsSignature} {graffiti : Option Root} {b : Phase0.BeaconBlock}
    (h : s.Offers slot randaoReveal graffiti b) (hhead : s.head? = some head)
    (hslot : head.slot.val < slot.val) (signature : BlsSignature) : s.Leads (.phase0 ⟨b, signature⟩) := by
  have hparent : (SignedBeaconBlock.phase0 ⟨b, signature⟩).parentRoot = s.head := h.parentRoot
  have hb : (SignedBeaconBlock.phase0 ⟨b, signature⟩).slot = slot := h.slot_eq
  refine ⟨⟨head, ?_, ?_⟩, hparent⟩
  · rw [hparent]
    exact hhead
  · rw [hb]
    exact hslot

variable {result : Except BackendError Phase0.BeaconBlock} (graffiti : Option Root)

/-- A node that is not syncing tells a client what it has produced, or why it has not. -/
theorem produces_of_not_syncing (hidle : s.syncing = false)
    (hproduce : s.produceBlock slot randaoReveal (graffiti.getD .zero) = result)
    (hinvalid : ∀ e, result = .error e → ∃ reason, e = .invalid reason) (version address : String) :
    Produces (Node.direct version address) s slot randaoReveal graffiti
      (settled (reply .okData result))
      (result.mapError fun e => .invalidRequest 400 (.plain (.plain 400 e.message))) := by
  subst hproduce
  refine ⟨fun r hslot hreveal hgraffiti => ?_, ?_⟩
  · have hreads := Node.produceBlock_reads_of_carries s ⟨hslot, hreveal, hgraffiti⟩
    have hsynced : s.synced = .ok () := if_neg (Bool.eq_false_iff.mp hidle)
    rw [hsynced] at hreads
    exact response_run hreads
  · rw [(Node.direct_produceBlock address s slot randaoReveal graffiti hinvalid).called,
      told_of_not_syncing hidle]

end Production

section Submission

variable {s : Memory} {b : SignedBeaconBlock}
  (hfresh : s.blocks.get? (s.storeBlock b).1 = none ∧ s.entry? (s.storeBlock b).1 = none) (hfiled : s.Filed)
include hfresh hfiled

/-- A node moves to a block that leads its chain. -/
theorem submitBlock_movesTo (hleads : s.Leads b) :
    s.MovesTo b (s.submitBlock b) (entryOf (s.storeBlock b).1 b) := by
  have hrecords := submitBlock_records hfresh hfiled
  have hentry : Memory.entry? (s.submitBlock b) (s.storeBlock b).1 = some (entryOf (s.storeBlock b).1 b) := by
    rw [hrecords.entries, if_pos ⟨rfl, hleads.1⟩]
  refine ⟨?_, rfl, hleads.2, ?_⟩
  · rw [head?, hrecords.head, if_pos hleads, hentry]
  · rw [canonicalAt?, hrecords.canonical, if_pos ⟨rfl, hleads⟩]
    exact hentry

/-- A node that is not syncing takes every block that it admits. -/
theorem submitBlock_takes (hadmits : s.Admits b) (hidle : s.syncing = false) (version address : String) :
    Takes (Node.direct version address) version s b (s.submitBlock b) := by
  have hrun (r : IncomingRequest) (bytes : ByteArray) (hr : r.body = some bytes)
      (hbody : Body.decodeContents bytes = .ok b) : (Endpoint.publishBlock backend r).run.run s =
        (.ok (.okMessage "processed and published block"), s.submitBlock b) := by
    rw [publishBlock_run hr hbody, addBlock_keepBlock_of_admits hfresh hfiled hadmits, hidle]
    rfl
  have hroute := publishBlock_route version
  refine ⟨fun r bytes hr hbody => response_run (hrun r bytes hr hbody), ?_, fun hsize => ?_⟩
  · intro request hposts hbody hsize
    exact ⟨_, hroute.post_run hposts hsize fun r hr => hrun r _ hr hbody,
      PreparedResponse.write_status_of_isStatus (by decide : Http.isStatus 200 = true)⟩
  · have hrequest := hroute.submit_run address hsize fun r hr => hrun r _ hr b.readsBack.decodeContents
    rw [Client.publishBlock, StateT.run_bind, Client.send_run hrequest]
    have hdiscard := discard_received_of_ok (rfl : (okMessage "processed and published block").code = 200)
    exact congrArg (fun result => ((result.map (· ≠ 202) : Except ApiError Bool), s.submitBlock b)) hdiscard

/-- The block that a node has moved to is what a client finds at the head. -/
theorem direct_block_submitBlock (hleads : s.Leads b) (version address : String) :
    (s.submitBlock b).Agrees ((Node.direct version address).block .head) Endpoint.block
      (Names "block_id" BlockId.head) (.ok (some b)) := by
  have hblock : (s.submitBlock b).computed (.getBlock (s.storeBlock b).1) = .ok (some b) := by
    have hkept := (submitBlock_records hfresh hfiled).blocks (s.storeBlock b).1
    rw [if_pos rfl] at hkept
    exact congrArg Except.ok hkept
  have hhead : (s.submitBlock b).blockAt? .head =
      (some ⟨entryOf (s.storeBlock b).1 b, b, hblock⟩ : Option (s.submitBlock b).Held).map Held.entry :=
    (submitBlock_movesTo hfresh hfiled hleads).head
  exact Node.direct_block address hhead

end Submission

namespace Chronicle

/-- For the slots above the head of a `Reachable` chronicle and no others `produceBlock` offers a block, which,
with any signature, is accepted and becomes the head. `hidle` is needed since a syncing node refuses to produce
and answers a submission with 503. `hroom` makes the root of the block new: `addBlock` would find an entry at a
used one and leave the head where it is. -/
theorem production_accepted {genesisTime : Timestamp} {c : Chronicle} (h : Reachable genesisTime c)
    (hroom : c.stored.length < capacity) (hidle : c.memory.syncing = false) (version address : String)
    (slot : Slot) (randaoReveal : BlsSignature) (graffiti : Option Root) :
    ∃ head, c.memory.head? = some head ∧
      (slot.val ≤ head.slot.val → ∃ reason,
        reason = "cannot produce a block at slot " ++ slot.display ++ ": head is at slot " ++ head.slot.display ∧
        Produces (Node.direct version address) c.memory slot randaoReveal graffiti (.badInput reason)
          (.error (.invalidRequest 400 (.plain (.plain 400 reason))))) ∧
      (head.slot.val < slot.val → ∃ b, c.memory.Offers slot randaoReveal graffiti b ∧
        Produces (Node.direct version address) c.memory slot randaoReveal graffiti (.okData b) (.ok b) ∧
        ∀ signature, ∃ s' entry, c.memory.MovesTo (.phase0 ⟨b, signature⟩) s' entry ∧
          Takes (Node.direct version address) version c.memory (.phase0 ⟨b, signature⟩) s' ∧
          s'.Agrees ((Node.direct version address).block .head) Endpoint.block
            (Names "block_id" BlockId.head) (.ok (some (.phase0 ⟨b, signature⟩)))) := by
  obtain ⟨head, hhead⟩ := h.linked.head
  refine ⟨head, hhead, fun hslot => ?_, fun hslot => ?_⟩
  · have hproduce := produceBlock_of_le randaoReveal hhead hslot (graffiti.getD .zero)
    exact ⟨_, rfl, produces_of_not_syncing randaoReveal graffiti hidle hproduce
      (fun e he => ⟨_, (Except.error.inj he).symm⟩) version address⟩
  · obtain ⟨b, hproduce, hoffers⟩ := exists_produceBlock randaoReveal h.linked hhead hslot graffiti
    refine ⟨b, hoffers, produces_of_not_syncing randaoReveal graffiti hidle hproduce
      (fun e he => nomatch he) version address, fun signature => ?_⟩
    have hfresh := (h.stocked hroom).fresh_root (.phase0 ⟨b, signature⟩)
    have hleads := hoffers.leads hhead hslot signature
    exact ⟨_, _, submitBlock_movesTo hfresh h.linked.filed hleads,
      submitBlock_takes hfresh h.linked.filed hleads.1 hidle version address,
      direct_block_submitBlock hfresh h.linked.filed hleads version address⟩

/-- What the forked node, whose head is at slot 2, has to offer for slot 7. -/
def forkedOffer : Phase0.BeaconBlock where
  slot := ⟨7⟩
  proposerIndex := ⟨7⟩
  parentRoot := derivedRoot 1 ⟨2⟩ .block
  stateRoot := derivedRoot 0 ⟨7⟩ .state
  body := default

/-- The forked node produces its offer for slot 7, and takes it once it is signed. -/
theorem forked_production_accepted :
    ((Node.direct "" "http://localhost/").produceBlock ⟨7⟩ .zero none).run forked.memory =
        (.ok forkedOffer, forked.memory) ∧
      ∃ s', ((Node.direct "" "http://localhost/").publishBlock (.phase0 ⟨forkedOffer, .zero⟩)).run
          forked.memory = (.ok true, s') ∧
        ((Node.direct "" "http://localhost/").block .head).run s' =
          (.ok (some (.phase0 ⟨forkedOffer, .zero⟩)), s') := by
  obtain ⟨head, hhead, -, haccepted⟩ := production_accepted reachable_forked (by decide +kernel) rfl ""
    "http://localhost/" ⟨7⟩ .zero none
  have hslot : head.slot.val < 7 := by
    have hbefore : (forked.memory.head?.any fun entry => entry.slot.val < 7) = true := by decide +kernel
    rw [hhead] at hbefore
    exact of_decide_eq_true hbefore
  obtain ⟨b, -, hproduces, hsigned⟩ := haccepted hslot
  obtain rfl : forkedOffer = b := by
    have hoffer : forked.memory.produceBlock ⟨7⟩ .zero .zero = .ok forkedOffer := by decide +kernel
    have hproduced := produces_of_not_syncing .zero none rfl hoffer (fun _ he => nomatch he) ""
      "http://localhost/"
    exact Except.ok.inj (Prod.mk.inj (hproduced.called.symm.trans hproduces.called)).1
  obtain ⟨s', entry, -, htakes, hread⟩ := hsigned .zero
  have hsize : (Payload.encode (SignedBeaconBlock.phase0 ⟨forkedOffer, .zero⟩)).toUTF8.size ≤
      Router.maxBodySize :=
    (Payload.toJson (SignedBeaconBlock.phase0 ⟨forkedOffer, .zero⟩)).size_render_le.trans
      (by decide +kernel)
  exact ⟨hproduces.called, s', htakes.published hsize, hread.called⟩

end Chronicle

end Memory

end BeaconApi
