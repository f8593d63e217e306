import BeaconApi.Proofs.Client.Direct
import BeaconApi.Proofs.Memory.Search

namespace BeaconApi

open Memory (backend Held)

/-- A request asks for the headers that pass the given filters. Its body does not matter unless it is too
large. -/
structure Http.Request.AsksHeaders (request : Http.Request) (slot : Option Slot) (parentRoot : Option Root) :
    Prop where
  method : request.method = "GET"
  path : (Http.Target.ofString request.target).path = "/eth/v1/beacon/headers"
  filters {r : IncomingRequest} :
    r.queryValues = .group (Form.decode (Http.Target.ofString request.target).query) →
    Asks "slot" slot r ∧ Asks "parent_root" parentRoot r
  size : request.body.size ≤ Router.maxBodySize

/-- A header tells what the chain knows about an entry: the entry itself, the signature of the block that is
kept for it, and whether it is on the line of the head. -/
structure Memory.Heads (s : Memory) (entry : ChainEntry) (info : BeaconBlockHeaderAndInfo) : Prop where
  root : info.root = entry.blockRoot
  message : info.header.message =
    ⟨entry.slot, entry.proposerIndex, entry.parentRoot, entry.stateRoot, entry.bodyRoot⟩
  signature : (s.blocks.get? entry.blockRoot).map SignedBeaconBlock.signature = some info.header.signature
  canonical : info.canonical ↔ s.Descends s.head entry.blockRoot

/-- The headers are those of exactly the entries that pass the filters, in strictly rising order. The entries
of a slot come in the order in which their blocks were kept. Without filters the head is one of them. -/
structure Memory.Chronicle.HeaderSearch (c : Chronicle) (slot : Option Slot) (parentRoot : Option Root)
    (entries : List ChainEntry) (infos : List BeaconBlockHeaderAndInfo) : Prop where
  found {entry : ChainEntry} :
    entry ∈ entries ↔ c.memory.Known entry ∧ c.memory.Passes parentRoot slot entry
  rising : entries.Pairwise ChainEntry.Before
  sequenced : entries.Pairwise fun a b => a.slot = b.slot → c.StoredBefore a.blockRoot b.blockRoot
  head : parentRoot = none → slot = none → ∃ head ∈ entries, c.memory.head? = some head
  infos : List.Forall₂ c.memory.Heads entries infos

/-- There is a header for each entry that passes the filters. -/
theorem Memory.Chronicle.HeaderSearch.exists_info {c : Chronicle} {slot : Option Slot}
    {parentRoot : Option Root} {entries : List ChainEntry} {infos : List BeaconBlockHeaderAndInfo}
    (h : c.HeaderSearch slot parentRoot entries infos) {entry : ChainEntry} (hknown : c.memory.Known entry)
    (hpasses : c.memory.Passes parentRoot slot entry) : ∃ info ∈ infos, c.memory.Heads entry info := by
  have hmem := h.found.mpr ⟨hknown, hpasses⟩
  have hinfos := h.infos
  clear h
  induction hinfos with
  | nil => cases hmem
  | cons hheads _ ih =>
    rcases List.mem_cons.mp hmem with rfl | hmem
    · exact ⟨_, List.mem_cons_self, hheads⟩
    · obtain ⟨info, hinfo, hheads⟩ := ih hmem
      exact ⟨info, List.mem_cons_of_mem _ hinfo, hheads⟩

namespace Memory

theorem Held.heads {c : Chronicle} (hlinked : c.memory.Linked) (hstocked : c.Stocked)
    (held : c.memory.Held) (hknown : c.memory.Known held.entry) : c.memory.Heads held.entry held.header := by
  have hblock : c.memory.blocks.get? held.entry.blockRoot = some held.block :=
    Except.ok.inj (show Except.ok _ = Except.ok _ from held.held)
  obtain ⟨kept, hkept, hrepeats⟩ := hstocked.exists_repeats hlinked hknown
  obtain rfl : held.block = kept := Option.some.inj (hblock.symm.trans hkept)
  refine ⟨rfl, ?_, congrArg _ hblock, hlinked.canonicalAt?_iff hknown⟩
  rw [hrepeats.slot, hrepeats.proposerIndex, hrepeats.parentRoot, hrepeats.stateRoot]
  rfl

namespace Chronicle

/-- What a node searches and the headers behind it. -/
theorem headerSearch_of_held {c : Chronicle} (hlinked : c.memory.Linked) (hstocked : c.Stocked)
    (hsequenced : c.Sequenced) {slot : Option Slot} {parentRoot : Option Root} {found : List c.memory.Held}
    (hfound : c.memory.search parentRoot slot = found.map Held.entry) :
    c.HeaderSearch slot parentRoot (c.memory.search parentRoot slot) (found.map Held.header) := by
  have hknown {entry : ChainEntry} (hmem : entry ∈ c.memory.search parentRoot slot) :
      c.memory.Known entry := (hlinked.mem_search_iff.mp hmem).1
  have hrising := hlinked.search_pairwise parentRoot slot
  refine ⟨hlinked.mem_search_iff, hrising, ?_, ?_, ?_⟩
  · refine hrising.imp_of_mem fun ha hb hbefore hslot => ?_
    exact hsequenced.storedBefore_of_before hlinked (hknown ha) (hknown hb) hslot hbefore
  · rintro rfl rfl
    obtain ⟨head, hhead⟩ := hlinked.head
    have hpasses : c.memory.Passes none none head := ⟨nofun, nofun, fun _ _ => ⟨head, hhead, rfl⟩⟩
    exact ⟨head, hlinked.mem_search_iff.mpr ⟨hlinked.known hhead, hpasses⟩, hhead⟩
  · rw [hfound, List.forall₂_map_left_iff, List.forall₂_map_right_iff, List.forall₂_same]
    exact fun held hmem => held.heads hlinked hstocked (hknown (hfound ▸ List.mem_map_of_mem hmem))

/-- A node answers a request for headers with those of what it finds. -/
theorem answer_headers {s : Memory} {request : Http.Request} {slot : Option Slot} {parentRoot : Option Root}
    (hasks : request.AsksHeaders slot parentRoot) {found : List s.Held}
    (hfound : s.search parentRoot slot = found.map Held.entry) (version : String) :
    ∃ response, (Node.answer backend version request).run s = (response, s) ∧
      response.status = 200 ∧ Payload.decode response.body = .ok (Envelope.mk (found.map Held.header)) := by
  have hreached := (Node.blockHeaders_route version).reached hasks.path (by rw [hasks.method]; rfl)
  have hreceive := (Router.receive_of_bindParams_eq_ok (Http.Target.ofString request.target).query
    request.body (rfl : Router.bindParams [] .empty = .ok .empty)).trans (if_neg (Nat.not_lt.mpr hasks.size))
  have hanswer := Node.answer_of_reached hreached (by rw [hasks.method]; decide) (fun _ => rfl) hreceive
    (Node.blockHeaders_reads_of_asks s hfound (hasks.filters rfl))
  have hview : Body.ReadsBack (Envelope.mk (found.map Held.header)) := .of_envelope (by decide) (by decide) _
  exact ⟨_, hanswer, rfl, mapError_eq_ok_iff.mp hview.decode⟩

/-- At a `Reachable` chronicle `search` gives exactly the entries that pass the filters, in the order of
`ChainEntry.Before`, and `Node.answer` and a client return their headers. `hroom` is needed for the order within
a slot: roots follow the order of keeping only as long as the running numbers do not come round. `AsksHeaders`
bounds the body, as 413 comes before the handler. -/
theorem header_search_exact {genesisTime : Timestamp} {c : Chronicle} (h : Reachable genesisTime c)
    (hroom : c.stored.length < capacity) (slot : Option Slot) (parentRoot : Option Root) :
    ∃ entries infos, c.HeaderSearch slot parentRoot entries infos ∧
      (∀ version request, request.AsksHeaders slot parentRoot →
        ∃ response, (Node.answer backend version request).run c.memory = (response, c.memory) ∧
          response.status = 200 ∧ Payload.decode response.body = .ok (Envelope.mk infos)) ∧
      ∀ version address, ((Node.direct version address).blockHeaders slot parentRoot).run c.memory =
        (.ok infos, c.memory) := by
  obtain ⟨found, hfound⟩ := exists_held_search h.ready parentRoot slot
  have hsearch := headerSearch_of_held h.linked (h.stocked hroom) (h.sequenced hroom) hfound
  refine ⟨_, _, hsearch, fun version request hasks => answer_headers hasks hfound version, ?_⟩
  exact fun version address => (Node.direct_blockHeaders address c.memory hfound).called

/-- A node with two blocks in one slot, of which the first became the head. -/
def twins : Chronicle :=
  ((initial ⟨0⟩).after (.insertBlock (sampleBlock ⟨2⟩ genesisRoot))).after
    (.insertBlock (sampleBlock ⟨2⟩ genesisRoot))

theorem reachable_twins : Reachable ⟨0⟩ twins :=
  .tail (.tail .refl ⟨.insertBlock _, trivial, rfl⟩) ⟨.insertBlock _, trivial, rfl⟩

/-- Both blocks are found in their slot, but only the first is canonical. -/
theorem twins_header_search :
    ∃ infos, ((Node.direct "" "http://localhost/").blockHeaders (some ⟨2⟩) none).run twins.memory =
        (.ok infos, twins.memory) ∧
      (∃ info ∈ infos, info.root = derivedRoot 1 ⟨2⟩ .block ∧ info.canonical = true) ∧
      ∃ info ∈ infos, info.root = derivedRoot 2 ⟨2⟩ .block ∧ info.canonical = false := by
  obtain ⟨_, infos, hsearch, -, hclient⟩ :=
    header_search_exact reachable_twins (by decide) (some ⟨2⟩) none
  have hinfo (number : UInt64) (hknown : twins.memory.Known
      (entryOf (derivedRoot number ⟨2⟩ .block) (sampleBlock ⟨2⟩ genesisRoot))) :
      ∃ info ∈ infos, info.root = derivedRoot number ⟨2⟩ .block ∧ (info.canonical ↔
        (twins.memory.canonicalAt? ⟨2⟩).any fun c => c.blockRoot = derivedRoot number ⟨2⟩ .block) := by
    have hpasses : twins.memory.Passes none (some ⟨2⟩)
        (entryOf (derivedRoot number ⟨2⟩ .block) (sampleBlock ⟨2⟩ genesisRoot)) :=
      ⟨nofun, fun hslot => Option.some.inj hslot, nofun⟩
    obtain ⟨info, hmem, hheads⟩ := hsearch.exists_info hknown hpasses
    have hslot := reachable_twins.linked.canonicalAt?_iff hknown
    exact ⟨info, hmem, hheads.root, hheads.canonical.trans hslot.symm⟩
  refine ⟨infos, hclient "" _, ?_, ?_⟩
  · obtain ⟨info, hmem, hroot, hcanonical⟩ := hinfo 1 (by unfold Known; decide +kernel)
    exact ⟨info, hmem, hroot, hcanonical.mpr (by decide +kernel)⟩
  · obtain ⟨info, hmem, hroot, hcanonical⟩ := hinfo 2 (by unfold Known; decide +kernel)
    exact ⟨info, hmem, hroot, Bool.eq_false_iff.mpr fun h => absurd (hcanonical.mp h) (by decide +kernel)⟩

end Chronicle

end Memory

end BeaconApi
