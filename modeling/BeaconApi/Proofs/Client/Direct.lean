import BeaconApi.Client.Chain
import BeaconApi.Client.Duties
import BeaconApi.Client.Pool
import BeaconApi.Client.Status
import BeaconApi.Proofs.Beacon.Forks
import BeaconApi.Proofs.Beacon.Payloads
import BeaconApi.Proofs.Client.Calls
import BeaconApi.Proofs.Node.Views

namespace BeaconApi

namespace Node

open Memory (backend Agrees Held Reads named)
open PreparedResponse (Carries ok_carries)

variable {version : String} (address : String) {s : Memory}

section Named

variable {ι κ α : Type} [Param ι] [Payload α] {pattern lead name tail segment missing : String}
  {endpoint : Endpoint (StateM Memory)} {id : ι} {find : ι → Option ChainEntry}
  {next : ChainEntry → Except PreparedResponse PreparedResponse}
  {found : Option κ} {entry : κ → ChainEntry} {view : κ → α} {path : String}
  (hroute : ReadRoute version pattern lead name tail endpoint)
  (hsegment : IsSegment segment) (hid : Param.ofText segment = .ok id)
  (hreads : ∀ r, Reads (endpoint backend r) s (named missing (pathParam r name) find >>= next))
  (hfound : find id = found.map entry) (hpath : path = lead ++ segment ++ tail)
include hroute hsegment hid hreads hfound hpath

/-- A client that asks for what an identifier names is given it, or nothing. -/
theorem direct_lookup (hnext : ∀ x, ∃ p, next (entry x) = .ok p ∧ p.Carries (view x)) :
    s.Agrees ((direct version address).lookup (.get path)) endpoint (Names name id)
      (.ok (found.map view)) := by
  subst hpath
  have hnamed (r : IncomingRequest) (hr : Names name id r) :
      Reads (endpoint backend r) s (named missing (.ok id) find >>= next) := by
    have hr : pathParam r name = .ok id := hr
    exact hr ▸ hreads r
  have hrequest := hroute.get_run address hsegment (rfl : Query.encode .empty = .ok "")
    fun incoming hparam _ => hnamed incoming (names_of_param hparam hid)
  exact .lookup_named hrequest hnamed hfound hnext

theorem direct_lookupData (hview : ∀ x, Body.ReadsBack (Envelope.mk (view x)))
    (hnext : ∀ x, next (entry x) = .ok (.okData (view x))) :
    s.Agrees ((direct version address).lookupData (.get path)) endpoint (Names name id)
      (.ok (found.map view)) := by
  have hlookup : s.Agrees ((direct version address).lookup (.get path)) endpoint (Names name id)
      (.ok (found.map fun x => Envelope.mk (view x))) :=
    direct_lookup address hroute hsegment hid hreads hfound hpath fun x =>
      ⟨_, hnext x, ok_carries (hview x)⟩
  have hdata := hlookup.map (Option.map Envelope.data)
  rwa [Except.map, Option.map_map] at hdata

end Named

section Blocks

variable {found : Option s.Held} {id : BlockId} (hfound : s.blockAt? id = found.map Held.entry)
include hfound

theorem direct_blockRoot : s.Agrees ((direct version address).blockRoot id) Endpoint.blockRoot
    (Names "block_id" id) (.ok (found.map fun held => held.entry.blockRoot)) := by
  have hdata := direct_lookupData address (BlockView.root.route version) id.display_isSegment
    id.ofText_display s.blockRoot_reads hfound rfl (fun _ => .of_envelope (by decide) (by decide) _)
    fun _ => rfl
  have hroot := hdata.map (Option.map RootResponse.root)
  rwa [Except.map, Option.map_map] at hroot

theorem direct_block : s.Agrees ((direct version address).block id) Endpoint.block
    (Names "block_id" id) (.ok (found.map Held.block)) := by
  refine direct_lookupData address (BlockView.block.route version) id.display_isSegment id.ofText_display
    s.block_reads hfound String.append_empty.symm (fun _ => SignedBeaconBlock.envelope_readsBack _)
    fun held => ?_
  rw [held.load_entry]
  rfl

theorem direct_blockWithVersion : s.Agrees ((direct version address).blockWithVersion id)
    Endpoint.blockWithVersion (Names "block_id" id) (.ok (found.map fun held => held.block.versioned)) := by
  refine direct_lookup address (BlockView.versioned.route version) id.display_isSegment id.ofText_display
    s.blockWithVersion_reads hfound String.append_empty.symm fun held => ?_
  rw [held.load_entry]
  exact ⟨_, rfl, rfl, rfl, VersionedSignedBeaconBlock.readsBack _⟩

theorem direct_blockAttestations : s.Agrees ((direct version address).blockAttestations id)
    Endpoint.blockAttestations (Names "block_id" id)
    (.ok (found.map fun held => held.block.attestations)) := by
  refine direct_lookupData address (BlockView.attestations.route version) id.display_isSegment
    id.ofText_display s.blockAttestations_reads hfound rfl
    (fun _ => .of_envelope (by decide) (by decide) _) fun held => ?_
  rw [held.load_entry]
  rfl

theorem direct_blockHeader : s.Agrees ((direct version address).blockHeader id) Endpoint.blockHeader
    (Names "block_id" id) (.ok (found.map Held.header)) := by
  refine direct_lookupData address (BlockView.header.route version) id.display_isSegment id.ofText_display
    s.blockHeader_reads hfound String.append_empty.symm
    (fun _ => .of_envelope (by decide) (by decide) _) fun held => ?_
  rw [held.header_entry]
  rfl

end Blocks

section States

variable (s) (id : StateId)

theorem direct_stateRoot : s.Agrees ((direct version address).stateRoot id) Endpoint.stateRoot
    (Names "state_id" id) (.ok ((s.stateAt? id).map ChainEntry.stateRoot)) := by
  have hdata := direct_lookupData address (StateView.root.route version) id.display_isSegment
    id.ofText_display s.stateRoot_reads Option.map_id'.symm rfl
    (fun _ => .of_envelope (by decide) (by decide) _) fun _ => rfl
  have hroot := hdata.map (Option.map RootResponse.root)
  rwa [Except.map, Option.map_map] at hroot

theorem direct_finalityCheckpoints : s.Agrees ((direct version address).finalityCheckpoints id)
    Endpoint.finalityCheckpoints (Names "state_id" id) (.ok ((s.stateAt? id).map fun _ => s.finality)) :=
  direct_lookupData address (StateView.finality.route version) id.display_isSegment id.ofText_display
    s.finalityCheckpoints_reads Option.map_id'.symm rfl
    (fun _ => .of_envelope (by decide) (by decide) _) fun _ => rfl

end States

section Plain

variable {α : Type} [Payload α] {path : String} {endpoint : Endpoint (StateM Memory)}
  (hroute : PlainRoute version .get path endpoint) {x : α} (hview : Body.ReadsBack (Envelope.mk x))
include hroute hview

/-- A client that asks without parameters is given what the handler always answers. -/
theorem direct_always (hreads : ∀ r, Reads (endpoint backend r) s (.ok (.okData x))) :
    s.Agrees ((direct version address).lookupData (.get path)) endpoint (fun _ => True) (.ok (some x)) ∧
      s.Agrees ((direct version address).fetchData (.get path)) endpoint (fun _ => True) (.ok x) := by
  have hrequest := hroute.get_run address (rfl : Query.encode .empty = .ok "") fun r _ => hreads r
  have hlookup := Agrees.lookup_ok hrequest (fun r (_ : True) => hreads r) (ok_carries hview)
  have hfetch := Agrees.fetch_ok hrequest (fun r (_ : True) => hreads r) (ok_carries hview)
  exact ⟨hlookup.map (Option.map Envelope.data), hfetch.map Envelope.data⟩

/-- A client that asks with a query is given what the handler answers to its parameters. -/
theorem direct_fetchQuery {query : Query} {carries : IncomingRequest → Prop} (hflat : query.Flat)
    (hcarries : ∀ text r, query.encode = .ok text → r.queryValues = .group (Form.decode text) → carries r)
    (hreads : ∀ r, carries r → Reads (endpoint backend r) s (.ok (.okData x))) :
    s.Agrees ((direct version address).fetchData { Request.get path with query }) endpoint carries (.ok x) := by
  obtain ⟨text, htext⟩ := hflat.exists_encode
  have hrequest := hroute.get_run address htext fun r hr => hreads r (hcarries text r htext hr)
  exact (Agrees.fetch_ok hrequest hreads (ok_carries hview)).map Envelope.data

end Plain

section Status

variable (s) (version)

theorem direct_genesis : s.Agrees (direct version address).genesis Endpoint.genesis (fun _ => True)
    (.ok (some s.genesis)) :=
  (direct_always address ⟨by simp [routes], rfl, by decide⟩ (.of_envelope (by decide) (by decide) _)
    s.genesis_reads).1

theorem direct_version : s.Agrees (direct version address).version (Endpoint.version version)
    (fun _ => True) (.ok version) :=
  (direct_always address ⟨by simp [routes], rfl, by decide⟩ (.of_envelope (by decide) (by decide) _)
    (s.version_reads · version)).2.map NodeVersionResponse.version

theorem direct_syncing : s.Agrees (direct version address).syncing Endpoint.syncing (fun _ => True)
    (.ok s.syncStatus) :=
  (direct_always address ⟨by simp [routes], rfl, by decide⟩ (.of_envelope (by decide) (by decide) _)
    s.syncing_reads).2

theorem direct_poolVoluntaryExits : s.Agrees (direct version address).poolVoluntaryExits
    Endpoint.poolVoluntaryExits (fun _ => True) (.ok s.voluntaryExits) :=
  (direct_always address ⟨by simp [routes], rfl, by decide⟩ (.of_envelope (by decide) (by decide) _)
    s.poolVoluntaryExits_reads).2

end Status

variable (s)

theorem blockHeaders_route (version : String) :
    PlainRoute version .get "/eth/v1/beacon/headers" Endpoint.blockHeaders :=
  ⟨by simp [routes], rfl, by decide⟩

section Headers

variable {slot : Option Slot} {parentRoot : Option Root} {found : List s.Held}
  (hfound : s.search parentRoot slot = found.map Held.entry)
include hfound

/-- What the handler settles on for a request that asks for headers. -/
theorem blockHeaders_reads_of_asks {r : IncomingRequest}
    (hr : Asks "slot" slot r ∧ Asks "parent_root" parentRoot r) :
    Reads (Endpoint.blockHeaders backend r) s (.ok (.okData (found.map Held.header))) := by
  have hreads := s.blockHeaders_reads r
  have hslot : queryParam r "slot" = .ok slot := hr.1
  have hparent : queryParam r "parent_root" = .ok parentRoot := hr.2
  rw [hslot, hparent] at hreads
  change Reads _ s ((s.search parentRoot slot).mapM s.header >>= fun infos =>
    .ok (PreparedResponse.okData infos)) at hreads
  rw [hfound, Held.mapM_header] at hreads
  exact hreads

theorem direct_blockHeaders :
    s.Agrees ((direct version address).blockHeaders slot parentRoot) Endpoint.blockHeaders
      (fun r => Asks "slot" slot r ∧ Asks "parent_root" parentRoot r) (.ok (found.map Held.header)) := by
  have hview : Body.ReadsBack (Envelope.mk (found.map Held.header)) :=
    .of_envelope (by decide) (by decide) _
  refine direct_fetchQuery address (blockHeaders_route version) hview
    ((Query.flat_empty.insertSome ..).insertSome ..) ?_ fun r => blockHeaders_reads_of_asks s hfound
  exact fun text r hquery hr =>
    asks_of_two Quantity.ofText_display Bytes.ofText_display (by decide) hquery hr

end Headers

theorem direct_poolAttestations (slot : Option Slot) (index : Option CommitteeIndex) :
    s.Agrees ((direct version address).poolAttestations slot index) Endpoint.poolAttestations
      (fun r => Asks "slot" slot r ∧ Asks "committee_index" index r)
      (.ok (s.attestationsOf slot index)) := by
  have hroute : PlainRoute version .get "/eth/v1/beacon/pool/attestations" Endpoint.poolAttestations :=
    ⟨by simp [routes], rfl, by decide⟩
  have hview : Body.ReadsBack (Envelope.mk (s.attestationsOf slot index)) :=
    .of_envelope (by decide) (by decide) _
  refine direct_fetchQuery address hroute hview ((Query.flat_empty.insertSome ..).insertSome ..) ?_ ?_
  · exact fun text r hquery hr =>
      asks_of_two Quantity.ofText_display Quantity.ofText_display (by decide) hquery hr
  · rintro r ⟨hslot, hindex⟩
    have hreads := s.poolAttestations_reads r
    have hslot : queryParam r "slot" = .ok slot := hslot
    have hindex : queryParam r "committee_index" = .ok index := hindex
    rw [hslot, hindex] at hreads
    exact hreads

/-- What the handler settles on for a request that asks for a block to sign. -/
theorem produceBlock_reads_of_carries {r : IncomingRequest} {slot : Slot} {randaoReveal : BlsSignature}
    {graffiti : Option Root} (hr : Names "slot" slot r ∧ Asks "randao_reveal" (some randaoReveal) r ∧
      Asks "graffiti" graffiti r) :
    Reads (Endpoint.produceBlock backend r) s (s.synced >>= fun _ =>
      Memory.reply .okData (s.produceBlock slot randaoReveal (graffiti.getD .zero))) := by
  have hreads := s.produceBlock_reads r
  have hslot : pathParam r "slot" = .ok slot := hr.1
  have hreveal : queryParam r "randao_reveal" = .ok (some randaoReveal) := hr.2.1
  have hgraffiti : queryParam r "graffiti" = .ok graffiti := hr.2.2
  rw [hslot, hreveal, hgraffiti] at hreads
  exact hreads

theorem direct_produceBlock (slot : Slot) (randaoReveal : BlsSignature) (graffiti : Option Root)
    (hinvalid : ∀ e, s.produceBlock slot randaoReveal (graffiti.getD .zero) = .error e →
      ∃ reason, e = .invalid reason) :
    s.Agrees ((direct version address).produceBlock slot randaoReveal graffiti) Endpoint.produceBlock
      (fun r => Names "slot" slot r ∧ Asks "randao_reveal" (some randaoReveal) r ∧
        Asks "graffiti" graffiti r)
      (s.told (s.produceBlock slot randaoReveal (graffiti.getD .zero))) := by
  have hroute : ReadRoute version "/eth/v1/validator/blocks/:slot" "/eth/v1/validator/blocks/" "slot" ""
      Endpoint.produceBlock :=
    ⟨by simp [routes], rfl, by decide, by decide⟩
  have hflat : Query.Flat ((SortedMap.empty.insert "randao_reveal" (.text randaoReveal.display)).insertSome
      "graffiti" (graffiti.map fun g => .text g.display)) :=
    (Query.flat_empty.insert ..).insertSome ..
  obtain ⟨text, htext⟩ := hflat.exists_encode
  have hquery' : Query.encode ((SortedMap.empty.insertSome "randao_reveal"
      ((some randaoReveal).map fun reveal => .text reveal.display)).insertSome "graffiti"
        (graffiti.map fun g => .text g.display)) = .ok text := htext
  have hrequest := hroute.get_run address slot.display_isSegment htext fun r hparam hquery =>
    produceBlock_reads_of_carries s ⟨names_of_param hparam slot.ofText_display,
      asks_of_two Bytes.ofText_display Bytes.ofText_display (by decide) hquery' hquery⟩
  rw [String.append_empty] at hrequest
  have hfetch := Agrees.fetch_told hrequest (fun _ => produceBlock_reads_of_carries s) hinvalid fun block =>
    ok_carries (.of_envelope (by decide) (by decide) (Envelope.mk block))
  have hdata := hfetch.map Envelope.data
  rwa [map_data_map_mk] at hdata

theorem direct_proposerDuties (epoch : Epoch)
    (hinvalid : ∀ e, s.proposerDuties epoch = .error e → ∃ reason, e = .invalid reason) :
    s.Agrees ((direct version address).proposerDuties epoch) Endpoint.proposerDuties (Names "epoch" epoch)
      (s.told (s.proposerDuties epoch)) := by
  have hroute : ReadRoute version "/eth/v1/validator/duties/proposer/:epoch"
      "/eth/v1/validator/duties/proposer/" "epoch" "" Endpoint.proposerDuties :=
    ⟨by simp [routes], rfl, by decide, by decide⟩
  have hreads (r : IncomingRequest) (hr : Names "epoch" epoch r) :
      Reads (Endpoint.proposerDuties backend r) s
        (s.synced >>= fun _ => Memory.reply .ok (s.proposerDuties epoch)) := by
    have hreads := s.proposerDuties_reads r
    have hepoch : pathParam r "epoch" = .ok epoch := hr
    rw [hepoch] at hreads
    exact hreads
  have hrequest := hroute.get_run address epoch.display_isSegment (rfl : Query.encode .empty = .ok "")
    fun r hparam _ => hreads r (names_of_param hparam epoch.ofText_display)
  rw [String.append_empty] at hrequest
  have hfetch : s.Agrees ((direct version address).proposerDuties epoch) Endpoint.proposerDuties
      (Names "epoch" epoch) ((s.told (s.proposerDuties epoch)).map id) :=
    .fetch_told hrequest hreads hinvalid fun duties =>
      ok_carries (.of_regular (by decide) (by decide) duties)
  rwa [Except.map_id] at hfetch

end Node

end BeaconApi
