import BeaconApi.Proofs.Client.Direct

namespace BeaconApi

open PreparedResponse (writeHeaders)

namespace SignedBeaconBlock

variable (block : SignedBeaconBlock)

/-- The form that names the fork has the other form beside the name. -/
theorem toJson_versioned : Payload.toJson block.versioned =
    .object [("version", .string block.fork.display), ("data", Payload.toJson block)] := by
  cases block <;> rfl

/-- The response with a block and the name of its fork. -/
def versionedResponse : PreparedResponse :=
  (PreparedResponse.ok block.versioned).withHeader "Eth-Consensus-Version" block.versioned.version.display

theorem versionedResponse_write : block.versionedResponse.write.1 =
    ⟨200, (writeHeaders (.insert .empty "Eth-Consensus-Version" block.fork.display)).1.insert "content-type"
      Body.contentType, (Payload.encode block.versioned).toUTF8⟩ := by
  rw [← version_versioned]
  rfl

/-- The name of a fork is sent under the name of the header. -/
theorem writeHeaders_consensusVersion (fork : ForkName) :
    (writeHeaders (.insert .empty "Eth-Consensus-Version" fork.display)).1.get? "eth-consensus-version" =
      some fork.display := by
  cases fork <;> decide +kernel

theorem versionedResponse_header :
    block.versionedResponse.write.1.headers.get? "eth-consensus-version" = some block.fork.display := by
  rw [versionedResponse_write, SortedMap.get?_insert, if_neg (by decide), writeHeaders_consensusVersion]

end SignedBeaconBlock

namespace Memory

open Node (ReadRoute)

/-- A node that holds a block answers a read of it with the name of its fork. -/
theorem answer_versioned {s : Memory} {held : s.Held} {id : BlockId} (version : String)
    (hheld : s.blockAt? id = some held.entry) :
    (Node.answer backend version ⟨"GET", "/eth/v2/beacon/blocks/" ++ id.display, .empty⟩).run s =
      (held.block.versionedResponse.write.1, s) := by
  have hroute : ReadRoute version "/eth/v2/beacon/blocks/:block_id" "/eth/v2/beacon/blocks/" "block_id"
      "" Endpoint.blockWithVersion := BlockView.versioned.route version
  have hpath := hroute.isPath_segment id.display_isSegment
  have htarget := Http.Target.ofString_path hpath
  have hanswer := hroute.answer_run id.display_isSegment htarget fun r hparam _ => by
    have hreads := s.blockWithVersion_reads r
    have hnames : pathParam r "block_id" = .ok id := names_of_param hparam id.ofText_display
    rw [blockOf, hnames, named_of_some hheld] at hreads
    change Reads _ s (s.load held.entry >>= fun block => .ok block.versionedResponse) at hreads
    rw [held.load_entry] at hreads
    exact hreads
  rw [String.append_empty] at hanswer
  exact hanswer

end Memory

namespace Memory.Chronicle

/-- Both wire forms of a block keep its fork, and the conversions between them are inverse to each other. At a
`Reachable` chronicle `blockWithVersion` and `block` of a client find the same block, and the answer that names
a fork names the same one in its body and in `eth-consensus-version`. Reachability puts a block behind every
entry, so the lookup alone decides whether one is found. -/
theorem fork_kept_in_both_forms {genesisTime : Timestamp} {c : Chronicle} (h : Reachable genesisTime c)
    (version address : String) :
    (∀ block : SignedBeaconBlock, Body.ReadsBack block ∧ Body.ReadsBack block.versioned ∧
      block.versioned.block = block) ∧
    (∀ block : VersionedSignedBeaconBlock, block.block.versioned = block) ∧
    ∀ id : BlockId, ∃ found : Option VersionedSignedBeaconBlock,
      found.isSome = ((backend.lookupBlock id).run c.memory).1.isSome ∧
      ((Node.direct version address).blockWithVersion id).run c.memory = (.ok found, c.memory) ∧
      ((Node.direct version address).block id).run c.memory =
        (.ok (found.map VersionedSignedBeaconBlock.block), c.memory) ∧
      ∀ block, found = some block → ∃ response : Http.Response,
        (Node.answer backend version ⟨"GET", "/eth/v2/beacon/blocks/" ++ id.display, .empty⟩).run c.memory =
          (response, c.memory) ∧
        response.status = 200 ∧
        response.headers.get? "eth-consensus-version" = some block.block.fork.display ∧
        response.body = (Json.object [("version", .string block.block.fork.display),
          ("data", Payload.toJson block.block)]).render.toUTF8 := by
  refine ⟨fun block => ⟨block.readsBack, block.versioned.readsBack, block.versioned_block⟩,
    VersionedSignedBeaconBlock.block_versioned, fun id => ?_⟩
  obtain ⟨found, hfound⟩ := exists_held_blockAt? h.ready id
  refine ⟨found.map fun held => held.block.versioned, ?_,
    (Node.direct_blockWithVersion address hfound).called, ?_, ?_⟩
  · rw [lookupBlock_run, hfound, Option.isSome_map, Option.isSome_map]
  · rw [Option.map_map]
    simpa [Function.comp_def, SignedBeaconBlock.versioned_block] using
      (Node.direct_block address hfound).called
  · rintro _ hsome
    obtain ⟨held, rfl, rfl⟩ := Option.map_eq_some_iff.mp hsome
    rw [SignedBeaconBlock.versioned_block]
    refine ⟨_, answer_versioned version hfound, ?_, held.block.versionedResponse_header, ?_⟩
    · rw [SignedBeaconBlock.versionedResponse_write]
    · rw [SignedBeaconBlock.versionedResponse_write, ← SignedBeaconBlock.toJson_versioned]
      rfl

/-- The head of the forked node is a block of the first fork, and is sent as such. -/
theorem forked_head_names_fork :
    ∃ block response, ((Node.direct "" "http://localhost").blockWithVersion .head).run forked.memory =
        (.ok (some block), forked.memory) ∧
      (Node.answer backend "" ⟨"GET", "/eth/v2/beacon/blocks/" ++ BlockId.head.display, .empty⟩).run
        forked.memory = (response, forked.memory) ∧
      response.headers.get? "eth-consensus-version" = some block.block.fork.display := by
  obtain ⟨_, _, hreads⟩ := fork_kept_in_both_forms reachable_forked "" "http://localhost"
  obtain ⟨found, hknown, hcalled, _, hanswer⟩ := hreads .head
  have hhead : found.isSome := hknown.trans (by decide +kernel)
  obtain ⟨block, rfl⟩ := Option.isSome_iff_exists.mp hhead
  obtain ⟨response, hresponse, _, hheader, _⟩ := hanswer block rfl
  exact ⟨block, response, hcalled, hresponse, hheader⟩

end Memory.Chronicle

end BeaconApi
