import BeaconApi.Proofs.Client.Refusals
import BeaconApi.Proofs.Json.Extent
import BeaconApi.Proofs.Memory.Import
import BeaconApi.Proofs.Node.Alike
import BeaconApi.Proofs.Node.Posting
import BeaconApi.Proofs.Node.Submission

namespace BeaconApi.Memory

open PreparedResponse

/-- What is told about a block that was submitted, given whether the node is syncing and what came of
adding the block to the chain. -/
def submissionOutcome : Bool → Except BackendError Unit → Except PreparedResponse PreparedResponse
  | true, _ => .error (.syncing "beacon is syncing, added it to the chain, but cannot publish block")
  | false, .ok () => .ok (.okMessage "processed and published block")
  | false, .error (.invalid reason) =>
    .ok (.accepted ("block was broadcast but failed validation: " ++ reason))
  | false, .error e => .error (.internalError ("failed to process block: " ++ e.message))

theorem storeBlock_publish (s : Memory) (item : Gossip) (b : SignedBeaconBlock) :
    ((s.publish item).2.storeBlock b).1 = (s.storeBlock b).1 := by
  rw [publish_snd]
  rfl

/-- The handler passes a block on, keeps it and adds it, whatever comes of each. -/
theorem publishBlock_run {r : IncomingRequest} {bytes : ByteArray} {b : SignedBeaconBlock}
    (hr : r.body = some bytes) (h : Body.decodeContents bytes = .ok b) (s : Memory) :
    (Endpoint.publishBlock backend r).run.run s =
      (submissionOutcome s.syncing ((s.keepBlock b).addBlock (s.storeBlock b).1 b).1, s.submitBlock b) := by
  refine (run_readBody_bind hr h).trans ?_
  have hpublish : (s.step (.publish (.block b))).1 = .ok s.syncing := by
    rw [step_publish, publish_fst]
  have hstore : (s.step (.publish (.block b))).2.step (.storeBlock b) =
      (.ok (s.storeBlock b).1, s.keepBlock b) := by
    rw [← storeBlock_publish s (.block b) b]
    rfl
  have hadd : ((s.keepBlock b).step (.addBlock (s.storeBlock b).1 b)) =
      (((s.keepBlock b).addBlock (s.storeBlock b).1 b).1, s.submitBlock b) := rfl
  rw [run_ask_bind, run_ask_bind, hstore, hpublish]
  dsimp only
  rw [run_ask_bind, hadd]
  generalize ((s.keepBlock b).addBlock (s.storeBlock b).1 b).1 = imported
  cases s.syncing with
  | true => rfl
  | false =>
    cases imported with
    | ok => rfl
    | error e => cases e <;> rfl

section Code

variable {syncing : Bool} {admits : Prop} [Decidable admits]

theorem admits_of_code_eq_ok
    (h : (if syncing then 503 else if admits then 200 else 202 : UInt16) = 200) : admits := by
  split at h
  · cases h
  · split at h
    next hadmits => exact hadmits
    · cases h

theorem syncing_of_code_eq_unavailable
    (h : (if syncing then 503 else if admits then 200 else 202 : UInt16) = 503) : syncing = true := by
  split at h
  next hsyncing => exact hsyncing
  · split at h <;> cases h

end Code

section Stocked

variable {c : Chronicle} (h : c.Stocked) (b : SignedBeaconBlock)
include h

/-- The code tells whether the node is syncing, and otherwise whether the block was added. -/
theorem submissionOutcome_code :
    (settled (submissionOutcome c.memory.syncing
      ((c.memory.keepBlock b).addBlock (c.memory.storeBlock b).1 b).1)).code =
        if c.memory.syncing then 503 else if c.memory.Admits b then 200 else 202 := by
  cases c.memory.syncing with
  | true => rfl
  | false =>
    by_cases hadmits : c.memory.Admits b
    · rw [addBlock_keepBlock_of_admits (h.fresh_root b) h.filed hadmits, if_pos hadmits]
      rfl
    · obtain ⟨reason, hadd⟩ := addBlock_keepBlock_of_not_admits (h.fresh_root b) hadmits
      rw [hadd, if_neg hadmits]
      rfl

/-- What is sent for a block whose text is not too large. -/
theorem answer_block (version : String) {request : Http.Request}
    (hposts : request.Posts "/eth/v1/beacon/blocks") (hbody : Body.decodeContents request.body = .ok b)
    (hsize : request.body.size ≤ Router.maxBodySize) :
    ∃ response, (Node.answer backend version request).run c.memory = (response, c.memory.submitBlock b) ∧
      response.status = (if c.memory.syncing then 503 else if c.memory.Admits b then 200 else 202) ∧
      (c.memory.syncing = true → response.Explains (.plain
        (.plain 503 "beacon is syncing, added it to the chain, but cannot publish block"))) := by
  refine ⟨_, (publishBlock_route version).post_run hposts hsize fun r hr => publishBlock_run hr hbody _,
    ?_, fun hsyncing => ?_⟩
  · have hcode := submissionOutcome_code h b
    have hrange : ∀ code ∈ [200, 202, 503], Http.isStatus code := by simp [Http.isStatus]
    rw [write_status_of_isStatus, hcode]
    rw [hcode]
    split
    · exact hrange _ (by simp)
    · split <;> exact hrange _ (by simp)
  · rw [hsyncing]
    exact (write_error 503 _ (by decide)).2

/-- A block that is not admitted is kept under a root that stands in no entry, so no reader sees it. -/
theorem submitBlock_looksLike (hlinked : c.memory.Linked) (hadmits : ¬ c.memory.Admits b) :
    (c.memory.submitBlock b).LooksLike c.memory := by
  have hfresh := h.fresh_root b
  have hleads : ¬ c.memory.Leads b := fun hleads => hadmits hleads.1
  refine ⟨?_, fun hentry => ?_⟩
  · rw [submitBlock_eq hfresh h.filed, if_neg hadmits, if_neg hleads, if_neg hleads]
    exact ⟨_, _, _, _, rfl⟩
  · have hknown := hlinked.known hentry
    rw [(submitBlock_records hfresh h.filed).blocks, if_neg]
    rintro heq
    rw [Known, heq, hfresh.2] at hknown
    cases hknown

/-- The head and the canonical line change only for a block that is admitted behind the head. -/
theorem submitBlock_moves_iff (hlinked : c.memory.Linked) :
    ((c.memory.submitBlock b).head ≠ c.memory.head ↔ c.memory.Leads b) ∧
      ((c.memory.submitBlock b).canonical ≠ c.memory.canonical ↔ c.memory.Leads b) := by
  have hfresh := h.fresh_root b
  have hrecords := submitBlock_records hfresh h.filed
  by_cases hleads : c.memory.Leads b
  · have hhead : (c.memory.submitBlock b).head = (c.memory.storeBlock b).1 := by
      rw [hrecords.head, if_pos hleads]
    have hslot : (c.memory.submitBlock b).canonical.get? b.slot = some (c.memory.storeBlock b).1 := by
      rw [hrecords.canonical, if_pos ⟨rfl, hleads⟩]
    -- The new root has no entry yet, and whatever is the head or canonical has one.
    refine ⟨iff_of_true (fun heq => ?_) hleads, iff_of_true (fun heq => ?_) hleads⟩
    · obtain ⟨entry, hentry⟩ := hlinked.head
      rw [← heq, hhead, hfresh.2] at hentry
      cases hentry
    · rw [heq] at hslot
      obtain ⟨_, entry, hentry, _⟩ := hlinked.canonical.mp hslot
      rw [hfresh.2] at hentry
      cases hentry
  · have hsame := submitBlock_eq hfresh h.filed
    rw [if_neg hleads, if_neg hleads] at hsame
    rw [hsame]
    exact ⟨iff_of_false (fun hne => hne rfl) hleads, iff_of_false (fun hne => hne rfl) hleads⟩

end Stocked

/-- Whoever looks up an entry finds the same in a node that looks alike. -/
theorem LooksLike.lookups {s s' : Memory} (h : s'.LooksLike s) :
    (∀ id, ((backend.lookupBlock id).run s').1 = ((backend.lookupBlock id).run s).1) ∧
      (∀ id, ((backend.lookupState id).run s').1 = ((backend.lookupState id).run s).1) ∧
      ∀ parentRoot slot, s'.search parentRoot slot = s.search parentRoot slot := by
  obtain ⟨_, _, _, _, rfl⟩ := h.same
  refine ⟨fun id => ?_, fun id => ?_, fun _ _ => rfl⟩
  · cases id <;> rfl
  · cases id <;> rfl

namespace Chronicle

/-- A request that posts a block, with spaces before its text. -/
def blockRequest (spaces : Nat) (b : SignedBeaconBlock) : Http.Request :=
  ⟨"POST", "/eth/v1/beacon/blocks", Body.padded spaces (Payload.encode b).toUTF8⟩

theorem blockRequest_posts (spaces : Nat) (b : SignedBeaconBlock) :
    (blockRequest spaces b).Posts "/eth/v1/beacon/blocks" :=
  (publishBlock_route "").isPath.posts _

theorem decodeContents_blockRequest (spaces : Nat) (b : SignedBeaconBlock) :
    Body.decodeContents (blockRequest spaces b).body = .ok b :=
  (Body.decodeContents_padded spaces _).trans b.readsBack.decodeContents

theorem size_blockRequest_le (spaces : Nat) (b : SignedBeaconBlock) :
    (blockRequest spaces b).body.size ≤ spaces + (Payload.toJson b).extent := by
  have hextent := (Payload.toJson b).size_render_le
  have hsize := Body.size_padded spaces (Payload.encode b).toUTF8
  exact hsize ▸ Nat.add_le_add_left hextent spaces

/-- A block behind the second block of the forked node, which is its head. -/
def forkedChild : SignedBeaconBlock := sampleBlock ⟨7⟩ (derivedRoot 1 ⟨2⟩ .block)

/-- A block that is posted at a `Reachable` chronicle is recorded as `Records` says, and `head` and `canonical`
move exactly if it `Leads`. One that `Admits` excludes stays out of every lookup, search and answer to a request
other than a post. `hroom` makes the root that `storeBlock` gives new. `hbody` concerns the contents only:
`Router.receive` turns a body above `Router.maxBodySize` away before they are read. -/
theorem block_submission_recorded {genesisTime : Timestamp} {c : Chronicle} (h : Reachable genesisTime c)
    (hroom : c.stored.length < capacity) (version : String) {request : Http.Request}
    (hposts : request.Posts "/eth/v1/beacon/blocks") {b : SignedBeaconBlock}
    (hbody : Body.decodeContents request.body = .ok b) :
    (request.body.size ≤ Router.maxBodySize → ∃ root response s',
      (Node.answer backend version request).run c.memory = (response, s') ∧
      c.memory.Records b root s' ∧
      response.status = (if c.memory.syncing then 503 else if c.memory.Admits b then 200 else 202) ∧
      (s'.head ≠ c.memory.head ↔ c.memory.Leads b) ∧
      (s'.canonical ≠ c.memory.canonical ↔ c.memory.Leads b) ∧
      (¬ c.memory.Admits b →
        (∀ id, ((backend.lookupBlock id).run s').1 = ((backend.lookupBlock id).run c.memory).1) ∧
        (∀ id, ((backend.lookupState id).run s').1 = ((backend.lookupState id).run c.memory).1) ∧
        (∀ parentRoot slot, s'.search parentRoot slot = c.memory.search parentRoot slot) ∧
        ∀ other : Http.Request, other.method ≠ "POST" →
          ((Node.answer backend version other).run s').1 =
            ((Node.answer backend version other).run c.memory).1)) ∧
    (Router.maxBodySize < request.body.size →
      ∃ response, (Node.answer backend version request).run c.memory = (response, c.memory) ∧
        response.status = 413) := by
  have hstocked := h.stocked hroom
  have hlinked := h.linked
  refine ⟨fun hsize => ?_, fun hsize => (publishBlock_route version).post_oversized hposts hsize _⟩
  obtain ⟨response, hrun, hstatus, _⟩ := answer_block hstocked b version hposts hbody hsize
  obtain ⟨hhead, hcanonical⟩ := submitBlock_moves_iff hstocked b hlinked
  refine ⟨_, response, _, hrun, submitBlock_records (hstocked.fresh_root b) hstocked.filed, hstatus, hhead, hcanonical,
    fun hadmits => ?_⟩
  have hlooks := submitBlock_looksLike hstocked b hlinked hadmits
  obtain ⟨hblocks, hstates, hsearch⟩ := hlooks.lookups
  refine ⟨hblocks, hstates, hsearch, fun other hmethod => ?_⟩
  obtain ⟨same, hbefore, hafter⟩ := answer_alike hlooks hlinked version hmethod
  rw [hbefore, hafter]

/-- The forked node adds a block behind its head, which becomes the head. -/
theorem forked_takes_block :
    ∃ root response s', (Node.answer backend "" (blockRequest 0 forkedChild)).run forked.memory = (response, s') ∧
      response.status = 200 ∧ s'.head = root ∧ s'.entry? root = some (entryOf root forkedChild) := by
  obtain ⟨htaken, _⟩ := block_submission_recorded reachable_forked (by decide +kernel) ""
    (blockRequest_posts 0 forkedChild) (decodeContents_blockRequest 0 forkedChild)
  obtain ⟨root, response, s', hrun, hrecords, hstatus, _⟩ :=
    htaken ((size_blockRequest_le 0 forkedChild).trans (by decide +kernel))
  have hleads : forked.memory.Leads forkedChild := by decide +kernel
  refine ⟨root, response, s', hrun, ?_, ?_, ?_⟩
  · rw [hstatus, if_pos hleads.1]
    rfl
  · rw [hrecords.head, if_pos hleads]
  · rw [hrecords.entries, if_pos ⟨rfl, hleads.1⟩]

/-- A block that the forked node could add is not even kept if enough spaces stand before it. -/
theorem forked_refuses_padded_block :
    Body.decodeContents (blockRequest Router.maxBodySize forkedChild).body = .ok forkedChild ∧
      forked.memory.Leads forkedChild ∧
      ∃ response, (Node.answer backend "" (blockRequest Router.maxBodySize forkedChild)).run forked.memory =
          (response, forked.memory) ∧
        response.status = 413 := by
  have hnonempty := Body.size_pos_of_nonblank forkedChild.readsBack.nonblank
  have hsize : Router.maxBodySize < (blockRequest Router.maxBodySize forkedChild).body.size := by
    have hpadded := Body.size_padded Router.maxBodySize (Payload.encode forkedChild).toUTF8
    exact hpadded ▸ Nat.lt_add_of_pos_right hnonempty
  exact ⟨decodeContents_blockRequest _ _, by decide +kernel,
    (publishBlock_route "").post_oversized (blockRequest_posts _ _) hsize _⟩

/-- A new node that is syncing. -/
def syncingStart : Chronicle := (initial ⟨0⟩).after (.setSyncing true)

/-- A block whose parent nobody knows. -/
def orphan : SignedBeaconBlock := sampleBlock ⟨1⟩ .zero

/-- A status of 200 for a posted block comes with a new entry for it. A status of 503 says `added it to the
chain`, but there is a new entry only if `Admits` holds: `Endpoint.publishBlock` answers for the syncing before
it looks at the outcome of `addBlock`. `hroom` makes the root new, since `addBlock` would find an entry at a
used one. -/
theorem block_report_honest_unless_syncing {genesisTime : Timestamp} {c : Chronicle}
    (h : Reachable genesisTime c) (hroom : c.stored.length < capacity) (version : String)
    {request : Http.Request} (hposts : request.Posts "/eth/v1/beacon/blocks") :
    ∃ response s', (Node.answer backend version request).run c.memory = (response, s') ∧
      (response.status = 200 → ∃ b root, Body.decodeContents request.body = .ok b ∧
        c.memory.entry? root = none ∧ s'.entry? root = some (entryOf root b)) ∧
      (response.status = 503 → ∃ b, Body.decodeContents request.body = .ok b ∧
        response.Explains (.plain
          (.plain 503 "beacon is syncing, added it to the chain, but cannot publish block")) ∧
        ((∃ root, c.memory.entry? root = none ∧ s'.entry? root = some (entryOf root b)) ↔
          c.memory.Admits b)) := by
  have hstocked := h.stocked hroom
  rcases (publishBlock_route version).post_cases hposts (fun _ => rfl) c.memory with hrefused | hread
  · obtain ⟨response, hrun, hstatus⟩ := hrefused
    have hother : ∀ code ∈ [400, 413], code ≠ 200 ∧ code ≠ (503 : UInt16) := by simp
    obtain ⟨hok, hsyncing⟩ := hother _ hstatus
    exact ⟨response, _, hrun, fun h => absurd h hok, fun h => absurd h hsyncing⟩
  · obtain ⟨hsize, b, hbody⟩ := hread
    obtain ⟨response, hrun, hstatus, hexplains⟩ := answer_block hstocked b version hposts hbody hsize
    have hfresh := hstocked.fresh_root b
    have hrecords := submitBlock_records hfresh hstocked.filed
    refine ⟨response, _, hrun, fun hok => ?_, fun hsyncing => ?_⟩
    · have hadmits := admits_of_code_eq_ok (hstatus.symm.trans hok)
      exact ⟨b, _, hbody, hfresh.2, by rw [hrecords.entries, if_pos ⟨rfl, hadmits⟩]⟩
    · have hsync := syncing_of_code_eq_unavailable (hstatus.symm.trans hsyncing)
      refine ⟨b, hbody, hexplains hsync, ?_, fun hadmits => ⟨_, hfresh.2, ?_⟩⟩
      · rintro ⟨root, hunknown, hentry⟩
        by_contra hadmits
        rw [hrecords.entries, if_neg fun hnew => hadmits hnew.2, hunknown] at hentry
        cases hentry
      · rw [hrecords.entries, if_pos ⟨rfl, hadmits⟩]

/-- The forked node reports a block as added and has an entry for it, which it did not have. -/
theorem forked_report_honest :
    ∃ response s' b root, (Node.answer backend "" (blockRequest 0 forkedChild)).run forked.memory =
        (response, s') ∧
      response.status = 200 ∧ Body.decodeContents (blockRequest 0 forkedChild).body = .ok b ∧
      forked.memory.entry? root = none ∧ s'.entry? root = some (entryOf root b) := by
  have hroom : forked.stored.length < capacity := by decide +kernel
  have hposts := blockRequest_posts 0 forkedChild
  obtain ⟨response, s', hrun, hhonest, _⟩ :=
    block_report_honest_unless_syncing reachable_forked hroom "" hposts
  have hsize : (blockRequest 0 forkedChild).body.size ≤ Router.maxBodySize :=
    (size_blockRequest_le 0 forkedChild).trans (by decide +kernel)
  obtain ⟨other, hother, hstatus, _⟩ := answer_block (reachable_forked.stocked hroom) forkedChild ""
    hposts (decodeContents_blockRequest 0 forkedChild) hsize
  obtain ⟨rfl, _⟩ := Prod.mk.inj (hrun.symm.trans hother)
  have hadmits : forked.memory.Admits forkedChild := by decide +kernel
  have hok : response.status = 200 := by
    rw [hstatus, if_pos hadmits]
    rfl
  obtain ⟨b, root, hbody, hunknown, hentry⟩ := hhonest hok
  exact ⟨response, s', b, root, hrun, hok, hbody, hunknown, hentry⟩

/-- A new node that is syncing says that it has added a block without a parent, and has not. -/
theorem syncing_node_claims_orphan :
    Reachable ⟨0⟩ syncingStart ∧
      ∃ response s', (Node.answer backend "" (blockRequest 0 orphan)).run syncingStart.memory =
          (response, s') ∧
        response.status = 503 ∧ response.Explains (.plain
          (.plain 503 "beacon is syncing, added it to the chain, but cannot publish block")) ∧
        ∀ root, s'.entry? root = syncingStart.memory.entry? root := by
  have hreachable : Reachable ⟨0⟩ syncingStart := .tail .refl ⟨.setSyncing true, trivial, rfl⟩
  have hstocked := hreachable.stocked (by decide +kernel)
  have hsize : (blockRequest 0 orphan).body.size ≤ Router.maxBodySize :=
    (size_blockRequest_le 0 orphan).trans (by decide +kernel)
  obtain ⟨response, hrun, hstatus, hexplains⟩ := answer_block hstocked orphan "" (blockRequest_posts 0 orphan)
    (decodeContents_blockRequest 0 orphan) hsize
  have hadmits : ¬ syncingStart.memory.Admits orphan := by decide +kernel
  refine ⟨hreachable, response, _, hrun, hstatus, hexplains rfl, fun root => ?_⟩
  rw [(submitBlock_records (hstocked.fresh_root orphan) hstocked.filed).entries, if_neg fun hnew => hadmits hnew.2]

end Chronicle

end BeaconApi.Memory
