import BeaconApi.Proofs.Memory.Rearranged
import BeaconApi.Proofs.Node.Alike
import BeaconApi.Proofs.Node.Headers

namespace BeaconApi

open Memory (backend Reads settled)

namespace StateView

variable (view : StateView)

/-- The response that shows the states with a root. -/
def shows (s : Memory) (root : Root) : StateView → PreparedResponse
  | .root => .okData (RootResponse.mk root)
  | .finality => .okData s.finality

/-- A request asks for a view of the states with a root, which its path names in one spelling or another. Its
body does not matter unless it is too large. -/
structure Asks (segment : String) (root : Root) (request : Http.Request) : Prop where
  ne_nil : segment.toList ≠ []
  slash : '/' ∉ segment.toList
  names : ∃ text, decodeSegment? segment.toList = some text ∧ StateId.ofString text = .ok (.root root)
  method : request.method = "GET"
  path : (Http.Target.ofString request.target).path = "/eth/v1/beacon/states/" ++ segment ++ view.tail
  size : request.body.size ≤ Router.maxBodySize

/-- A state may be asked for by its root as it is displayed. -/
theorem asks_display (root : Root) :
    view.Asks (StateId.root root).display root
      ⟨"GET", "/eth/v1/beacon/states/" ++ (StateId.root root).display ++ view.tail, .empty⟩ := by
  have hsegment := (StateId.root root).display_isSegment
  refine ⟨hsegment.ne_nil, hsegment.slash, ⟨_, hsegment.decodeSegment?, StateId.ofString_display _⟩, rfl, ?_,
    Nat.zero_le _⟩
  exact congrArg Http.Target.path (Http.Target.ofString_path ((view.route "").isPath_segment hsegment))

/-- A view of the states with a root reads whether there is one. -/
theorem endpoint_reads (s : Memory) {r : IncomingRequest} {root : Root}
    (hr : (pathParam r "state_id" : Except PreparedResponse StateId) = .ok (.root root)) :
    Reads (view.endpoint backend r) s
      (if (s.byStateRoot? root).isSome then .ok (view.shows s root) else .error (.notFound "State not found")) := by
  have hreads : Reads (view.endpoint backend r) s
      (s.stateOf r >>= fun entry => .ok (view.shows s entry.stateRoot)) := by
    cases view with
    | root => exact s.stateRoot_reads r
    | finality => exact s.finalityCheckpoints_reads r
  rw [Memory.stateOf, hr] at hreads
  cases hfound : s.byStateRoot? root with
  | none =>
    rw [Memory.named_of_none (show s.stateAt? (.root root) = none from hfound)] at hreads
    exact hreads
  | some entry =>
    rw [Memory.named_of_some (show s.stateAt? (.root root) = some entry from hfound)] at hreads
    exact Memory.stateRoot_of_byStateRoot? hfound ▸ hreads

/-- What a node answers to such a request. -/
theorem Asks.answer_run {view : StateView} {segment : String} {root : Root} {request : Http.Request}
    (hasks : view.Asks segment root request) (version : String) (s : Memory) :
    (Node.answer backend version request).run s =
      ((if (s.byStateRoot? root).isSome then view.shows s root else .notFound "State not found").write.1, s) := by
  obtain ⟨text, hsegment, htext⟩ := hasks.names
  obtain ⟨r, hreceive, hr⟩ := Router.receive_of_decodeSegment?_eq_some "state_id"
    (Http.Target.ofString request.target).query hsegment hasks.size
  have hid : (pathParam r "state_id" : Except PreparedResponse StateId) = .ok (.root root) :=
    (Memory.pathParam_eq_ok_iff hr).mpr (mapError_eq_ok_iff.mpr htext)
  have hreached := (view.route version).reached hasks.ne_nil hasks.slash (by rw [hasks.method]; rfl) hasks.path
  rw [Node.answer_of_reached hreached (by rw [hasks.method]; decide) (fun _ => rfl) hreceive
    (view.endpoint_reads s hid)]
  split <;> rfl

end StateView

namespace Memory

/-- Nodes that differ in the order of their entries tell the same. -/
theorem Rearranges.tellsAlike {s s' : Memory} (h : s'.Rearranges s) (hlinked : s.Linked) : s'.TellsAlike s := by
  have hload : s'.load = s.load := by
    obtain ⟨_, rfl⟩ := h.same
    rfl
  have hheader : s'.header = s.header := by
    funext entry
    rw [header, header, hload, h.canonicalAt?_eq]
  have hofEntry (view : BlockView) (entry : ChainEntry) : view.ofEntry s' entry = view.ofEntry s entry := by
    cases view with
    | root => rfl
    | block | versioned | attestations => simp only [BlockView.ofEntry, hload]
    | header => simp only [BlockView.ofEntry, hheader]
  have hviews (view : BlockView) (r : IncomingRequest) :
      (s'.blockOf r >>= fun entry => view.ofEntry s' entry) =
        s.blockOf r >>= fun entry => view.ofEntry s entry := by
    rw [blockOf, blockOf, h.blockAt?_eq, funext (hofEntry view)]
  have hheaders (parentRoot : Option Root) (slot : Option Slot) :
      (s'.search parentRoot slot).mapM s'.header = (s.search parentRoot slot).mapM s.header := by
    rw [h.search_eq hlinked, hheader]
  have hstates := h.map_stateAt? hlinked
  have hfinality := h.finality_eq
  have hsyncing := h.syncStatus_eq
  have hproduce := h.produceBlock_eq
  obtain ⟨_, rfl⟩ := h.same
  exact ⟨rfl, hviews, hheaders, hstates, hfinality, rfl, rfl, hsyncing, hproduce, rfl⟩

namespace Chronicle

/-- In every state that `Rearranges` the chain of a `Shuffled` run, `byStateRoot` finds an entry with the root
exactly if one is `Known`. Which entry it finds depends on the order, as several may have one state root, but
the answers to all requests other than posts do not. Posts are left out, since they change the state. -/
theorem state_answers_any_order {genesisTime : Timestamp} {c : Chronicle} (h : Shuffled genesisTime c) :
    (∀ (s : Memory) (root : Root), s.Rearranges c.memory →
      ((∃ entry, (s.step (.byStateRoot root)).1 = some entry) ↔
        ∃ entry, c.memory.Known entry ∧ entry.stateRoot = root) ∧
      ∀ entry, (s.step (.byStateRoot root)).1 = some entry →
        c.memory.Known entry ∧ entry.stateRoot = root) ∧
    (∀ (s : Memory) (version : String) (view : StateView) (segment : String) (root : Root)
      (request : Http.Request), s.Rearranges c.memory → view.Asks segment root request →
      ((∃ entry, c.memory.Known entry ∧ entry.stateRoot = root) →
        (Node.answer backend version request).run s = ((view.shows c.memory root).write.1, s)) ∧
      ((∀ entry, c.memory.Known entry → entry.stateRoot ≠ root) →
        (Node.answer backend version request).run s =
          ((PreparedResponse.notFound "State not found").write.1, s))) ∧
    ∀ (version : String) (request : Http.Request), request.method ≠ "POST" →
      ∃ response, ∀ s : Memory, s.Rearranges c.memory →
        (Node.answer backend version request).run s = (response, s) := by
  obtain ⟨_, hreachable, hmemory, _⟩ := h.exists_reachable
  have hlinked := hmemory.linked hreachable.linked
  refine ⟨fun s root hs => ⟨?_, fun entry hentry => ?_⟩, fun s version view segment root request hs hasks => ?_,
    fun version request hmethod => ?_⟩
  · rw [← hs.byStateRoot?_isSome_iff hlinked, Option.isSome_iff_exists]
    rfl
  · exact ⟨hs.known_of_byStateRoot? hlinked hentry, stateRoot_of_byStateRoot? hentry⟩
  · have hanswer := hasks.answer_run version s
    have hsome : (s.byStateRoot? root).isSome ↔ _ := hs.byStateRoot?_isSome_iff hlinked
    have hshows : view.shows s root = view.shows c.memory root := by
      cases view with
      | root => rfl
      | finality => exact congrArg PreparedResponse.okData hs.finality_eq
    rw [hshows] at hanswer
    refine ⟨fun hknown => ?_, fun hnone => ?_⟩
    · rwa [if_pos (hsome.mpr hknown)] at hanswer
    · rw [if_neg fun hfound => ?_] at hanswer
      · exact hanswer
      · obtain ⟨entry, hknown, hroot⟩ := hsome.mp hfound
        exact hnone entry hknown hroot
  · obtain ⟨response, hrun, _⟩ := ((Rearranges.refl c.memory).tellsAlike hlinked).answer_same version hmethod
    refine ⟨response, fun s hs => ?_⟩
    obtain ⟨response', hrun', hanswer⟩ := (hs.tellsAlike hlinked).answer_same version hmethod
    obtain rfl : response' = response := congrArg Prod.fst (hrun'.symm.trans hrun)
    exact hanswer

/-- The node with two blocks in one slot, with its entries in reverse. -/
def twinsReversed : Memory :=
  { twins.memory with
    entries := ⟨twins.memory.entries.rows.reverse, by
      rw [List.map_reverse]
      exact (List.reverse_perm _).nodup_iff.mpr twins.memory.entries.distinct⟩ }

theorem twinsReversed_rearranges : twinsReversed.Rearranges twins.memory :=
  ⟨⟨_, rfl⟩, List.reverse_perm _⟩

/-- Both blocks have the same state root. Which of them is found depends on the order, but not what is shown. -/
theorem twins_state_shown_alike :
    twinsReversed.byStateRoot? .zero ≠ twins.memory.byStateRoot? .zero ∧
      ∀ s ∈ [twins.memory, twinsReversed],
        (Node.answer backend ""
          ⟨"GET", "/eth/v1/beacon/states/" ++ (StateId.root .zero).display ++ "/root", .empty⟩).run s =
          ((PreparedResponse.okData (RootResponse.mk .zero)).write.1, s) := by
  obtain ⟨-, hshown, -⟩ := state_answers_any_order reachable_twins.shuffled
  have hknown : ∃ entry, twins.memory.Known entry ∧ entry.stateRoot = .zero :=
    ⟨entryOf (derivedRoot 1 ⟨2⟩ .block) (sampleBlock ⟨2⟩ genesisRoot), by unfold Known; decide +kernel, rfl⟩
  refine ⟨by decide +kernel, fun s hs => ?_⟩
  have hrearranges : s.Rearranges twins.memory := by
    rcases List.mem_pair.mp hs with rfl | rfl
    · exact .refl _
    · exact twinsReversed_rearranges
  exact (hshown s "" .root _ .zero _ hrearranges (StateView.root.asks_display .zero)).1 hknown

end Chronicle

end Memory

end BeaconApi
