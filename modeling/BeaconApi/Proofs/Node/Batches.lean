import BeaconApi.Proofs.Beacon.Payloads
import BeaconApi.Proofs.Memory.Import
import BeaconApi.Proofs.Node.Acceptance
import BeaconApi.Proofs.Node.Posting

namespace BeaconApi

/-- Whether a root is in the chain. -/
def Memory.knows (s : Memory) (root : Root) : Bool := (s.entry? root).isSome

/-- What is submitted in batches. -/
inductive BatchKind
  | attestations
  | syncCommitteeMessages

namespace BatchKind

open Memory (backend)

/-- The payload of an item. -/
@[reducible] def payload : BatchKind → PayloadKind
  | attestations => .attestation
  | syncCommitteeMessages => .syncCommitteeMessage

/-- The items of a batch. -/
abbrev Item (kind : BatchKind) : Type := kind.payload.Value

/-- The path to which batches are posted. -/
def path : BatchKind → String
  | attestations => "/eth/v1/beacon/pool/attestations"
  | syncCommitteeMessages => "/eth/v1/beacon/pool/sync_committees"

/-- The root that must be in the chain for an item to be accepted. -/
def root : (kind : BatchKind) → kind.Item → Root
  | attestations, attestation => attestation.data.target.root
  | syncCommitteeMessages, message => message.beaconBlockRoot

/-- What is said about a root that is not in the chain. -/
def unknown : BatchKind → String
  | attestations => "unknown target root "
  | syncCommitteeMessages => "unknown beacon block root "

/-- What is said about a batch of which something was not passed on. -/
def unsent : BatchKind → String
  | attestations => "beacon is syncing, stored attestations but cannot publish them"
  | syncCommitteeMessages => "beacon is syncing, stored sync committee messages but cannot publish them"

/-- What is said about a batch that was passed on as a whole. -/
def sent : BatchKind → String
  | attestations => "stored and broadcast all attestations"
  | syncCommitteeMessages => "stored and broadcast all sync committee messages"

/-- The handler of a batch. -/
def endpoint : BatchKind → Endpoint (StateM Memory)
  | attestations => Endpoint.publishAttestations
  | syncCommitteeMessages => Endpoint.publishSyncCommitteeMessages

/-- What the handler does with an item. -/
def accept : (kind : BatchKind) → kind.Item → StateM Memory (Except BackendError Bool)
  | attestations => Endpoint.acceptAttestation backend
  | syncCommitteeMessages => Endpoint.acceptSyncCommitteeMessage backend

/-- A node with more items in their pool, which it has passed on unless it is syncing. -/
def take : (kind : BatchKind) → Memory → List kind.Item → Memory
  | attestations, s, items =>
    { s with
      attestations := s.attestations ++ items
      published := if s.syncing then s.published else
        { s.published with attestations := s.published.attestations ++ items } }
  | syncCommitteeMessages, s, items =>
    { s with
      syncCommitteeMessages := s.syncCommitteeMessages ++ items
      published := if s.syncing then s.published else
        { s.published with syncCommitteeMessages := s.published.syncCommitteeMessages ++ items } }

variable (kind : BatchKind) (s : Memory)

/-- The items whose roots are in the chain, in order. -/
def accepted (items : List kind.Item) : List kind.Item := items.filter fun item => s.knows (kind.root item)

/-- What is reported about the items from a position on: each whose root is not in the chain, under its
position. -/
def refused (index : Nat) (items : List kind.Item) : List ItemFailure :=
  ((items.zipIdx index).filter fun entry => !s.knows (kind.root entry.1)).map fun entry =>
    ⟨UInt64.ofNat entry.2, kind.unknown ++ (kind.root entry.1).display⟩

/-- What is reported about a batch: each item whose root is not in the chain, under its position, in order. -/
structure Reports (items : List kind.Item) (failures : List ItemFailure) : Prop where
  increasing : failures.Pairwise fun failure later => failure.index < later.index
  mem_iff (failure : ItemFailure) : failure ∈ failures ↔ ∃ item, items[failure.index.toNat]? = some item ∧
    s.knows (kind.root item) = false ∧ failure.message = kind.unknown ++ (kind.root item).display

/-- What is told about a batch: what is reported, if some items are not accepted. Otherwise, that not
everything was passed on, if there is something and the node is syncing, and that all is done if not. -/
structure Told (items : List kind.Item) (reported : List ItemFailure → Prop) (unsent sent : Prop) : Prop where
  of_refused (h : kind.accepted s items ≠ items) : ∃ failures, kind.Reports s items failures ∧ reported failures
  of_unsent (h : kind.accepted s items = items) (hsyncing : s.syncing = true) (hne : items ≠ []) : unsent
  of_sent (h : kind.accepted s items = items) (hdone : s.syncing = false ∨ items = []) : sent

section Take

theorem take_nil : kind.take s [] = s := by
  cases kind <;> rw [take, List.append_nil, List.append_nil, ite_self]

theorem take_append (items more : List kind.Item) :
    kind.take (kind.take s items) more = kind.take s (items ++ more) := by
  cases kind <;> cases hsyncing : s.syncing <;> simp [take, hsyncing]

theorem take_syncing (items : List kind.Item) : (kind.take s items).syncing = s.syncing := by
  cases kind <;> rfl

theorem take_knows (items : List kind.Item) : (kind.take s items).knows = s.knows := by
  cases kind <;> rfl

theorem accepted_take (items more : List kind.Item) :
    kind.accepted (kind.take s items) more = kind.accepted s more := by
  rw [accepted, accepted, take_knows]

theorem refused_take (items more : List kind.Item) (index : Nat) :
    kind.refused (kind.take s items) index more = kind.refused s index more := by
  rw [refused, refused, take_knows]

end Take

/-- An item whose root is in the chain is taken, and any other is refused. -/
theorem accept_run (item : kind.Item) : (kind.accept item).run s =
    if s.knows (kind.root item) then (.ok s.syncing, kind.take s [item])
    else (.error (.invalid (kind.unknown ++ (kind.root item).display)), s) := by
  cases kind with
  | attestations =>
    change (Endpoint.acceptAttestation backend item).run s =
      if (s.entry? item.data.target.root).isSome then _ else _
    have hask : s.step (.byBlockRoot item.data.target.root) = (s.entry? item.data.target.root, s) := rfl
    unfold Endpoint.acceptAttestation
    rw [Memory.run_perform_bind, hask]
    cases s.entry? item.data.target.root with
    | none => rfl
    | some entry => exact (s.addAttestation item).publish_run (.attestation item)
  | syncCommitteeMessages =>
    change (Endpoint.acceptSyncCommitteeMessage backend item).run s =
      if s.entries.contains item.beaconBlockRoot then _ else _
    unfold Endpoint.acceptSyncCommitteeMessage
    rw [Memory.run_perform_bind, Memory.step, Memory.addSyncCommitteeMessage]
    by_cases hknown : s.entries.contains item.beaconBlockRoot
    · rw [if_pos hknown, if_pos hknown]
      exact Memory.publish_run _ (.syncCommitteeMessage item)
    · rw [if_neg hknown, if_neg hknown]
      rfl

section Cons

variable {kind s} {item : kind.Item} {items : List kind.Item}

theorem accepted_cons_of_knows (h : s.knows (kind.root item) = true) :
    kind.accepted s (item :: items) = item :: kind.accepted s items :=
  List.filter_cons_of_pos h

theorem accepted_cons_of_not_knows (h : s.knows (kind.root item) = false) :
    kind.accepted s (item :: items) = kind.accepted s items :=
  List.filter_cons_of_neg (Bool.eq_false_iff.mp h)

theorem refused_cons_of_knows (h : s.knows (kind.root item) = true) (index : Nat) :
    kind.refused s index (item :: items) = kind.refused s (index + 1) items := by
  simp only [refused, List.zipIdx_cons, List.filter_cons, h, Bool.not_true, Bool.false_eq_true, if_false]

theorem refused_cons_of_not_knows (h : s.knows (kind.root item) = false) (index : Nat) :
    kind.refused s index (item :: items) =
      ⟨UInt64.ofNat index, kind.unknown ++ (kind.root item).display⟩ :: kind.refused s (index + 1) items := by
  simp only [refused, List.zipIdx_cons, List.filter_cons, h, Bool.not_false, if_true, List.map_cons]

end Cons

/-- The loop of `acceptIndexed` from any position and outcome on, over a batch of `kind`. `kind.accepted` may
refer to the state before the batch, because taking items does not change `knows`. The induction is over
`items`, with `index` and `outcome` general. -/
theorem acceptFrom_run (items : List kind.Item) (index : Nat) (outcome : BatchOutcome) :
    (acceptFrom kind.accept index outcome items).run s =
      (⟨outcome.failures ++ kind.refused s index items,
        outcome.syncing || (s.syncing && !(kind.accepted s items).isEmpty)⟩,
        kind.take s (kind.accepted s items)) := by
  induction items generalizing s index outcome with
  | nil =>
    rw [accepted, List.filter_nil, take_nil, show kind.refused s index [] = [] from rfl, List.append_nil,
      List.isEmpty_nil, Bool.not_true, Bool.and_false, Bool.or_false]
    rfl
  | cons item items ih =>
    rw [acceptFrom, StateT.run_bind, accept_run]
    cases hknown : s.knows (kind.root item) with
    | true =>
      rw [accepted_cons_of_knows hknown, refused_cons_of_knows hknown]
      have hrest := ih (kind.take s [item]) (index + 1) (outcome.note index (.ok s.syncing))
      rw [accepted_take, refused_take, take_append, take_syncing] at hrest
      refine hrest.trans ?_
      cases s.syncing <;> simp [BatchOutcome.note]
    | false =>
      rw [accepted_cons_of_not_knows hknown, refused_cons_of_not_knows hknown]
      have hrest := ih s (index + 1) (outcome.note index
        (.error (.invalid (kind.unknown ++ (kind.root item).display))))
      rw [List.append_cons]
      exact hrest

theorem endpoint_eq (r : IncomingRequest) : kind.endpoint backend r =
    (liftM (readBody r : Except PreparedResponse (List kind.Item)) >>= fun items => do
      let outcome ← ExceptT.lift (acceptIndexed items kind.accept)
      return Endpoint.batchReply outcome kind.unsent kind.sent) := by
  cases kind <;> rfl

/-- The response to a batch. -/
def reply (items : List kind.Item) : PreparedResponse :=
  Endpoint.batchReply ⟨kind.refused s 0 items, s.syncing && !(kind.accepted s items).isEmpty⟩ kind.unsent kind.sent

/-- The handler takes the items of a batch that it can take, and replies to the batch as a whole. -/
theorem endpoint_run {r : IncomingRequest} {bytes : ByteArray} {items : List kind.Item}
    (hr : r.body = some bytes) (h : Body.decodeContents bytes = .ok items) :
    (kind.endpoint backend r).run.run s = (.ok (kind.reply s items), kind.take s (kind.accepted s items)) := by
  have hbatch := kind.acceptFrom_run s items 0 ⟨[], false⟩
  rw [List.nil_append, Bool.false_or] at hbatch
  rw [endpoint_eq, Memory.run_readBody_bind hr h, ExceptT.run_bind_lift, StateT.run_bind, acceptIndexed, hbatch]
  rfl

theorem route (version : String) : Node.PlainRoute version .post kind.path kind.endpoint := by
  cases kind with
  | attestations => exact ⟨by simp [Node.routes, path, endpoint], rfl, by decide⟩
  | syncCommitteeMessages => exact ⟨by simp [Node.routes, path, endpoint], rfl, by decide⟩

section Reported

variable {kind s} {items : List kind.Item}

/-- Everything is accepted exactly if nothing is reported. -/
theorem refused_eq_nil_iff (index : Nat) : kind.refused s index items = [] ↔ kind.accepted s items = items := by
  induction items generalizing index with
  | nil => exact iff_of_true rfl rfl
  | cons item items ih =>
    cases hknown : s.knows (kind.root item) with
    | true =>
      rw [refused_cons_of_knows hknown, accepted_cons_of_knows hknown, ih, List.cons_inj_right]
    | false =>
      rw [refused_cons_of_not_knows hknown, accepted_cons_of_not_knows hknown]
      -- What is accepted of the rest is no longer than the rest.
      have hlength : (kind.accepted s items).length ≤ items.length := List.length_filter_le _ items
      apply iff_of_false (List.cons_ne_nil _ _)
      intro heq
      rw [heq, List.length_cons] at hlength
      omega

theorem refused_eq_complaintsFrom (index : Nat) : kind.refused s index items =
    complaintsFrom (fun item => if s.knows (kind.root item) then none else
      some (kind.unknown ++ (kind.root item).display)) index items := by
  rw [refused, complaintsFrom, ← List.filterMap_eq_map, List.filterMap_filter]
  congr 1
  funext entry
  cases s.knows (kind.root entry.1) <;> rfl

/-- A batch is reported in full, if there are numbers for all of its positions. -/
theorem reports_refused (h : items.length ≤ UInt64.size) : kind.Reports s items (kind.refused s 0 items) := by
  rw [refused_eq_complaintsFrom]
  refine ⟨complaintsFrom_pairwise _ h, fun failure => (mem_complaintsFrom_iff h failure).trans ?_⟩
  refine exists_congr fun item => and_congr_right fun _ => ?_
  cases s.knows (kind.root item) with
  | true => exact iff_of_false nofun (nomatch ·.1)
  | false => exact ⟨fun hmessage => ⟨rfl, (Option.some.inj hmessage).symm⟩, fun h => congrArg some h.2.symm⟩

end Reported

variable {kind s} {items : List kind.Item} {reported : List ItemFailure → Prop} {unsent sent : Prop}

/-- The reply to a batch tells about it. -/
theorem told_of_reply (hlength : items.length ≤ UInt64.size)
    (hreported : ∀ failures, kind.reply s items = .badInputs "cannot store/publish" failures → reported failures)
    (hunsent : kind.reply s items = .syncing kind.unsent → unsent)
    (hsent : kind.reply s items = .okMessage kind.sent → sent) :
    kind.Told s items reported unsent sent := by
  constructor
  · intro hrefused
    have hsome : kind.refused s 0 items ≠ [] := by
      intro hnone
      exact hrefused ((refused_eq_nil_iff 0).mp hnone)
    refine ⟨_, reports_refused hlength, hreported _ ?_⟩
    rw [reply, Endpoint.batchReply, if_pos (by simpa using hsome)]
  · intro haccepted hsyncing hne
    have hnone : kind.refused s 0 items = [] := (refused_eq_nil_iff 0).mpr haccepted
    apply hunsent
    rw [reply, Endpoint.batchReply, hnone, haccepted, hsyncing]
    simp [hne]
  · intro haccepted hdone
    have hnone : kind.refused s 0 items = [] := (refused_eq_nil_iff 0).mpr haccepted
    apply hsent
    rw [reply, Endpoint.batchReply, hnone, haccepted]
    rcases hdone with hsyncing | rfl
    · simp [hsyncing]
    · simp

end BatchKind

end BeaconApi
