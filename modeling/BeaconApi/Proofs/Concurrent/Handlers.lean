import BeaconApi.Proofs.Client.Reports
import BeaconApi.Proofs.Concurrent.Gains
import BeaconApi.Proofs.Node.Exits
import BeaconApi.Proofs.Node.Import

namespace BeaconApi

open Memory (Chronicle exitOutcome exitOutcome_status settled submissionOutcome)
open PreparedResponse

section Body

variable {α β : Type} [Payload α] {r : IncomingRequest} {bytes : ByteArray}
  {f : α → ExceptT PreparedResponse Task β} {deeds : List Deed} {outcome : Except PreparedResponse β}

/-- A task that begins with a body refuses one that cannot be read, before it asks for anything. -/
theorem Task.Ends.of_unreadable (hr : r.body = some bytes) {e : ApiError}
    (hbody : (Body.decodeContents bytes : Except ApiError α) = .error e)
    (h : (liftM (readBody r : Except PreparedResponse α) >>= f).run.Ends deeds outcome) :
    deeds = [] ∧ outcome = .error (.badInput e.message) := by
  rw [readBody_of_body hr, hbody] at h
  exact Task.ends_done_iff.mp h

/-- A task that begins with a body goes on with what the body holds. -/
theorem Task.Ends.of_readable (hr : r.body = some bytes) {x : α} (hbody : Body.decodeContents bytes = .ok x)
    (h : (liftM (readBody r : Except PreparedResponse α) >>= f).run.Ends deeds outcome) :
    (f x).run.Ends deeds outcome := by
  rw [readBody_of_body hr, hbody] at h
  exact h

/-- Within a handler, a task that begins with an operation goes on with what comes of it. -/
theorem Task.Ends.of_ask {γ : Type} {op : Operation γ} {g : γ → ExceptT PreparedResponse Task β}
    (h : (Task.backend.ask op >>= g).run.Ends deeds outcome) :
    ∃ s rest, deeds = ⟨op, s⟩ :: rest ∧ (g (s.step op).1).run.Ends rest outcome := by
  unfold Backend.ask at h
  rw [ExceptT.run_bind_lift] at h
  exact h.of_perform

end Body

/-- A handler of an exit adds it to the pool and offers it, or finds one of its validator there. -/
theorem Task.Ends.of_publishVoluntaryExit {r : IncomingRequest} {bytes : ByteArray} {deeds : List Deed}
    {outcome : Except PreparedResponse PreparedResponse} (hr : r.body = some bytes)
    {exit : SignedVoluntaryExit} (hbody : Body.decodeContents bytes = .ok exit)
    (h : (Endpoint.publishVoluntaryExit Task.backend r).run.Ends deeds outcome) : ∃ s : Memory,
      s.Pending exit.validator ∧ deeds = [⟨.addVoluntaryExit exit, s⟩] ∧ outcome = exitOutcome exit true false ∨
      ¬ s.Pending exit.validator ∧ ∃ s' : Memory,
        deeds = [⟨.addVoluntaryExit exit, s⟩, ⟨.publish (.voluntaryExit exit), s'⟩] ∧
        outcome = exitOutcome exit false s'.syncing := by
  obtain ⟨s, rest, rfl, hadded⟩ := (h.of_readable hr hbody).of_ask
  refine ⟨s, ?_⟩
  rw [Memory.step] at hadded
  by_cases hpending : s.Pending exit.validator
  · rw [Memory.addVoluntaryExit_of_pending hpending] at hadded
    obtain ⟨rfl, rfl⟩ := Task.ends_done_iff.mp hadded
    exact .inl ⟨hpending, rfl, rfl⟩
  · rw [Memory.addVoluntaryExit_of_not_pending hpending] at hadded
    obtain ⟨s', rest, rfl, hsent⟩ := hadded.of_ask
    rw [Memory.step_publish, Memory.publish_fst] at hsent
    refine .inr ⟨hpending, s', ?_⟩
    cases hsyncing : s'.syncing <;> rw [hsyncing] at hsent <;>
      obtain ⟨rfl, rfl⟩ := Task.ends_done_iff.mp hsent <;> exact ⟨rfl, rfl⟩

/-- A handler of a block offers it, keeps it, and adds it under the root that it was kept under. -/
theorem Task.Ends.of_publishBlock {r : IncomingRequest} {bytes : ByteArray} {deeds : List Deed}
    {outcome : Except PreparedResponse PreparedResponse} (hr : r.body = some bytes)
    {b : SignedBeaconBlock} (hbody : Body.decodeContents bytes = .ok b)
    (h : (Endpoint.publishBlock Task.backend r).run.Ends deeds outcome) : ∃ s s' s'' : Memory,
      deeds = [⟨.publish (.block b), s⟩, ⟨.storeBlock b, s'⟩, ⟨.addBlock (s'.storeBlock b).1 b, s''⟩] ∧
        outcome = submissionOutcome s.syncing (s''.addBlock (s'.storeBlock b).1 b).1 := by
  obtain ⟨s, _, rfl, hpublished⟩ := (h.of_readable hr hbody).of_ask
  obtain ⟨s', _, rfl, hstored⟩ := hpublished.of_ask
  have hkept : (s'.step (.storeBlock b)).1 = .ok (s'.storeBlock b).1 := rfl
  rw [hkept] at hstored
  dsimp only at hstored
  obtain ⟨s'', rest, rfl, hend⟩ := hstored.of_ask
  refine ⟨s, s', s'', ?_⟩
  rw [Memory.step_publish, Memory.publish_fst] at hend
  generalize hadded : (s''.step (.addBlock (s'.storeBlock b).1 b)).1 = imported at hend
  change (s''.addBlock (s'.storeBlock b).1 b).1 = imported at hadded
  rw [hadded]
  cases hsyncing : s.syncing with
  | true =>
    rw [hsyncing] at hend
    obtain ⟨rfl, rfl⟩ := Task.ends_done_iff.mp hend
    exact ⟨rfl, rfl⟩
  | false =>
    rw [hsyncing] at hend
    rcases imported with (_ | _ | _) | _ <;>
      obtain ⟨rfl, rfl⟩ := Task.ends_done_iff.mp hend <;> exact ⟨rfl, rfl⟩

/-- The items from a position on that are not listed. -/
def unlistedFrom {α : Type} (index : Nat) (failures : List ItemFailure) (items : List α) : List α :=
  ((items.zipIdx index).filter fun entry =>
    failures.all fun failure => failure.index.toNat ≠ entry.2).map Prod.fst

section Unlisted

variable {α : Type} {index : Nat} {failures : List ItemFailure}

theorem unlistedFrom_cons_of_lt (h : ∀ failure ∈ failures, index < failure.index.toNat) (item : α)
    (items : List α) : unlistedFrom index failures (item :: items) =
      item :: unlistedFrom (index + 1) failures items := by
  have hunlisted : (failures.all fun failure => failure.index.toNat ≠ index) = true :=
    List.all_eq_true.mpr fun failure hmem => decide_eq_true (h failure hmem).ne'
  rw [unlistedFrom, List.zipIdx_cons, List.filter_cons_of_pos (by exact hunlisted)]
  rfl

theorem unlistedFrom_cons_of_eq {failure : ItemFailure} (h : failure.index.toNat = index) (item : α)
    (items : List α) : unlistedFrom index (failure :: failures) (item :: items) =
      unlistedFrom (index + 1) failures items := by
  rw [unlistedFrom, List.zipIdx_cons, List.filter_cons_of_neg (by simp [h])]
  -- The item that is listed stands before all others.
  have hlater : ∀ entry ∈ items.zipIdx (index + 1),
      ((failure :: failures).all fun failure => failure.index.toNat ≠ entry.2) =
        failures.all fun failure => failure.index.toNat ≠ entry.2 := by
    intro entry hmem
    have hplace := List.le_snd_of_mem_zipIdx hmem
    have hne : failure.index.toNat ≠ entry.2 := by omega
    rw [List.all_cons, decide_eq_true hne, Bool.true_and]
  rw [List.filter_congr hlater]
  rfl

end Unlisted

namespace BatchKind

/-- What an item is to the peers of a node. -/
def gossip : (kind : BatchKind) → kind.Item → Gossip
  | attestations => .attestation
  | syncCommitteeMessages => .syncCommitteeMessage

/-- What the handler does with an item, as a task. -/
def acceptTask : (kind : BatchKind) → kind.Item → Task (Except BackendError Bool)
  | attestations => Endpoint.acceptAttestation Task.backend
  | syncCommitteeMessages => Endpoint.acceptSyncCommitteeMessage Task.backend

/-- Some items have been added to the pool, and all of these were to be passed on. `unsent` tells whether some
of them were not. -/
structure Takes (kind : BatchKind) (deeds : List Deed) (items : List kind.Item) (unsent : Bool) : Prop where
  pooled : deeds.flatMap Deed.pooled = items.map kind.gossip
  offered : (deeds.flatMap Deed.offered).map Prod.fst = items.map kind.gossip
  unsent : (deeds.flatMap Deed.offered).any Prod.snd = unsent

variable {kind : BatchKind} {deeds : List Deed}

namespace Takes

variable {items items' : List kind.Item} {deeds' : List Deed} {unsent unsent' : Bool}

theorem nil : kind.Takes [] [] false := ⟨rfl, rfl, rfl⟩

theorem append (h : kind.Takes deeds items unsent) (h' : kind.Takes deeds' items' unsent') :
    kind.Takes (deeds ++ deeds') (items ++ items') (unsent || unsent') where
  pooled := by rw [List.flatMap_append, h.pooled, h'.pooled, List.map_append]
  offered := by rw [List.flatMap_append, List.map_append, h.offered, h'.offered, List.map_append]
  unsent := by rw [List.flatMap_append, List.any_append, h.unsent, h'.unsent]

end Takes

/-- An item is taken, or nothing is done about it. -/
theorem accept_ends {item : kind.Item} {result : Except BackendError Bool}
    (h : (kind.acceptTask item).Ends deeds result) :
    (∃ e, result = .error e ∧ kind.Takes deeds [] false) ∨
      ∃ syncing, result = .ok syncing ∧ kind.Takes deeds [item] syncing := by
  cases kind with
  | attestations =>
    obtain ⟨s, rest, rfl, hlooked⟩ := h.of_perform
    cases hentry : (s.step (.byBlockRoot item.data.target.root)).1 with
    | none =>
      rw [hentry] at hlooked
      obtain ⟨rfl, rfl⟩ := Task.ends_done_iff.mp hlooked
      exact .inl ⟨_, rfl, rfl, rfl, rfl⟩
    | some entry =>
      rw [hentry] at hlooked
      obtain ⟨s', rest, rfl, hadded⟩ := hlooked.of_perform
      obtain ⟨s'', rfl, rfl⟩ := hadded.of_last
      rw [Memory.step_publish, Memory.publish_fst]
      exact .inr ⟨_, rfl, rfl, rfl, Bool.or_false _⟩
  | syncCommitteeMessages =>
    obtain ⟨s, rest, rfl, hadded⟩ := h.of_perform
    by_cases hknown : s.entries.contains item.beaconBlockRoot
    · have hstep : (s.step (.addSyncCommitteeMessage item)).1 = .ok () := by
        rw [Memory.step, Memory.addSyncCommitteeMessage, if_pos hknown]
      have hpooled : Deed.pooled ⟨.addSyncCommitteeMessage item, s⟩ = [.syncCommitteeMessage item] := by
        rw [Deed.pooled, hstep]
        rfl
      rw [hstep] at hadded
      obtain ⟨s', rfl, rfl⟩ := hadded.of_last
      rw [Memory.step_publish, Memory.publish_fst]
      refine .inr ⟨_, rfl, ?_, rfl, Bool.or_false _⟩
      rw [List.flatMap_cons, hpooled]
      rfl
    · have hstep : (s.step (.addSyncCommitteeMessage item)).1 =
          .error (.invalid ("unknown beacon block root " ++ item.beaconBlockRoot.display)) := by
        rw [Memory.step, Memory.addSyncCommitteeMessage, if_neg hknown]
      have hpooled : Deed.pooled ⟨.addSyncCommitteeMessage item, s⟩ = [] := by
        rw [Deed.pooled, hstep]
        rfl
      rw [hstep] at hadded
      obtain ⟨rfl, rfl⟩ := Task.ends_done_iff.mp hadded
      refine .inl ⟨_, rfl, ?_, rfl, rfl⟩
      rw [List.flatMap_cons, hpooled]
      rfl

/-- From a position on, the items are taken that are not reported. -/
theorem acceptFrom_ends {items : List kind.Item} {index : Nat} (hbound : index + items.length ≤ UInt64.size)
    {outcome outcome' : BatchOutcome} (h : (acceptFrom kind.acceptTask index outcome items).Ends deeds outcome') :
    ∃ failures unsent, outcome' = ⟨outcome.failures ++ failures, outcome.syncing || unsent⟩ ∧
      (∀ failure ∈ failures, index ≤ failure.index.toNat) ∧
      kind.Takes deeds (unlistedFrom index failures items) unsent := by
  induction items generalizing index outcome deeds with
  | nil =>
    obtain ⟨rfl, rfl⟩ := Task.ends_pure_iff.mp h
    refine ⟨[], false, ?_, fun _ hmem => (nomatch hmem), .nil⟩
    rw [List.append_nil, Bool.or_false]
  | cons item items ih =>
    rw [List.length_cons] at hbound
    obtain ⟨result, first, rest, rfl, hitem, hrest⟩ := h.of_bind
    obtain ⟨failures, unsent, rfl, hafter, htakes⟩ := ih (by omega) hrest
    have hplace : (UInt64.ofNat index).toNat = index := UInt64.toNat_ofNat_of_lt' (by omega)
    rcases accept_ends hitem with ⟨e, rfl, hnone⟩ | ⟨syncing, rfl, hone⟩
    · refine ⟨⟨UInt64.ofNat index, e.message⟩ :: failures, unsent, ?_, ?_, ?_⟩
      · rw [BatchOutcome.note, List.append_assoc]
        rfl
      · intro failure hmem
        rcases List.mem_cons.mp hmem with rfl | hlater
        · exact hplace.ge
        · exact Nat.le_of_succ_le (hafter failure hlater)
      · rw [unlistedFrom_cons_of_eq hplace]
        exact hnone.append htakes
    · refine ⟨failures, syncing || unsent, ?_, ?_, ?_⟩
      · rw [BatchOutcome.note, Bool.or_assoc]
      · exact fun failure hmem => Nat.le_of_succ_le (hafter failure hmem)
      · rw [unlistedFrom_cons_of_lt hafter]
        exact hone.append htakes

theorem endpoint_task_eq (kind : BatchKind) (r : IncomingRequest) :
    (SubmissionKind.batch kind).endpoint Task.backend r =
      (liftM (readBody r : Except PreparedResponse (List kind.Item)) >>= fun items => do
        let outcome ← ExceptT.lift (acceptIndexed items kind.acceptTask)
        return Endpoint.batchReply outcome kind.unsent kind.sent) := by
  cases kind <;> rfl

/-- A handler of a batch takes the items that it does not report. -/
theorem endpoint_ends {r : IncomingRequest} {bytes : ByteArray} (hr : r.body = some bytes)
    {items : List kind.Item} (hbody : Body.decodeContents bytes = .ok items) (hbound : items.length ≤ UInt64.size)
    {outcome : Except PreparedResponse PreparedResponse}
    (h : ((SubmissionKind.batch kind).endpoint Task.backend r).run.Ends deeds outcome) : ∃ failures unsent,
      outcome = .ok (Endpoint.batchReply ⟨failures, unsent⟩ kind.unsent kind.sent) ∧
      kind.Takes deeds (unlisted failures items) unsent := by
  rw [endpoint_task_eq] at h
  have hrest := h.of_readable hr hbody
  rw [ExceptT.run_bind_lift] at hrest
  obtain ⟨counted, first, rest, rfl, hbatch, hreply⟩ := hrest.of_bind
  obtain ⟨rfl, rfl⟩ := Task.ends_done_iff.mp hreply
  obtain ⟨failures, unsent, rfl, _, htakes⟩ := acceptFrom_ends (by rwa [Nat.zero_add]) hbatch
  refine ⟨failures, unsent, ?_, ?_⟩
  · rw [List.nil_append, Bool.false_or]
  · rw [List.append_nil]
    exact htakes

end BatchKind

section Safe

variable {given : List (Root × SignedBeaconBlock)}

theorem Task.Safe.of_readBody {α β : Type} [Payload α] (r : IncomingRequest)
    {f : α → ExceptT PreparedResponse Task β} (h : ∀ x, (f x).run.Safe given) :
    (liftM (readBody r : Except PreparedResponse α) >>= f).run.Safe given := by
  cases hbody : (readBody r : Except PreparedResponse α) with
  | error refusal => exact Task.safe_pure _
  | ok x => exact h x

theorem acceptTask_safe {kind : BatchKind} (item : kind.Item) : (kind.acceptTask item).Safe given := by
  cases kind with
  | attestations =>
    refine Task.Safe.bind (Task.safe_perform ?_) fun found _ _ => ?_
    · exact fun _ => trivial
    cases found with
    | none => exact Task.safe_pure _
    | some entry =>
      refine Task.Safe.bind (Task.safe_perform ?_) fun added _ _ => ?_
      · exact fun _ => trivial
      cases added with
      | error e => exact Task.safe_pure _
      | ok => exact Task.safe_perform fun _ => trivial
  | syncCommitteeMessages =>
    refine Task.Safe.bind (Task.safe_perform ?_) fun added _ _ => ?_
    · exact fun _ => trivial
    cases added with
    | error e => exact Task.safe_pure _
    | ok => exact Task.safe_perform fun _ => trivial

theorem acceptFrom_safe {kind : BatchKind} (items : List kind.Item) (index : Nat) (outcome : BatchOutcome) :
    (acceptFrom kind.acceptTask index outcome items).Safe given := by
  induction items generalizing given index outcome with
  | nil => exact Task.safe_pure _
  | cons item items ih => exact (acceptTask_safe item).bind fun _ _ _ => ih _ _

/-- Within a handler, an operation that is always permitted is safe. -/
theorem Task.Safe.of_ask {α β : Type} {op : Operation α} {f : α → ExceptT PreparedResponse Task β}
    (hpermits : ∀ c : Chronicle, c.Permits (.perform op))
    (h : ∀ a more, given ⊆ more → (f a).run.Safe more) : (Task.backend.ask op >>= f).run.Safe given := by
  unfold Backend.ask
  rw [ExceptT.run_bind_lift]
  exact (Task.safe_perform hpermits).bind h

theorem publishVoluntaryExit_safe (r : IncomingRequest) :
    (Endpoint.publishVoluntaryExit Task.backend r).run.Safe given := by
  refine .of_readBody r fun exit => .of_ask (fun _ => trivial) fun added _ _ => ?_
  cases added with
  | error e => exact Task.safe_pure _
  | ok =>
    refine .of_ask (fun _ => trivial) fun sent _ _ => ?_
    split <;> exact Task.safe_pure _

/-- A block is added under the root that it has just been given. -/
theorem publishBlock_safe (r : IncomingRequest) : (Endpoint.publishBlock Task.backend r).run.Safe given := by
  refine .of_readBody r fun b => .of_ask (fun _ => trivial) fun sent _ _ c _ => ⟨trivial, ?_⟩
  intro c' hc'
  refine ⟨hc' List.mem_cons_self, ?_⟩
  generalize (c'.memory.step _).1 = imported
  rcases sent with _ | (_ | _)
  · exact Task.safe_pure _
  · rcases imported with (_ | _ | _) | _ <;> exact Task.safe_pure _
  · exact Task.safe_pure _

/-- Whatever is submitted, its handler is safe. -/
theorem SubmissionKind.endpoint_safe (kind : SubmissionKind) (r : IncomingRequest) :
    (kind.endpoint Task.backend r).run.Safe given := by
  cases kind with
  | batch kind =>
    rw [kind.endpoint_task_eq]
    refine .of_readBody r fun items => ?_
    rw [ExceptT.run_bind_lift]
    exact (acceptFrom_safe items 0 _).bind fun _ _ _ => Task.safe_pure _
  | voluntaryExit => exact publishVoluntaryExit_safe r
  | block => exact publishBlock_safe r

end Safe

namespace SubmissionKind

variable {kind : SubmissionKind} {version : String} {request : Http.Request} (hposts : request.Posts kind.path)
include hposts

/-- A submission is refused if its body is too large. Otherwise what its handler settles on is sent. -/
theorem answer_ends {deeds : List Deed} {response : Http.Response}
    (h : (Node.answer Task.backend version request).Ends deeds response) :
    Router.maxBodySize < request.body.size ∧ deeds = [] ∧ response.status = 413 ∨
      request.body.size ≤ Router.maxBodySize ∧ ∃ outcome,
        (kind.endpoint Task.backend (incoming request)).run.Ends deeds outcome ∧
        response = (settled outcome).write.1 := by
  by_cases hsize : Router.maxBodySize < request.body.size
  · obtain ⟨refused, hanswer, hstatus⟩ := answer_oversized Task.backend version hposts hsize
    rw [hanswer] at h
    obtain ⟨rfl, rfl⟩ := Task.ends_pure_iff.mp h
    exact .inl ⟨hsize, rfl, hstatus⟩
  · rw [answer_eq Task.backend version hposts, if_neg hsize] at h
    obtain ⟨prepared, hprepared, rfl⟩ := h.of_map
    obtain ⟨outcome, first, rest, rfl, hrun, hsettled⟩ := hprepared.of_bind
    refine .inr ⟨Nat.not_lt.mp hsize, outcome, ?_⟩
    cases outcome <;> obtain ⟨rfl, rfl⟩ := Task.ends_done_iff.mp hsettled <;>
      exact ⟨(List.append_nil first).symm ▸ hrun, rfl⟩

/-- Whatever is submitted, answering it is safe. -/
theorem answer_safe (given : List (Root × SignedBeaconBlock)) :
    (Node.answer Task.backend version request).Safe given := by
  rw [answer_eq Task.backend version hposts]
  split
  · exact Task.safe_pure _
  · refine Task.Safe.map ((kind.endpoint_safe (incoming request)).bind fun outcome _ _ => ?_) _
    cases outcome <;> exact Task.safe_pure _

end SubmissionKind

/-- A block is answered with success only if it was passed on and added. -/
theorem of_submissionOutcome_status {syncing : Bool} {imported : Except BackendError Unit}
    (h : (settled (submissionOutcome syncing imported)).write.1.status = 200) :
    syncing = false ∧ imported = .ok () := by
  have hother {prepared : PreparedResponse} (hcode : prepared.code ∈ [202, 500, 503]) :
      prepared.write.1.status ≠ 200 := by
    have hrange : ∀ code ∈ [202, 500, 503], Http.isStatus code ∧ code ≠ 200 := by simp [Http.isStatus]
    obtain ⟨hstatus, hne⟩ := hrange _ hcode
    rwa [write_status_of_isStatus hstatus]
  cases syncing with
  | true => exact absurd h (hother (.tail _ (.tail _ (.head _))))
  | false =>
    rcases imported with (_ | _ | _) | _
    · exact absurd h (hother (.tail _ (.head _)))
    · exact absurd h (hother (.head _))
    · exact absurd h (hother (.tail _ (.head _)))
    · exact ⟨rfl, rfl⟩

section Readable

variable {version : String} {request : Http.Request} {deeds : List Deed} {response : Http.Response}
  (hsize : request.body.size ≤ Router.maxBodySize)
  (h : (Node.answer Task.backend version request).Ends deeds response)
include hsize h

/-- What is done for a body that is not too large is what its handler does. -/
theorem SubmissionKind.small_ends {kind : SubmissionKind} (hposts : request.Posts kind.path) :
    ∃ outcome, (kind.endpoint Task.backend (incoming request)).run.Ends deeds outcome ∧
      response = (settled outcome).write.1 := by
  obtain ⟨hlarge, _⟩ | ⟨_, hrun⟩ := answer_ends hposts h
  · exact absurd hlarge (Nat.not_lt.mpr hsize)
  · exact hrun

/-- What is done for a batch, and what is answered. -/
theorem batch_ends {kind : BatchKind} (hposts : request.Posts (SubmissionKind.batch kind).path)
    {items : List kind.Item} (hbody : Body.decodeContents request.body = .ok items) : ∃ failures unsent,
      response = (Endpoint.batchReply ⟨failures, unsent⟩ kind.unsent kind.sent).write.1 ∧
      kind.Takes deeds (unlisted failures items) unsent := by
  obtain ⟨outcome, hrun, rfl⟩ := SubmissionKind.small_ends hsize h hposts
  obtain ⟨failures, unsent, rfl, htakes⟩ :=
    BatchKind.endpoint_ends rfl hbody (kind.length_le_size hsize hbody) hrun
  exact ⟨failures, unsent, rfl, htakes⟩

/-- What is done for an exit, and what is answered. -/
theorem exit_ends (hposts : request.Posts SubmissionKind.voluntaryExit.path) {exit : SignedVoluntaryExit}
    (hbody : Body.decodeContents request.body = .ok exit) : ∃ s : Memory,
      s.Pending exit.validator ∧ deeds = [⟨.addVoluntaryExit exit, s⟩] ∧ response.status = 400 ∨
      ¬ s.Pending exit.validator ∧ ∃ s' : Memory,
        deeds = [⟨.addVoluntaryExit exit, s⟩, ⟨.publish (.voluntaryExit exit), s'⟩] ∧
        response.status = if s'.syncing then 503 else 200 := by
  obtain ⟨outcome, hrun, rfl⟩ := SubmissionKind.small_ends hsize h hposts
  obtain ⟨s, ⟨hpending, hdeeds, rfl⟩ | ⟨hpending, s', hdeeds, rfl⟩⟩ := hrun.of_publishVoluntaryExit rfl hbody
  · exact ⟨s, .inl ⟨hpending, hdeeds, exitOutcome_status exit true false⟩⟩
  · exact ⟨s, .inr ⟨hpending, s', hdeeds, exitOutcome_status exit false s'.syncing⟩⟩

/-- What is done for a block, and what is known of a success. -/
theorem block_ends (hposts : request.Posts SubmissionKind.block.path) {b : SignedBeaconBlock}
    (hbody : Body.decodeContents request.body = .ok b) : ∃ s s' s'' : Memory,
      deeds = [⟨.publish (.block b), s⟩, ⟨.storeBlock b, s'⟩, ⟨.addBlock (s'.storeBlock b).1 b, s''⟩] ∧
      (response.status = 200 → s.syncing = false ∧ (s''.addBlock (s'.storeBlock b).1 b).1 = .ok ()) := by
  obtain ⟨outcome, hrun, rfl⟩ := SubmissionKind.small_ends hsize h hposts
  obtain ⟨s, s', s'', hdeeds, rfl⟩ := hrun.of_publishBlock rfl hbody
  exact ⟨s, s', s'', hdeeds, of_submissionOutcome_status⟩

end Readable

end BeaconApi
