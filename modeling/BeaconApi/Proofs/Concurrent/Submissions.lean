import BeaconApi.Proofs.Concurrent.Accounts
import BeaconApi.Proofs.Memory.Growth
import BeaconApi.Proofs.Node.ExitLog

namespace BeaconApi

open Memory (Chronicle)

/-- A submission holds an exit of a validator. -/
def Submission.Exits (submission : Submission) (validator : ValidatorIndex) : Prop :=
  ∃ exit : SignedVoluntaryExit, .voluntaryExit exit ∈ submission.items ∧ exit.validator = validator

/-- Later, a block is kept under a root that was new before, and has an entry under it if it was answered with
success. -/
structure Memory.Chronicle.KeptAs (c c' : Chronicle) (root : Root) (b : SignedBeaconBlock)
    (response : Http.Response) : Prop where
  fresh : c.memory.blocks.get? root = none ∧ c.memory.entry? root = none
  kept : c'.memory.blocks.get? root = some b
  added (h : response.status = 200) : c'.memory.entry? root = some (entryOf root b)

namespace Memory.Chronicle

variable {genesisTime : Timestamp} {c c₁ c' : Chronicle} {root : Root} {b : SignedBeaconBlock}
  (hroom : c'.stored.length < capacity)
include hroom

/-- A block that is kept on the way is kept under a root that was new before, and stays there. -/
theorem kept_of_storeBlock (h : Reachable genesisTime c) (hbefore : c.Steps c₁)
    (hafter : (c₁.after (.perform (.storeBlock b))).Steps c') (hroot : root = (c₁.memory.storeBlock b).1) :
    (c.memory.blocks.get? root = none ∧ c.memory.entry? root = none) ∧
      c'.memory.blocks.get? root = some b := by
  have hgiven : (root, b) ∈ c'.stored := hafter.stored_suffix.subset (hroot ▸ List.mem_cons_self)
  have hlength : c₁.stored.length ≤ (c₁.after (.perform (.storeBlock b))).stored.length := Nat.le_succ _
  have hstocked : c₁.Stocked := Reachable.stocked (h.trans hbefore)
    (Nat.lt_of_le_of_lt (hlength.trans hafter.stored_suffix.length_le) hroom)
  have hnone : c.memory.blocks.get? root = none := hbefore.unnamed (hroot ▸ hstocked.fresh b)
  have hsteps : c₁.Steps c' := .head ⟨.perform (.storeBlock b), trivial, rfl⟩ hafter
  have hreachable : Reachable genesisTime c' := (h.trans hbefore).trans hsteps
  refine ⟨⟨hnone, Option.eq_none_iff_forall_ne_some.mpr fun entry hentry => ?_⟩,
    (hreachable.stocked hroom).kept hgiven⟩
  obtain ⟨other, hother⟩ := h.backed.entries hentry
  rw [hnone] at hother
  cases hother

/-- A block that is added on the way has an entry under its root, and the entry stays. -/
theorem added_of_addBlock (h : Reachable genesisTime c₁) (hpermits : c₁.Permits (.perform (.addBlock root b)))
    (hafter : (c₁.after (.perform (.addBlock root b))).Steps c')
    (hadded : (c₁.memory.addBlock root b).1 = .ok ()) (hkept : c'.memory.blocks.get? root = some b) :
    c'.memory.entry? root = some (entryOf root b) := by
  have hnext : Reachable genesisTime (c₁.after (.perform (.addBlock root b))) := h.tail ⟨_, hpermits, rfl⟩
  obtain ⟨_, hgrown⟩ := hafter.grows hnext.linked
  obtain ⟨entry, hentry⟩ := entry?_addBlock_of_ok hadded
  have hlater : c'.memory.entry? root = some entry := hgrown.keeps hentry
  obtain ⟨other, hother, hentryOf⟩ := (Reachable.stocked (hnext.trans hafter) hroom).entries hlater
  rw [hlater, hentryOf, Option.some.inj (hother.symm.trans hkept)]

end Memory.Chronicle

variable {n : Nat}

namespace Desk

/-- A node that is about to answer submissions. -/
def opened (c : Chronicle) (version : String) (submissions : Fin n → Submission) : Desk n Http.Response where
  node := c
  tasks i := Node.answer Task.backend version (submissions i).request

/-- A node that has answered submissions. -/
def closed (c : Chronicle) (responses : Fin n → Http.Response) : Desk n Http.Response where
  node := c
  tasks i := .done (responses i)

namespace Run

variable {c c' : Chronicle} {version : String} {submissions : Fin n → Submission} {trace : Trace n}

/-- A run of submissions is a run of the node. -/
theorem submissions_steps {d : Desk n Http.Response} (hrun : Run (opened c version submissions) trace d) :
    c.Steps d.node ∧ ∀ i, ∀ deed ∈ own trace i, ∃ c₁ : Chronicle, c.Steps c₁ ∧ c₁.memory = deed.before ∧
      c₁.Permits (.perform deed.op) ∧ (c₁.after (.perform deed.op)).Steps d.node := by
  obtain ⟨hsteps, hmem⟩ := hrun.steps_of_mem fun i => (submissions i).kind.answer_safe (submissions i).posts _
  exact ⟨hsteps, fun i deed hdeed => hmem (i, deed) (mem_own_iff.mp hdeed)⟩

variable {responses : Fin n → Http.Response}
  (hrun : Run (opened c version submissions) trace (closed c' responses))
include hrun

theorem answer_ends (i : Fin n) :
    (Node.answer Task.backend version (submissions i).request).Ends (own trace i) (responses i) :=
  hrun.ends (fun _ => rfl) i

theorem own_accounts (i : Fin n) : (submissions i).Accounts (own trace i) (responses i) :=
  Submission.accounts (hrun.answer_ends i)

/-- The items of a request that are in the pools, in the order in which they were added. -/
theorem own_pooled (i : Fin n) :
    own (noted Deed.pooled trace) i = (submissions i).pooled (responses i) := by
  rw [own_noted]
  exact (hrun.own_accounts i).pooled

/-- The items that are offered for a request, in the order in which they are. -/
theorem own_offered (i : Fin n) :
    (own (noted Deed.offered trace) i).map Prod.fst = (submissions i).offered (responses i) := by
  rw [own_noted]
  exact (hrun.own_accounts i).offered

/-- As a multiset, the pools have gained what the answers account for. -/
theorem coe_pooled_eq_sum : ((noted Deed.pooled trace).map Prod.snd : Multiset Gossip) =
    ∑ i, ((submissions i).pooled (responses i) : Multiset Gossip) := by
  rw [coe_map_snd_eq_sum_own]
  exact Finset.sum_congr rfl fun i _ => congrArg _ (hrun.own_pooled i)

theorem exits_gained : c'.memory.voluntaryExits = c.memory.voluntaryExits ++
    ((noted Deed.pooled trace).map Prod.snd).filterMap Gossip.voluntaryExit? :=
  hrun.gains.voluntaryExits

section Exits

variable {genesisTime : Timestamp} (h : Chronicle.Reachable genesisTime c) {validator : ValidatorIndex}
include h

/-- Of two requests that are not found bad, only one can hold an exit of a validator. -/
theorem exits_unique {i j : Fin n} (hi : (submissions i).Exits validator) (hgood : (responses i).status ≠ 400)
    (hj : (submissions j).Exits validator) (hgood' : (responses j).status ≠ 400) : i = j := by
  obtain ⟨exit, hexit, hvalidator⟩ := hi
  obtain ⟨other, hother, hvalidator'⟩ := hj
  have hmem : .voluntaryExit exit ∈ own (noted Deed.pooled trace) i := by
    rw [hrun.own_pooled]
    exact Submission.exit_mem_pooled_iff.mpr ⟨hexit, hgood⟩
  have hmem' : .voluntaryExit other ∈ own (noted Deed.pooled trace) j := by
    rw [hrun.own_pooled]
    exact Submission.exit_mem_pooled_iff.mpr ⟨hother, hgood'⟩
  have hdistinct : (c'.memory.voluntaryExits.map SignedVoluntaryExit.validator).Nodup :=
    Chronicle.Reachable.exits_distinct (h.trans hrun.submissions_steps.1)
  -- What has been added to the pool is part of it, so its validators are distinct as well.
  rw [hrun.exits_gained, List.map_append] at hdistinct
  have hnodup := (List.nodup_append.mp hdistinct).2.1
  rw [List.map_filterMap] at hnodup
  exact eq_of_nodup_marks hnodup hmem hmem' (congrArg some hvalidator) (congrArg some hvalidator')

/-- If an exit of a validator that has had none in the pool is found bad, another one has been taken. -/
theorem exists_exit_of_bad (hnone : ¬ c.memory.Pending validator) {i : Fin n}
    (hi : (submissions i).Exits validator) (hbad : (responses i).status = 400) :
    ∃ j, (submissions j).Exits validator ∧ (responses j).status ≠ 400 := by
  obtain ⟨exit, hexit, rfl⟩ := hi
  obtain ⟨hsize, hread⟩ := Submission.read_of_mem_items hexit
  obtain ⟨hkind, hbody⟩ := SubmissionKind.exit_of_mem_read hread hexit
  have hposts : (submissions i).request.Posts SubmissionKind.voluntaryExit.path := hkind ▸ (submissions i).posts
  obtain ⟨s, ⟨hpending, hdeeds, _⟩ | ⟨_, s', _, hstatus⟩⟩ :=
    BeaconApi.exit_ends hsize (hrun.answer_ends i) hposts hbody
  · -- The pool has only grown since the exit was found there.
    obtain ⟨_, hmem⟩ := hrun.submissions_steps
    obtain ⟨c₁, hbefore, rfl, hpermits, hafter⟩ :=
      hmem i ⟨.addVoluntaryExit exit, s⟩ (hdeeds ▸ List.mem_cons_self)
    obtain ⟨other, hother, hvalidator⟩ := hpending
    have hsteps : c₁.Steps c' := .head ⟨_, hpermits, rfl⟩ hafter
    obtain ⟨_, hgrown⟩ := hsteps.exits (Chronicle.Reachable.exits_distinct (h.trans hbefore))
    have hlater := hgrown.subset hother
    rw [hrun.exits_gained] at hlater
    rcases List.mem_append.mp hlater with hearlier | hgained
    · exact absurd ⟨other, hearlier, hvalidator⟩ hnone
    · obtain ⟨item, hitem, hsome⟩ := List.mem_filterMap.mp hgained
      obtain rfl := Gossip.eq_of_voluntaryExit? hsome
      obtain ⟨⟨j, _⟩, hnoted, rfl⟩ := List.mem_map.mp hitem
      have hmine := mem_own_iff.mpr hnoted
      rw [hrun.own_pooled] at hmine
      obtain ⟨hheld, hgood⟩ := Submission.exit_mem_pooled_iff.mp hmine
      exact ⟨j, ⟨other, hheld, hvalidator⟩, hgood⟩
  · rw [hbad] at hstatus
    cases hsyncing : s'.syncing <;> rw [hsyncing] at hstatus <;> cases hstatus

/-- Of the submissions with an exit of `validator`, exactly one is not answered with 400. `hnone` is needed,
since a `Pending` exit would bar all of them, and `hi` gives one to begin with. -/
theorem existsUnique_exit (hnone : ¬ c.memory.Pending validator) {i : Fin n}
    (hi : (submissions i).Exits validator) :
    ∃! j, (submissions j).Exits validator ∧ (responses j).status ≠ 400 := by
  have hexists : ∃ j, (submissions j).Exits validator ∧ (responses j).status ≠ 400 := by
    by_cases hbad : (responses i).status = 400
    · exact hrun.exists_exit_of_bad h hnone hi hbad
    · exact ⟨i, hi, hbad⟩
  obtain ⟨j, hj, hgood⟩ := hexists
  refine ⟨j, ⟨hj, hgood⟩, ?_⟩
  rintro other ⟨hother, hgood'⟩
  exact hrun.exits_unique h hother hgood' hj hgood

end Exits

section Blocks

variable {genesisTime : Timestamp} (h : Chronicle.Reachable genesisTime c)
  (hroom : c'.stored.length < Chronicle.capacity)
include h hroom

/-- Every block is kept under a new root, and has an entry under it if it was answered with success. -/
theorem exists_root {i : Fin n} {b : SignedBeaconBlock} (hmem : .block b ∈ (submissions i).items) :
    ∃ root, (root, b) ∈ own (noted Deed.stored trace) i ∧ c.KeptAs c' root b (responses i) := by
  obtain ⟨hsize, hread⟩ := Submission.read_of_mem_items hmem
  obtain ⟨hkind, hbody⟩ := SubmissionKind.block_of_mem_read hread hmem
  have hposts : (submissions i).request.Posts SubmissionKind.block.path := hkind ▸ (submissions i).posts
  obtain ⟨s, s', s'', hdeeds, hsuccess⟩ := block_ends hsize (hrun.answer_ends i) hposts hbody
  obtain ⟨hsteps, hdone⟩ := hrun.submissions_steps
  obtain ⟨c₁, hbefore, rfl, _, hafter⟩ := hdone i ⟨.storeBlock b, s'⟩ (by simp [hdeeds])
  obtain ⟨c₂, hbefore', rfl, hpermits, hafter'⟩ :=
    hdone i ⟨.addBlock (c₁.memory.storeBlock b).1 b, s''⟩ (by simp [hdeeds])
  obtain ⟨hfresh, hkept⟩ := Chronicle.kept_of_storeBlock hroom h hbefore hafter rfl
  refine ⟨(c₁.memory.storeBlock b).1, ?_, hfresh, hkept, fun hstatus => ?_⟩
  · rw [own_noted, hdeeds]
    exact List.mem_cons_self
  · exact Chronicle.added_of_addBlock hroom (h.trans hbefore') hpermits hafter' (hsuccess hstatus).2 hkept

/-- There is a root for each request, under which its block is kept if it holds one. -/
theorem exists_root_of_request (i : Fin n) : ∃ root, ∀ b, .block b ∈ (submissions i).items →
    (root, b) ∈ own (noted Deed.stored trace) i ∧ c.KeptAs c' root b (responses i) := by
  by_cases hsome : ∃ b, .block b ∈ (submissions i).items
  · obtain ⟨b, hmem⟩ := hsome
    obtain ⟨root, hroot⟩ := hrun.exists_root h hroom hmem
    refine ⟨root, fun other hother => ?_⟩
    obtain ⟨_, hread⟩ := Submission.read_of_mem_items hmem
    obtain ⟨_, hbody⟩ := SubmissionKind.block_of_mem_read hread hmem
    obtain ⟨_, hbody'⟩ := SubmissionKind.block_of_mem_read hread hother
    obtain rfl : b = other := Except.ok.inj (hbody.symm.trans hbody')
    exact hroot
  · exact ⟨.zero, fun b hmem => absurd ⟨b, hmem⟩ hsome⟩

/-- Blocks of different requests are kept under different roots. -/
theorem roots_distinct {i j : Fin n} {root : Root} {b b' : SignedBeaconBlock}
    (hi : (root, b) ∈ own (noted Deed.stored trace) i) (hj : (root, b') ∈ own (noted Deed.stored trace) j) :
    i = j := by
  have hreachable : Chronicle.Reachable genesisTime c' := h.trans hrun.submissions_steps.1
  have hdistinct := (hrun.stored_perm.map Prod.fst).nodup_iff.mp (hreachable.stored_distinct hroom)
  rw [List.map_append] at hdistinct
  have hnodup := (List.nodup_append.mp hdistinct).1
  rw [← List.filterMap_eq_map] at hnodup
  exact eq_of_nodup_marks hnodup hi hj rfl rfl

end Blocks

end Run

/-- What a node has gained when it has answered submissions, and what it has answered. -/
structure Accounted (c c' : Chronicle) (submissions : Fin n → Submission) (responses : Fin n → Http.Response)
    (trace : Trace n) : Prop where
  /-- The pools have gained what was added to them, and the peers what was offered to them while the node was
  not syncing. -/
  gains : c.memory.Gains c'.memory ((noted Deed.pooled trace).map Prod.snd)
    (passedOn ((noted Deed.offered trace).map Prod.snd))
  /-- What was added for a request is what its answer accounts for, in the order of the request. -/
  pooled (i : Fin n) : own (noted Deed.pooled trace) i = (submissions i).pooled (responses i)
  /-- Nothing is in the pools twice, and nothing else is there. -/
  counted : ((noted Deed.pooled trace).map Prod.snd : Multiset Gossip) =
    ∑ i, ((submissions i).pooled (responses i) : Multiset Gossip)
  /-- What was offered for a request is what its answer accounts for, and every block. -/
  offered (i : Fin n) : (own (noted Deed.offered trace) i).map Prod.fst = (submissions i).offered (responses i)
  /-- Every item of a request that is answered with success has been passed on, and is in the pool if it is no
  block. -/
  succeeded (i : Fin n) (h : (responses i).status = 200) :
    passedOn (own (noted Deed.offered trace) i) = (submissions i).items ∧
      ((submissions i).kind ≠ .block → own (noted Deed.pooled trace) i = (submissions i).items)
  /-- A body that is too large is refused, and nothing is done about it. -/
  oversized (i : Fin n) (h : Router.maxBodySize < (submissions i).request.body.size) :
    (responses i).status = 413 ∧ own trace i = []
  /-- Of the exits of a validator that has had none in the pool, exactly one is not found bad. -/
  exits (validator : ValidatorIndex) (hnone : ¬ c.memory.Pending validator)
    (hsome : ∃ i, (submissions i).Exits validator) :
    ∃! i, (submissions i).Exits validator ∧ (responses i).status ≠ 400
  /-- Every block is kept under a new root of its own, and is in the chain if it was answered with success, as
  long as there are numbers for all blocks. -/
  blocks (hroom : c'.stored.length < Chronicle.capacity) : ∃ roots : Fin n → Root,
    (∀ i b, .block b ∈ (submissions i).items → c.KeptAs c' (roots i) b (responses i)) ∧
      ∀ i j b b', .block b ∈ (submissions i).items → .block b' ∈ (submissions j).items →
        roots i = roots j → i = j

/-- Whenever the tasks of `submissions` finish in a `Run`, in any interleaving and with `setSyncing` in between,
the answers account for what the node has gained (`Accounted`). Each task is `Node.answer` over `Task.backend`,
so that another one may come between any two operations. Reachability of `c` is used for the exits and the roots
that are there at the start, and the conjunct on blocks asks for `capacity` itself. -/
theorem submissions_accounted {genesisTime : Timestamp} {c c' : Chronicle}
    (h : Chronicle.Reachable genesisTime c) {version : String} {submissions : Fin n → Submission}
    {trace : Trace n} {responses : Fin n → Http.Response}
    (hrun : Run (opened c version submissions) trace (closed c' responses)) :
    Accounted c c' submissions responses trace where
  gains := hrun.gains
  pooled := hrun.own_pooled
  counted := hrun.coe_pooled_eq_sum
  offered := hrun.own_offered
  succeeded i hstatus := by
    obtain ⟨hsent, hpooled⟩ := (hrun.own_accounts i).succeeded hstatus
    rw [own_noted, hrun.own_pooled]
    exact ⟨hsent, hpooled⟩
  oversized i hsize := by
    obtain ⟨_, hdeeds, hstatus⟩ | ⟨hsmall, _⟩ :=
      (submissions i).kind.answer_ends (submissions i).posts (hrun.answer_ends i)
    · exact ⟨hstatus, hdeeds⟩
    · exact absurd hsize (Nat.not_lt.mpr hsmall)
  exits validator hnone hsome := by
    obtain ⟨i, hi⟩ := hsome
    exact hrun.existsUnique_exit h hnone hi
  blocks hroom := by
    choose roots hroots using hrun.exists_root_of_request h hroom
    refine ⟨roots, fun i b hb => (hroots i b hb).2, fun i j b b' hb hb' heq => ?_⟩
    have hj := (hroots j b' hb').1
    rw [← heq] at hj
    exact hrun.roots_distinct h hroom (hroots i b hb).1 hj

/-- An exit that is submitted with spaces before its text. -/
def exitSubmission (spaces : Nat) (exit : SignedVoluntaryExit) : Submission where
  kind := .voluntaryExit
  request := Memory.exitRequest spaces exit
  posts := Memory.exitRequest_posts spaces exit

theorem exitSubmission_exits {exit : SignedVoluntaryExit}
    (hsize : (exitSubmission 0 exit).request.body.size ≤ Router.maxBodySize) :
    (exitSubmission 0 exit).Exits exit.validator := by
  have hread : (exitSubmission 0 exit).kind.read (exitSubmission 0 exit).request.body =
      .ok [.voluntaryExit exit] :=
    map_eq_ok_iff.mpr ⟨exit, Memory.decodeContents_exitRequest 0 exit, rfl⟩
  refine ⟨exit, ?_, rfl⟩
  rw [Submission.items_of_read hsize hread]
  exact List.mem_cons_self

/-- Two requests that submit an exit of the same validator to a new node can be worked on at the same time, and
then exactly one of them is not found bad. -/
theorem one_of_two_exits : ∃ trace c' responses,
    Run (opened (.initial ⟨0⟩) "" fun _ : Fin 2 => exitSubmission 0 default) trace (closed c' responses) ∧
      ∃! i, (responses i).status ≠ 400 := by
  obtain ⟨trace, c', responses, hrun⟩ :=
    exists_run (opened (.initial ⟨0⟩) "" fun _ : Fin 2 => exitSubmission 0 default)
  have hnew : Chronicle.Reachable ⟨0⟩ (.initial ⟨0⟩) := .refl
  have haccounted := submissions_accounted hnew hrun
  have hexits : (exitSubmission 0 default).Exits (default : SignedVoluntaryExit).validator :=
    exitSubmission_exits ((Memory.size_exitRequest_le 0 default).trans (by decide +kernel))
  have hnone : ¬ (Chronicle.initial ⟨0⟩).memory.Pending (default : SignedVoluntaryExit).validator := by
    rintro ⟨_, hmem, _⟩
    cases hmem
  obtain ⟨j, ⟨_, hgood⟩, hunique⟩ := haccounted.exits _ hnone ⟨0, hexits⟩
  exact ⟨trace, c', responses, hrun, j, hgood, fun other hother => hunique other ⟨hexits, hother⟩⟩

/-- An exit that is not found bad is not in the pool if enough spaces stand before it. -/
theorem padded_exit_not_pooled : ∃ trace c' responses,
    Run (opened (.initial ⟨0⟩) "" fun _ : Fin 1 => exitSubmission Router.maxBodySize default) trace
        (closed c' responses) ∧
      Body.decodeContents (exitSubmission Router.maxBodySize default).request.body =
        .ok (default : SignedVoluntaryExit) ∧
      (responses 0).status = 413 ∧ c'.memory.voluntaryExits = [] := by
  let submission := exitSubmission Router.maxBodySize default
  obtain ⟨response, hanswer, hstatus⟩ := submission.kind.answer_oversized Task.backend "" submission.posts
    (Memory.lt_size_exitRequest _ _)
  have hdone : opened (.initial ⟨0⟩) "" (fun _ : Fin 1 => submission) =
      closed (.initial ⟨0⟩) fun _ => response := congrArg _ (funext fun _ => hanswer)
  refine ⟨[], .initial ⟨0⟩, fun _ => response, ?_, Memory.decodeContents_exitRequest _ _, hstatus, rfl⟩
  rw [hdone]
  exact .stay _

end Desk

end BeaconApi
