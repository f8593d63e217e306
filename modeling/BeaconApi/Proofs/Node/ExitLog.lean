import Mathlib.Data.List.Nodup
import BeaconApi.Proofs.Node.Traces

namespace BeaconApi.Memory

/-- What a node is given, one after another. -/
inductive Input
  | request (request : Http.Request)
  | setSyncing (syncing : Bool)

/-- A node after an input. -/
def Input.apply (version : String) (s : Memory) : Input → Memory
  | request r => ((Node.answer backend version r).run s).2
  | setSyncing syncing => s.setSyncing syncing

/-- A node after a sequence of inputs. -/
def serve (version : String) (s : Memory) (inputs : List Input) : Memory :=
  inputs.foldl (Input.apply version) s

theorem serve_request {version : String} {s s' : Memory} {request : Http.Request} {response : Http.Response}
    (h : (Node.answer backend version request).run s = (response, s')) (inputs : List Input) :
    serve version s (.request request :: inputs) = serve version s' inputs := by
  rw [serve, List.foldl_cons, Input.apply, h]
  rfl

/-- The exit that a request submits, if it submits one. -/
def submittedExit? (request : Http.Request) : Option SignedVoluntaryExit :=
  if request.method = "POST" ∧
      (Http.Target.ofString request.target).path = SubmissionKind.voluntaryExit.path then
    (Body.decodeContents request.body).toOption
  else none

/-- The exit that a request submits, if it was answered with success or with the syncing of the node, and
whether the node was syncing. -/
def takenExits (request : Http.Request) (response : Http.Response) (syncing : Bool) :
    List (SignedVoluntaryExit × Bool) :=
  if response.status ∈ [200, 503] then (submittedExit? request).toList.map fun exit => (exit, syncing)
  else []

/-- The exits that are taken with an input. -/
def Input.taken (version : String) (s : Memory) : Input → List (SignedVoluntaryExit × Bool)
  | request r => takenExits r ((Node.answer backend version r).run s).1 s.syncing
  | setSyncing _ => []

/-- The exits that are taken with a sequence of inputs. -/
def exitLog (version : String) : Memory → List Input → List (SignedVoluntaryExit × Bool)
  | _, [] => []
  | s, input :: inputs => input.taken version s ++ exitLog version (input.apply version s) inputs

/-- Exits go into the pool of a node, one for each validator that has none there, and those go on that are
taken while the node is not syncing. -/
structure TakesExits (s : Memory) (log : List (SignedVoluntaryExit × Bool)) (s' : Memory) : Prop where
  pool : s'.voluntaryExits = s.voluntaryExits ++ log.map Prod.fst
  published : s'.published.voluntaryExits =
    s.published.voluntaryExits ++ (log.filter fun taken => !taken.2).map Prod.fst
  fresh : ∀ taken ∈ log, ¬ s.Pending taken.1.validator
  distinct : (log.map fun taken => taken.1.validator).Nodup

namespace TakesExits

variable {s s' s'' : Memory} {log more : List (SignedVoluntaryExit × Bool)}

/-- Nothing is taken where the exits stay as they are. -/
theorem nil (hpool : s'.voluntaryExits = s.voluntaryExits)
    (hpublished : s'.published.voluntaryExits = s.published.voluntaryExits) : TakesExits s [] s' where
  pool := by rw [hpool, List.map_nil, List.append_nil]
  published := by rw [hpublished, List.filter_nil, List.map_nil, List.append_nil]
  fresh _ hmem := nomatch hmem
  distinct := List.nodup_nil

theorem single {exit : SignedVoluntaryExit} (hpending : ¬ s.Pending exit.validator) :
    TakesExits s [(exit, s.syncing)] (s.takeExit exit) where
  pool := rfl
  published := by
    unfold takeExit
    cases hsyncing : s.syncing with
    | true => simp
    | false => simp [Published.push]
  fresh := by
    intro taken hmem
    obtain rfl := List.mem_singleton.mp hmem
    exact hpending
  distinct := List.pairwise_singleton _ _

/-- A validator has an exit in the pool exactly if it had one, or if one was taken. -/
theorem pending_iff (h : TakesExits s log s') (validator : ValidatorIndex) :
    s'.Pending validator ↔ s.Pending validator ∨ ∃ taken ∈ log, taken.1.validator = validator := by
  unfold Pending
  rw [h.pool]
  constructor
  · rintro ⟨exit, hmem, hvalidator⟩
    rcases List.mem_append.mp hmem with hold | hnew
    · exact .inl ⟨exit, hold, hvalidator⟩
    · obtain ⟨taken, htaken, rfl⟩ := List.mem_map.mp hnew
      exact .inr ⟨taken, htaken, hvalidator⟩
  · rintro (⟨exit, hold, hvalidator⟩ | ⟨taken, htaken, hvalidator⟩)
    · exact ⟨exit, List.mem_append_left _ hold, hvalidator⟩
    · exact ⟨taken.1, List.mem_append_right _ (List.mem_map_of_mem htaken), hvalidator⟩

theorem trans (h : TakesExits s log s') (h' : TakesExits s' more s'') : TakesExits s (log ++ more) s'' where
  pool := by rw [h'.pool, h.pool, List.map_append, List.append_assoc]
  published := by rw [h'.published, h.published, List.filter_append, List.map_append, List.append_assoc]
  fresh := by
    intro taken hmem hpending
    rcases List.mem_append.mp hmem with hold | hnew
    · exact h.fresh taken hold hpending
    · exact h'.fresh taken hnew ((h.pending_iff _).mpr (.inl hpending))
  distinct := by
    rw [List.map_append, List.nodup_append]
    refine ⟨h.distinct, h'.distinct, ?_⟩
    -- Whoever was taken first has an exit in the pool when the others are taken.
    rintro validator hold _ hnew rfl
    obtain ⟨taken, htaken, rfl⟩ := List.mem_map.mp hold
    obtain ⟨later, hlater, hsame⟩ := List.mem_map.mp hnew
    exact h'.fresh later hlater ((h.pending_iff _).mpr (.inr ⟨taken, htaken, hsame.symm⟩))

/-- An exit logged as taken while syncing is in the pool, and no exit of its validator is published. `hnone`
asks this of the start, since `TakesExits` accounts for the log alone. -/
theorem unsent (h : TakesExits s log s') {exit : SignedVoluntaryExit} (hmem : (exit, true) ∈ log)
    (hnone : ∀ other ∈ s.published.voluntaryExits, other.validator ≠ exit.validator) :
    exit ∈ s'.voluntaryExits ∧ ∀ other ∈ s'.published.voluntaryExits, other.validator ≠ exit.validator := by
  constructor
  · rw [h.pool]
    exact List.mem_append_right _ (List.mem_map.mpr ⟨_, hmem, rfl⟩)
  · intro other hother hsame
    rw [h.published] at hother
    rcases List.mem_append.mp hother with hold | hnew
    · exact hnone other hold hsame
    · obtain ⟨taken, htaken, rfl⟩ := List.mem_map.mp hnew
      obtain ⟨hlog, hsent⟩ := List.mem_filter.mp htaken
      -- The log has one exit of the validator, and that one was not passed on.
      obtain rfl : taken = (exit, true) := List.inj_on_of_nodup_map h.distinct hlog hmem hsame
      cases hsent

end TakesExits

section Effects

variable {s : Memory}

theorem submitBlock_exits (s : Memory) (b : SignedBeaconBlock) :
    (s.submitBlock b).voluntaryExits = s.voluntaryExits ∧
      (s.submitBlock b).published.voluntaryExits = s.published.voluntaryExits := by
  obtain ⟨entries, canonical, head, hadd⟩ := (s.keepBlock b).addBlock_frame (s.storeBlock b).1 b
  rw [submitBlock, hadd, keepBlock_eq]
  cases s.syncing <;> exact ⟨rfl, rfl⟩

theorem take_exits (kind : BatchKind) (s : Memory) (items : List kind.Item) :
    (kind.take s items).voluntaryExits = s.voluntaryExits ∧
      (kind.take s items).published.voluntaryExits = s.published.voluntaryExits := by
  cases kind <;> refine ⟨rfl, ?_⟩ <;> simp only [BatchKind.take] <;> split <;> rfl

theorem submittedExit?_of_posts {request : Http.Request} {kind : SubmissionKind}
    (hposts : request.Posts kind.path) (hkind : kind ≠ .voluntaryExit) : submittedExit? request = none := by
  refine if_neg ?_
  rintro ⟨_, hpath⟩
  exact hkind (SubmissionKind.path_injective (hposts.path.symm.trans hpath))

theorem takenExits_of_none {request : Http.Request} (h : submittedExit? request = none)
    (response : Http.Response) (syncing : Bool) : takenExits request response syncing = [] := by
  rw [takenExits, h, Option.toList_none, List.map_nil, ite_self]

/-- With every effect, the exit is taken that is submitted, unless it is refused. -/
theorem Effect.takesExits {request : Http.Request} {response : Http.Response} {s' : Memory}
    (h : s.Effect request response s') : TakesExits s (takenExits request response s.syncing) s' := by
  cases h with
  | none hnone =>
    have htaken : takenExits request response s.syncing = [] := by
      rcases hnone with hmethod | hstatus
      · exact takenExits_of_none (if_neg fun hposts => hmethod hposts.1) _ _
      · have hother : ∀ code ∈ [400, 404, 405, 413], code ∉ ([200, 503] : List UInt16) := by simp
        exact if_neg (hother _ hstatus)
    rw [htaken]
    exact .nil rfl rfl
  | batch hposts _ =>
    obtain ⟨hpool, hpublished⟩ := take_exits _ s _
    have hposts : request.Posts (SubmissionKind.batch _).path := hposts
    rw [takenExits_of_none (submittedExit?_of_posts hposts nofun)]
    exact .nil hpool hpublished
  | exit hposts hbody hpending hstatus =>
    have hsuccess : response.status ∈ [200, 503] := by
      rw [hstatus]
      split <;> simp
    have hexit : submittedExit? request = some _ :=
      (if_pos ⟨hposts.method, hposts.path⟩).trans (congrArg Except.toOption hbody)
    rw [takenExits, if_pos hsuccess, hexit]
    exact .single hpending
  | block hposts _ =>
    obtain ⟨hpool, hpublished⟩ := s.submitBlock_exits _
    rw [takenExits_of_none (submittedExit?_of_posts hposts nofun)]
    exact .nil hpool hpublished

end Effects

section Runs

variable {genesisTime : Timestamp} {c : Chronicle} (h : Chronicle.Reachable genesisTime c) (version : String)
include h

/-- An input takes the exit that it submits, unless it is refused. -/
theorem Input.takesExits (input : Input) :
    TakesExits c.memory (input.taken version c.memory) (input.apply version c.memory) := by
  cases input with
  | setSyncing syncing => exact .nil rfl rfl
  | request r =>
    obtain ⟨response, s', hrun, heffect⟩ := h.answer_effect version r
    change TakesExits c.memory (takenExits r ((Node.answer backend version r).run c.memory).1 c.memory.syncing)
      ((Node.answer backend version r).run c.memory).2
    rw [hrun]
    exact heffect.takesExits

/-- An input is a run. -/
theorem Input.exists_steps (input : Input) : ∃ c', c.Steps c' ∧ input.apply version c.memory = c'.memory := by
  cases input with
  | setSyncing syncing => exact ⟨_, .single ⟨.setSyncing syncing, trivial, rfl⟩, rfl⟩
  | request r =>
    obtain ⟨sent, c', hsteps, hrun, _⟩ := respond_run h.ready version r
    exact ⟨c', hsteps, congrArg Prod.snd (answer_run hrun)⟩

/-- A node takes the exits of its log, however it got to where the log begins. -/
theorem serve_takesExits (inputs : List Input) :
    TakesExits c.memory (exitLog version c.memory inputs) (serve version c.memory inputs) := by
  induction inputs generalizing c with
  | nil => exact .nil rfl rfl
  | cons input inputs ih =>
    have hfirst := input.takesExits h version
    obtain ⟨c', hsteps, happly⟩ := input.exists_steps h version
    rw [serve, List.foldl_cons, exitLog, happly]
    rw [happly] at hfirst
    exact hfirst.trans (ih (h.trans hsteps))

theorem serve_exists_steps (inputs : List Input) :
    ∃ c', c.Steps c' ∧ serve version c.memory inputs = c'.memory := by
  induction inputs generalizing c with
  | nil => exact ⟨c, .refl, rfl⟩
  | cons input inputs ih =>
    obtain ⟨c₁, hsteps, happly⟩ := input.exists_steps h version
    obtain ⟨c₂, hsteps', hserve⟩ := ih (h.trans hsteps)
    refine ⟨c₂, hsteps.trans hsteps', ?_⟩
    rw [serve, List.foldl_cons, happly]
    exact hserve

/-- What a node answers to an exit after it has taken those of a log, and what becomes of the exit. -/
theorem answer_exit_of_log {log : List (SignedVoluntaryExit × Bool)}
    (hlog : TakesExits (.new genesisTime) log c.memory) {request : Http.Request} {exit : SignedVoluntaryExit}
    (hposts : request.Posts SubmissionKind.voluntaryExit.path)
    (hbody : Body.decodeContents request.body = .ok exit) : ∃ response s',
      (Node.answer backend version request).run c.memory = (response, s') ∧
      (Router.maxBodySize < request.body.size → response.status = 413 ∧ s' = c.memory) ∧
      (request.body.size ≤ Router.maxBodySize → response.status =
        if c.memory.Pending exit.validator then 400 else if c.memory.syncing then 503 else 200) ∧
      (response.status = 503 → ∀ more, exit ∈ (serve version s' more).voluntaryExits ∧
        ∀ other ∈ (serve version s' more).published.voluntaryExits, other.validator ≠ exit.validator) := by
  by_cases hsize : request.body.size ≤ Router.maxBodySize
  · obtain ⟨response, hrun, hstatus⟩ := answer_exit version hposts hsize hbody c.memory
    refine ⟨response, _, hrun, fun hlarge => absurd hsize (Nat.not_le.mpr hlarge), fun _ => hstatus, ?_⟩
    intro hunsent more
    rw [hstatus] at hunsent
    have htaken : ¬ c.memory.Pending exit.validator ∧ c.memory.syncing = true := by
      constructor
      · intro hpending
        rw [if_pos hpending] at hunsent
        cases hunsent
      · by_contra hsyncing
        rw [if_neg hsyncing] at hunsent
        split at hunsent <;> cases hunsent
    obtain ⟨hpending, hsyncing⟩ := htaken
    rw [if_neg hpending]
    have happly : Input.apply version c.memory (.request request) = c.memory.takeExit exit := by
      rw [if_neg hpending] at hrun
      exact congrArg Prod.snd hrun
    obtain ⟨c', hsteps, hafter⟩ := Input.exists_steps h version (.request request)
    have hmore := serve_takesExits (h.trans hsteps) version more
    rw [← hafter, happly] at hmore
    have hall := (hlog.trans (.single hpending)).trans hmore
    refine hall.unsent ?_ fun other hother => nomatch hother
    rw [hsyncing]
    exact List.mem_append_left _ (List.mem_append_right _ List.mem_cons_self)
  · obtain ⟨response, hrun, hstatus⟩ :=
      (publishVoluntaryExit_route version).post_oversized hposts (Nat.not_le.mp hsize) c.memory
    refine ⟨response, _, hrun, fun _ => ⟨hstatus, rfl⟩, fun hsmall => absurd hsmall hsize, ?_⟩
    intro hunsent
    cases hstatus.symm.trans hunsent

end Runs

/-- A request that posts an exit, with spaces before its text. -/
def exitRequest (spaces : Nat) (exit : SignedVoluntaryExit) : Http.Request :=
  ⟨"POST", SubmissionKind.voluntaryExit.path, Body.padded spaces (Payload.encode exit).toUTF8⟩

section Requests

variable (spaces : Nat) (exit : SignedVoluntaryExit)

theorem exitRequest_posts : (exitRequest spaces exit).Posts SubmissionKind.voluntaryExit.path :=
  (publishVoluntaryExit_route "").isPath.posts _

theorem readsBack_exit : Body.ReadsBack exit := by
  have hdepth := PayloadKind.signedVoluntaryExit.shape_depth
  exact .of_regular PayloadKind.signedVoluntaryExit.shape_regular (by omega) exit

theorem decodeContents_exitRequest : Body.decodeContents (exitRequest spaces exit).body = .ok exit :=
  (Body.decodeContents_padded spaces _).trans (readsBack_exit exit).decodeContents

theorem size_exitRequest : (exitRequest spaces exit).body.size =
    spaces + (Payload.encode exit).toUTF8.size :=
  Body.size_padded spaces _

theorem size_exitRequest_le : (exitRequest spaces exit).body.size ≤ spaces + (Payload.toJson exit).extent := by
  have hextent := (Payload.toJson exit).size_render_le
  rw [size_exitRequest]
  exact Nat.add_le_add_left hextent spaces

theorem lt_size_exitRequest : spaces < (exitRequest spaces exit).body.size := by
  have hnonempty := Body.size_pos_of_nonblank (readsBack_exit exit).nonblank
  rw [size_exitRequest]
  exact Nat.lt_add_of_pos_right hnonempty

end Requests

/-- After any `inputs` of a new node the pool of exits is its `exitLog`, with one exit of a validator at most,
and the published ones are those that were taken while the node was not syncing. `addVoluntaryExit` turns a
validator with a `Pending` exit away, so an exit that was answered with 503 bars the later ones of its validator
and is never published. The size of the body decides between 413 and the handler, whatever is pending. -/
theorem exits_of_run (genesisTime : Timestamp) (version : String) (inputs : List Input) :
    let s := serve version (.new genesisTime) inputs
    let log := exitLog version (.new genesisTime) inputs
    (s.voluntaryExits.map SignedVoluntaryExit.validator).Nodup ∧
    s.voluntaryExits = log.map Prod.fst ∧
    s.published.voluntaryExits = (log.filter fun taken => !taken.2).map Prod.fst ∧
    (∀ more, s.voluntaryExits <+: (serve version s more).voluntaryExits) ∧
    ∀ request exit, request.Posts SubmissionKind.voluntaryExit.path →
      Body.decodeContents request.body = .ok exit → ∃ response s',
        (Node.answer backend version request).run s = (response, s') ∧
        (Router.maxBodySize < request.body.size → response.status = 413 ∧ s' = s) ∧
        (request.body.size ≤ Router.maxBodySize → response.status =
          if s.Pending exit.validator then 400 else if s.syncing then 503 else 200) ∧
        (response.status = 503 → ∀ more, exit ∈ (serve version s' more).voluntaryExits ∧
          ∀ other ∈ (serve version s' more).published.voluntaryExits, other.validator ≠ exit.validator) := by
  intro s log
  have hnew : Chronicle.Reachable genesisTime (.initial genesisTime) := .refl
  have htakes : TakesExits (.new genesisTime) log s := serve_takesExits hnew version inputs
  obtain ⟨c, hreachable, hserve⟩ := serve_exists_steps hnew version inputs
  have hs : s = c.memory := hserve
  clear_value s
  subst hs
  refine ⟨?_, htakes.pool, htakes.published, ?_, ?_⟩
  · have hpool : c.memory.voluntaryExits = log.map Prod.fst := htakes.pool
    rw [hpool, List.map_map]
    exact htakes.distinct
  · intro more
    rw [(serve_takesExits hreachable version more).pool]
    exact List.prefix_append _ _
  · intro request exit hposts hbody
    exact answer_exit_of_log hreachable version htakes hposts hbody

/-- An exit that is submitted while the node is syncing stays in the pool, and is not passed on even when it is
submitted again after that. -/
theorem exit_of_syncing_run : ∃ response s',
    (Node.answer backend "" (exitRequest 0 default)).run (serve "" (.new ⟨0⟩) [.setSyncing true]) =
        (response, s') ∧
      response.status = 503 ∧
      default ∈ (serve "" s' [.setSyncing false, .request (exitRequest 0 default)]).voluntaryExits ∧
      (serve "" s' [.setSyncing false, .request (exitRequest 0 default)]).published.voluntaryExits.all
        fun other => other.validator ≠ (default : SignedVoluntaryExit).validator := by
  obtain ⟨_, _, _, _, hsubmitted⟩ := exits_of_run ⟨0⟩ "" [.setSyncing true]
  obtain ⟨response, s', hrun, _, hstatus, hunsent⟩ := hsubmitted _ _ (exitRequest_posts 0 default)
    (decodeContents_exitRequest 0 default)
  have hnone : ¬ (serve "" (.new ⟨0⟩) [.setSyncing true]).Pending (default : SignedVoluntaryExit).validator := by
    rintro ⟨_, hmem, _⟩
    cases hmem
  have hsyncing : response.status = 503 := by
    rw [hstatus ((size_exitRequest_le 0 default).trans (by decide +kernel)), if_neg hnone]
    rfl
  obtain ⟨hpool, hpublished⟩ := hunsent hsyncing [.setSyncing false, .request (exitRequest 0 default)]
  refine ⟨response, s', hrun, hsyncing, hpool, List.all_eq_true.mpr fun other hother => ?_⟩
  exact decide_eq_true (hpublished other hother)

/-- An exit of a validator that has one in the pool is not refused for that if enough spaces stand before it. -/
theorem padded_exit_not_pending : ∃ s response,
    s = serve "" (.new ⟨0⟩) [.request (exitRequest 0 default)] ∧
      s.Pending (default : SignedVoluntaryExit).validator ∧
      Body.decodeContents (exitRequest Router.maxBodySize default).body = .ok (default : SignedVoluntaryExit) ∧
      (Node.answer backend "" (exitRequest Router.maxBodySize default)).run s = (response, s) ∧
      response.status = 413 := by
  have hsmall : (exitRequest 0 default).body.size ≤ Router.maxBodySize :=
    (size_exitRequest_le 0 default).trans (by decide +kernel)
  obtain ⟨_, hrun, _⟩ := answer_exit "" (exitRequest_posts 0 default) hsmall
    (decodeContents_exitRequest 0 default) (new ⟨0⟩)
  have hnone : ¬ (new ⟨0⟩).Pending (default : SignedVoluntaryExit).validator := by
    rintro ⟨_, hmem, _⟩
    cases hmem
  rw [if_neg hnone] at hrun
  have hserve : serve "" (.new ⟨0⟩) [.request (exitRequest 0 default)] = (new ⟨0⟩).takeExit default :=
    serve_request hrun []
  obtain ⟨response, hrefused, hstatus⟩ := (publishVoluntaryExit_route "").post_oversized
    (exitRequest_posts Router.maxBodySize default) (lt_size_exitRequest _ _)
    (serve "" (.new ⟨0⟩) [.request (exitRequest 0 default)])
  refine ⟨_, response, rfl, ?_, decodeContents_exitRequest _ _, hrefused, hstatus⟩
  rw [hserve]
  exact ⟨default, List.mem_cons_self, rfl⟩

end BeaconApi.Memory
