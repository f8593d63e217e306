import BeaconApi.Proofs.Concurrent.Handlers

namespace BeaconApi

namespace Task

section Handlers

variable {α β : Type}

theorem runAlone_readBody [Payload α] (r : IncomingRequest) {f : α → ExceptT PreparedResponse Task β}
    {g : α → ExceptT PreparedResponse (StateM Memory) β} (h : ∀ x, (f x).run.runAlone = (g x).run) :
    (liftM (readBody r : Except PreparedResponse α) >>= f).run.runAlone =
      (liftM (readBody r : Except PreparedResponse α) >>= g).run := by
  cases hbody : (readBody r : Except PreparedResponse α) with
  | error refusal => rfl
  | ok x => exact h x

theorem runAlone_ask {op : Operation α} {f : α → ExceptT PreparedResponse Task β}
    {g : α → ExceptT PreparedResponse (StateM Memory) β} (h : ∀ a, (f a).run.runAlone = (g a).run) :
    (Task.backend.ask op >>= f).run.runAlone = (Memory.backend.ask op >>= g).run := by
  unfold Backend.ask
  rw [ExceptT.run_bind_lift, ExceptT.run_bind_lift, runAlone_bind, runAlone_perform, funext h]

end Handlers

theorem runAlone_publishVoluntaryExit (r : IncomingRequest) :
    (Endpoint.publishVoluntaryExit Task.backend r).run.runAlone =
      (Endpoint.publishVoluntaryExit Memory.backend r).run := by
  refine runAlone_readBody r fun exit => runAlone_ask fun added => ?_
  cases added with
  | error e => rfl
  | ok =>
    refine runAlone_ask fun sent => ?_
    rcases sent with _ | (_ | _) <;> rfl

theorem runAlone_publishBlock (r : IncomingRequest) :
    (Endpoint.publishBlock Task.backend r).run.runAlone = (Endpoint.publishBlock Memory.backend r).run := by
  refine runAlone_readBody r fun b => runAlone_ask fun published => runAlone_ask fun stored => ?_
  cases stored with
  | error e => rfl
  | ok root =>
    refine runAlone_ask fun imported => ?_
    rcases published with _ | (_ | _)
    · rfl
    · rcases imported with (_ | _ | _) | _ <;> rfl
    · rfl

theorem runAlone_accept (kind : BatchKind) (item : kind.Item) :
    (kind.acceptTask item).runAlone = kind.accept item := by
  cases kind with
  | attestations =>
    refine congrArg _ (funext fun found => ?_)
    cases found with
    | none => rfl
    | some entry =>
      refine congrArg _ (funext fun added => ?_)
      cases added <;> rfl
  | syncCommitteeMessages =>
    refine congrArg _ (funext fun added => ?_)
    cases added <;> rfl

theorem runAlone_acceptFrom (kind : BatchKind) (items : List kind.Item) (index : Nat) (outcome : BatchOutcome) :
    (acceptFrom kind.acceptTask index outcome items).runAlone = acceptFrom kind.accept index outcome items := by
  induction items generalizing index outcome with
  | nil => rfl
  | cons item items ih =>
    rw [acceptFrom, runAlone_bind, runAlone_accept, acceptFrom]
    exact congrArg _ (funext fun result => ih _ _)

theorem runAlone_endpoint (kind : SubmissionKind) (r : IncomingRequest) :
    (kind.endpoint Task.backend r).run.runAlone = (kind.endpoint Memory.backend r).run := by
  cases kind with
  | batch kind =>
    have hendpoint : (SubmissionKind.batch kind).endpoint Memory.backend r = kind.endpoint Memory.backend r := by
      cases kind <;> rfl
    rw [hendpoint, kind.endpoint_task_eq, kind.endpoint_eq]
    refine runAlone_readBody r fun items => ?_
    rw [ExceptT.run_bind_lift, ExceptT.run_bind_lift, runAlone_bind, acceptIndexed, runAlone_acceptFrom]
    rfl
  | voluntaryExit => exact runAlone_publishVoluntaryExit r
  | block => exact runAlone_publishBlock r

end Task

/-- A submission is answered in one go when its operations are carried out one right after another. -/
theorem SubmissionKind.runAlone_answer {kind : SubmissionKind} {request : Http.Request}
    (hposts : request.Posts kind.path) (version : String) :
    (Node.answer Task.backend version request).runAlone = Node.answer Memory.backend version request := by
  rw [answer_eq Task.backend version hposts, answer_eq Memory.backend version hposts]
  split
  · rfl
  · rw [Task.runAlone_map]
    unfold Reply.response
    rw [Task.runAlone_bind, Task.runAlone_endpoint]
    refine congrArg _ (congrArg _ (funext fun outcome => ?_))
    cases outcome <;> rfl

/-- From any desk a task of a submission can run alone to its end, and then response and memory are those of
`Node.answer` over `Memory.backend`. So the answers in one go are among the runs of a `Desk`. -/
theorem Desk.exists_run_alone {n : Nat} (d : Desk n Http.Response) {i : Fin n} {kind : SubmissionKind}
    {request : Http.Request} (hposts : request.Posts kind.path) {version : String}
    (htask : d.tasks i = Node.answer Task.backend version request) :
    ∃ trace node response,
      (Node.answer Memory.backend version request).run d.node.memory = (response, node.memory) ∧
      Run d trace ⟨node, Function.update d.tasks i (.done response)⟩ := by
  obtain ⟨trace, node, hrun, hmemory⟩ := d.exists_run_done i
  rw [htask, SubmissionKind.runAlone_answer hposts] at hrun hmemory
  exact ⟨trace, node, _, Prod.ext rfl hmemory.symm, hrun⟩

end BeaconApi
