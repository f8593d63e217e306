import BeaconApi.Proofs.Node.Batches

universe u

namespace BeaconApi

/-- A path without placeholders is the only one that its pattern matches. -/
theorem Pattern.eq_of_captures?_characters {lead path : List Char} {captures : List (String × List Char)}
    (h : captures? (lead.map .character) path = some captures) : path = lead ∧ captures = [] := by
  induction lead generalizing path with
  | nil =>
    cases path with
    | nil =>
      cases h
      exact ⟨rfl, rfl⟩
    | cons d path => cases h
  | cons c lead ih =>
    cases path with
    | nil => cases h
    | cons d path =>
      rw [List.map_cons, captures?] at h
      split at h
      next heq =>
        obtain ⟨rfl, rfl⟩ := ih h
        exact ⟨heq ▸ rfl, rfl⟩
      · cases h

/-- What is submitted to a node. -/
inductive SubmissionKind
  | batch (kind : BatchKind)
  | voluntaryExit
  | block

namespace SubmissionKind

/-- The path to which submissions of a kind are posted. -/
def path : SubmissionKind → String
  | batch kind => kind.path
  | voluntaryExit => "/eth/v1/beacon/pool/voluntary_exits"
  | block => "/eth/v1/beacon/blocks"

theorem path_injective {kind other : SubmissionKind} (h : kind.path = other.path) : kind = other := by
  rcases kind with (_ | _) | _ | _ <;> rcases other with (_ | _) | _ | _ <;>
    first | rfl | exact absurd h (by decide)

/-- The pattern of a path matches nothing but the path. -/
theorem pieces (kind : SubmissionKind) : Pattern.ofString kind.path = kind.path.toList.map .character := by
  rcases kind with (_ | _) | _ | _ <;> rfl

variable {m : Type → Type u} [Monad m] {node : Backend m} {version : String} {request : Http.Request}

/-- The handler of a kind of submissions. -/
def endpoint : SubmissionKind → Endpoint m
  | batch .attestations => Endpoint.publishAttestations
  | batch .syncCommitteeMessages => Endpoint.publishSyncCommitteeMessages
  | voluntaryExit => Endpoint.publishVoluntaryExit
  | block => Endpoint.publishBlock

/-- The route of a kind of submissions. -/
def route (kind : SubmissionKind) (node : Backend m) : Route m := Node.route node .post kind.path kind.endpoint

theorem route_mem (kind : SubmissionKind) : kind.route node ∈ Node.routes node version := by
  rcases kind with (_ | _) | _ | _ <;> simp [route, Node.routes, path, BatchKind.path, endpoint]

/-- Every route for posts is for submissions of some kind. -/
theorem exists_route {found : Route m} (hmem : found ∈ Node.routes node version)
    (hmethod : found.method = .post) : ∃ kind : SubmissionKind, found = kind.route node := by
  simp only [Node.routes, List.mem_cons, List.not_mem_nil, or_false] at hmem
  rcases hmem with rfl | rfl | rfl | rfl | rfl | rfl | rfl | rfl | rfl | rfl | rfl | rfl | rfl | rfl | rfl |
    rfl | rfl | rfl | rfl | rfl <;> cases hmethod
  · exact ⟨block, rfl⟩
  · exact ⟨batch .attestations, rfl⟩
  · exact ⟨voluntaryExit, rfl⟩
  · exact ⟨batch .syncCommitteeMessages, rfl⟩

theorem reached {kind : SubmissionKind} (hposts : request.Posts kind.path) :
    Router.reached? (Node.routes node version) request = some (kind.route node, []) := by
  have hmethod : Router.methodFor? request.method = some .post := by
    rw [hposts.method]
    rfl
  refine Router.reached?_of_separate (Node.routes_separate node version) kind.route_mem ?_ hmethod
  change (Pattern.ofString kind.path).captures? _ = _
  rw [hposts.path, kind.pieces]
  exact Pattern.captures?_self kind.path.toList

/-- What is posted to a node is a submission of some kind, or it reaches no route. -/
theorem posts_or_not_reached (node : Backend m) (version : String) (hmethod : request.method = "POST") :
    (∃ kind : SubmissionKind, request.Posts kind.path) ∨
      Router.reached? (Node.routes node version) request = none := by
  cases hreached : Router.reached? (Node.routes node version) request with
  | none => exact .inr rfl
  | some found =>
    obtain ⟨found, captures⟩ := found
    obtain ⟨hmem, hcaptures, hfor⟩ := Router.reached?_eq_some hreached
    have hpost : found.method = .post := by
      rw [hmethod] at hfor
      exact (Option.some.inj hfor).symm
    obtain ⟨kind, rfl⟩ := exists_route hmem hpost
    change (Pattern.ofString kind.path).captures? _ = _ at hcaptures
    rw [kind.pieces] at hcaptures
    obtain ⟨hpath, _⟩ := Pattern.eq_of_captures?_characters hcaptures
    exact .inl ⟨kind, hmethod, String.toList_inj.mp hpath⟩

/-- What the handler of a submission is given. -/
def incoming (request : Http.Request) : IncomingRequest :=
  { IncomingRequest.empty with
    queryValues := .group (Form.decode (Http.Target.ofString request.target).query)
    body := some request.body }

variable (node version) in
/-- A submission is refused if its body is too large. Otherwise what its handler prepares is sent. -/
theorem answer_eq [LawfulMonad m] {kind : SubmissionKind} (hposts : request.Posts kind.path) :
    Node.answer node version request =
      if Router.maxBodySize < request.body.size then
        pure (PreparedResponse.error 413 "Failed to buffer the request body: length limit exceeded").write.1
      else (fun prepared => prepared.write.1) <$> (kind.endpoint node (incoming request)).response := by
  have hreceive := Router.receive_of_bindParams_eq_ok (Http.Target.ofString request.target).query
    request.body (rfl : Router.bindParams [] .empty = .ok .empty)
  have hmethod : request.method ≠ "HEAD" := by
    rw [hposts.method]
    decide
  unfold Node.answer Router.answer Router.send
  rw [Router.respond_of_reached (reached hposts)]
  unfold Router.deliver
  rw [hreceive]
  by_cases hsize : Router.maxBodySize < request.body.size
  · simp [hsize, hmethod]
  · simp [hsize, hmethod, route, Node.route, incoming]

variable (node version) in
/-- A submission with a body that is too large is refused without asking the node for anything. -/
theorem answer_oversized [LawfulMonad m] {kind : SubmissionKind} (hposts : request.Posts kind.path)
    (hsize : Router.maxBodySize < request.body.size) : ∃ response : Http.Response,
      Node.answer node version request = pure response ∧ response.status = 413 := by
  refine ⟨_, (answer_eq node version hposts).trans (if_pos hsize), ?_⟩
  exact PreparedResponse.write_status_of_isStatus (by decide : Http.isStatus 413 = true)

end SubmissionKind

end BeaconApi
