import BeaconApi.Proofs.Map.Sorted
import BeaconApi.Server.Router

universe u

namespace BeaconApi

namespace Pattern

theorem map_fst_captures? {pattern : Pattern} {path : List Char} {captures : List (String × List Char)}
    (h : pattern.captures? path = some captures) : captures.map Prod.fst = pattern.names := by
  fun_induction captures? pattern path generalizing captures with
  | case1 =>
    cases h
    rfl
  | case2 c pattern path ih => exact ih h
  | case3 => cases h
  | case4 => cases h
  | case5 name path _ =>
    cases h
    rfl
  | case6 path name pattern _ ih =>
    obtain ⟨rest, hrest, rfl⟩ := Option.map_eq_some_iff.mp h
    rw [List.map_cons, ih hrest, names]
  | case7 => cases h
  | case8 => cases h

theorem best?_eq_some {patterns : List Pattern} {path : List Char} {pattern : Pattern}
    {captures : List (String × List Char)} (h : best? patterns path = some (pattern, captures)) :
    pattern ∈ patterns ∧ pattern.captures? path = some captures := by
  -- Whatever is the best pattern so far, it is one of the patterns and it matches.
  let Fits (best : Option (Pattern × List (String × List Char))) : Prop :=
    ∀ p cs, best = some (p, cs) → p ∈ patterns ∧ p.captures? path = some cs
  suffices hfits : Fits (best? patterns path) from hfits _ _ h
  refine List.foldlRecOn patterns _ (motive := Fits) (fun _ _ hnone => nomatch hnone) ?_
  intro best hbest candidate hmem p cs hstep
  split at hstep
  · exact hbest p cs hstep
  next hcaptures =>
    cases hstep
    exact ⟨hmem, hcaptures⟩
  next hcaptures =>
    split at hstep
    · cases hstep
      exact ⟨hmem, hcaptures⟩
    · exact hbest p cs hstep

end Pattern

namespace Router

variable {m : Type → Type u}

/-- The route that a request reaches, with the captures of its path. -/
def reached? (routes : List (Route m)) (request : Http.Request) :
    Option (Route m × List (String × List Char)) :=
  (Pattern.best? (routes.map Route.path) (Http.Target.ofString request.target).path.toList).bind
    fun (pattern, captures) =>
      ((routes.filter fun route => route.path = pattern).find? fun route =>
        methodFor? request.method = some route.method).bind fun route => some (route, captures)

/-- The route that a request reaches has the pattern that decides about the path, and its method. -/
theorem best?_of_reached {routes : List (Route m)} {request : Http.Request} {route : Route m}
    {captures : List (String × List Char)} (h : reached? routes request = some (route, captures)) :
    route ∈ routes ∧ Pattern.best? (routes.map Route.path)
        (Http.Target.ofString request.target).path.toList = some (route.path, captures) ∧
      methodFor? request.method = some route.method := by
  obtain ⟨⟨pattern, captures⟩, hbest, h⟩ := Option.bind_eq_some_iff.mp h
  obtain ⟨route, hfind, h⟩ := Option.bind_eq_some_iff.mp h
  cases h
  have hmem := List.mem_filter.mp (List.mem_of_find?_eq_some hfind)
  have hmethod := List.find?_some hfind
  obtain rfl : route.path = pattern := by simpa using hmem.2
  exact ⟨hmem.1, hbest, by simpa using hmethod⟩

theorem reached?_eq_some {routes : List (Route m)} {request : Http.Request} {route : Route m}
    {captures : List (String × List Char)} (h : reached? routes request = some (route, captures)) :
    route ∈ routes ∧
      route.path.captures? (Http.Target.ofString request.target).path.toList = some captures ∧
      methodFor? request.method = some route.method := by
  obtain ⟨hmem, hbest, hmethod⟩ := best?_of_reached h
  exact ⟨hmem, (Pattern.best?_eq_some hbest).2, hmethod⟩

section Best

variable {routes : List (Route m)} {request : Http.Request} {pattern : Pattern}
  {captures : List (String × List Char)}
  (hbest : Pattern.best? (routes.map Route.path) (Http.Target.ofString request.target).path.toList =
    some (pattern, captures))
include hbest

/-- A request reaches the first route of the pattern that has its method. -/
theorem reached?_of_best? : reached? routes request =
    ((routes.filter fun route => route.path = pattern).find? fun route =>
      methodFor? request.method = some route.method).map fun route => (route, captures) := by
  unfold reached?
  rw [hbest]
  exact Option.map_eq_bind.symm

/-- A request reaches no route if none of the pattern has its method. -/
theorem reached?_eq_none_iff : reached? routes request = none ↔
    ∀ route ∈ routes, route.path = pattern → methodFor? request.method ≠ some route.method := by
  rw [reached?_of_best? hbest, Option.map_eq_none_iff, List.find?_eq_none]
  simp

/-- A request reaches the route that alone has its method among those of the pattern. -/
theorem reached?_of_unique {route : Route m} (hmem : route ∈ routes) (hpath : route.path = pattern)
    (hmethod : methodFor? request.method = some route.method)
    (hunique : ∀ other ∈ routes, other.path = pattern → methodFor? request.method = some other.method →
      other = route) : reached? routes request = some (route, captures) := by
  cases hreached : reached? routes request with
  | none => exact absurd hmethod ((reached?_eq_none_iff hbest).mp hreached route hmem hpath)
  | some found =>
    obtain ⟨other, others⟩ := found
    obtain ⟨hother, hsame, hhas⟩ := best?_of_reached hreached
    cases hbest.symm.trans hsame
    rw [hunique other hother rfl hhas]

end Best

theorem respond_of_reached [Monad m] {routes : List (Route m)} {request : Http.Request} {route : Route m}
    {captures : List (String × List Char)} (h : reached? routes request = some (route, captures)) :
    respond routes request = deliver route.handler captures request := by
  obtain ⟨⟨pattern, captures⟩, hbest, h⟩ := Option.bind_eq_some_iff.mp h
  obtain ⟨route, hfind, h⟩ := Option.bind_eq_some_iff.mp h
  cases h
  unfold respond
  simp only [hbest, hfind]

theorem bindParams_error {captures : List (String × List Char)} {r : IncomingRequest}
    {rejected : PreparedResponse} (h : bindParams captures r = .error rejected) :
    ∃ message, rejected = .error 400 message := by
  induction captures generalizing r with
  | nil => cases h
  | cons capture captures ih =>
    obtain ⟨name, segment⟩ := capture
    unfold bindParams at h
    split at h
    · exact ih h
    · cases h
      exact ⟨_, rfl⟩

theorem receive_of_bindParams_eq_ok {captures : List (String × List Char)} (query : String)
    (body : ByteArray) {r : IncomingRequest} (h : bindParams captures .empty = .ok r) :
    receive captures query body =
      if maxBodySize < body.size then
        .error (.error 413 "Failed to buffer the request body: length limit exceeded")
      else .ok { r with queryValues := .group (Form.decode query), body := some body } := by
  unfold receive
  rw [h]
  by_cases hsize : maxBodySize < body.size
  · rw [if_pos hsize]
    exact if_pos hsize
  · rw [if_neg hsize]
    exact if_neg hsize

section Captures

variable {captures : List (String × List Char)}

/-- Captures with distinct names are bound to them. -/
theorem bindParams_of_decodes (hnames : (captures.map Prod.fst).Nodup)
    (hdecodes : ∀ capture ∈ captures, (decodeSegment? capture.2).isSome) (r : IncomingRequest) :
    ∃ bound, bindParams captures r = .ok bound ∧
      (∀ capture ∈ captures, bound.param? capture.1 = decodeSegment? capture.2) ∧
      ∀ name, name ∉ captures.map Prod.fst → bound.param? name = r.param? name := by
  induction captures generalizing r with
  | nil => exact ⟨r, rfl, nofun, fun _ _ => rfl⟩
  | cons capture captures ih =>
    obtain ⟨name, segment⟩ := capture
    obtain ⟨hname, hnames⟩ := List.nodup_cons.mp hnames
    obtain ⟨hsegment, hdecodes⟩ := List.forall_mem_cons.mp hdecodes
    obtain ⟨value, hvalue⟩ := Option.isSome_iff_exists.mp hsegment
    obtain ⟨bound, hbound, hparams, hothers⟩ := ih hnames hdecodes (r.withParam name value)
    have hset (other : String) :
        (r.withParam name value).param? other = if other = name then some value else r.param? other :=
      SortedMap.get?_insert ..
    refine ⟨bound, ?_, ?_, fun other hother => ?_⟩
    · rw [bindParams, hvalue]
      exact hbound
    · -- The names that follow are different, so that the value stands.
      refine List.forall_mem_cons.mpr ⟨?_, hparams⟩
      change bound.param? name = decodeSegment? segment
      rw [hothers name hname, hset, if_pos rfl, hvalue]
    · rw [List.map_cons, List.mem_cons, not_or] at hother
      rw [hothers other hother.2, hset, if_neg hother.1]

/-- A capture that cannot be decoded is the reason for a rejection. -/
theorem bindParams_of_undecoded (h : ∃ capture ∈ captures, decodeSegment? capture.2 = none)
    (r : IncomingRequest) : ∃ capture ∈ captures, decodeSegment? capture.2 = none ∧
      bindParams captures r = .error (.error 400 ("Invalid UTF-8 in `" ++ capture.1 ++ "`")) := by
  induction captures generalizing r with
  | nil => exact absurd h nofun
  | cons capture captures ih =>
    obtain ⟨name, segment⟩ := capture
    cases hsegment : decodeSegment? segment with
    | none =>
      refine ⟨(name, segment), List.mem_cons_self, hsegment, ?_⟩
      rw [bindParams, hsegment]
    | some value =>
      have hrest : ∃ capture ∈ captures, decodeSegment? capture.2 = none := by
        obtain ⟨other, hother, hnone⟩ := h
        rcases List.mem_cons.mp hother with rfl | hother
        · cases hsegment.symm.trans hnone
        · exact ⟨other, hother, hnone⟩
      obtain ⟨other, hother, hnone, hbind⟩ := ih hrest (r.withParam name value)
      refine ⟨other, List.mem_cons_of_mem _ hother, hnone, ?_⟩
      rw [bindParams, hsegment]
      exact hbind

end Captures

/-- Before the handler, `receive` rejects for two reasons only: 400 for a capture that is not UTF-8, and 413 for
the size of the body. -/
theorem receive_error {captures : List (String × List Char)} {query : String} {body : ByteArray}
    {rejected : PreparedResponse} (h : receive captures query body = .error rejected) :
    ∃ code message, rejected = .error code message ∧ code ∈ [400, 413] := by
  cases hbind : bindParams captures .empty with
  | error refusal =>
    unfold receive at h
    rw [hbind] at h
    cases h
    obtain ⟨message, rfl⟩ := bindParams_error hbind
    exact ⟨400, message, rfl, by simp⟩
  | ok r =>
    rw [receive_of_bindParams_eq_ok query body hbind] at h
    split at h
    · cases h
      exact ⟨413, _, rfl, by simp⟩
    · cases h

/-- What the handler of a route receives: the captures of the path under their names, decoded, the values of
the query in the order of their arrival, and the body. -/
structure Receives (captures : List (String × List Char)) (query : String) (body : ByteArray)
    (incoming : IncomingRequest) : Prop where
  bound : ∀ capture ∈ captures, incoming.param? capture.1 = decodeSegment? capture.2
  unbound (name : String) : name ∉ captures.map Prod.fst → incoming.param? name = none
  query (name : String) : incoming.query? name =
    let pairs := (Form.decode query).filter (·.1 = name)
    if pairs = [] then none else some (pairs.map Prod.snd)
  body : incoming.body = some body

theorem receives_of_decodes {captures : List (String × List Char)} (hnames : (captures.map Prod.fst).Nodup)
    (hdecodes : ∀ capture ∈ captures, (decodeSegment? capture.2).isSome) (query : String) {body : ByteArray}
    (hsize : body.size ≤ maxBodySize) :
    ∃ incoming, receive captures query body = .ok incoming ∧ Receives captures query body incoming := by
  obtain ⟨bound, hbound, hparams, hothers⟩ := bindParams_of_decodes hnames hdecodes .empty
  have hreceive := receive_of_bindParams_eq_ok query body hbound
  exact ⟨_, hreceive.trans (if_neg (Nat.not_lt.mpr hsize)), hparams, hothers, SortedMap.get?_group _, rfl⟩

/-- A request is rejected before it reaches its handler if a capture is not UTF-8. -/
theorem receive_of_undecoded {captures : List (String × List Char)}
    (h : ∃ capture ∈ captures, decodeSegment? capture.2 = none) (query : String) (body : ByteArray) :
    ∃ capture ∈ captures, decodeSegment? capture.2 = none ∧
      receive captures query body = .error (.error 400 ("Invalid UTF-8 in `" ++ capture.1 ++ "`")) := by
  obtain ⟨capture, hmem, hnone, hbind⟩ := bindParams_of_undecoded h .empty
  refine ⟨capture, hmem, hnone, ?_⟩
  rw [receive, hbind]
  rfl

section Single

variable (name : String) {text : String} {segment : List Char} (query : String) {body : ByteArray}

theorem receive_of_decodeSegment?_eq_none (body : ByteArray) (h : decodeSegment? segment = none) :
    receive [(name, segment)] query body =
      .error (.error 400 ("Invalid UTF-8 in `" ++ name ++ "`")) := by
  obtain ⟨capture, hmem, -, hreceive⟩ :=
    receive_of_undecoded ⟨(name, segment), List.mem_cons_self, h⟩ query body
  obtain rfl := List.mem_singleton.mp hmem
  exact hreceive

/-- What a handler receives from a path with one placeholder. -/
theorem receive_of_decodeSegment?_eq_some (h : decodeSegment? segment = some text)
    (hsize : body.size ≤ maxBodySize) :
    ∃ r, receive [(name, segment)] query body = .ok r ∧ r.param? name = some text := by
  have hdecodes : ∀ capture ∈ [(name, segment)], (decodeSegment? capture.2).isSome := by simp [h]
  obtain ⟨r, hreceive, hreceives⟩ := receives_of_decodes (by simp) hdecodes query hsize
  exact ⟨r, hreceive, (hreceives.bound _ List.mem_cons_self).trans h⟩

end Single

end Router

end BeaconApi
