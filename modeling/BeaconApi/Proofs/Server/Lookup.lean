import BeaconApi.Proofs.Server.Table

universe u

namespace BeaconApi.RoutingTable

variable {m : Type → Type u}

/-- The handler that a request reaches, with the captures of its path. -/
def reached? (table : RoutingTable m) (request : Http.Request) :
    Option (Handler m × List (String × List Char)) :=
  (table.lookup? (Http.Target.ofString request.target).path.toList).bind fun (methods, captures) =>
    ((Router.methodFor? request.method).bind methods.get?).map fun handler => (handler, captures)

/-- The handler that runs for a request, and what it receives. -/
def invoked? (table : RoutingTable m) (request : Http.Request) : Option (Handler m × IncomingRequest) :=
  (table.reached? request).bind fun (handler, captures) =>
    (Router.receive captures (Http.Target.ofString request.target).query request.body).toOption.map (handler, ·)

/-- The patterns of two entries differ in more than names. -/
theorem eq_of_unnamed_eq {table : RoutingTable m} {entry other : Pattern × MethodRouter m}
    (hentry : entry ∈ table.entries) (hother : other ∈ table.entries)
    (hsame : entry.1.map Piece.unnamed = other.1.map Piece.unnamed) : entry = other :=
  List.inj_on_of_nodup_map table.nodup_unnamed hentry hother hsame

theorem find?_entries {table : RoutingTable m} {entry : Pattern × MethodRouter m} (hmem : entry ∈ table.entries) :
    (table.entries.find? fun other => other.1 = entry.1) = some entry := by
  cases hfind : table.entries.find? fun other => other.1 = entry.1 with
  | none => simpa using List.find?_eq_none.mp hfind entry hmem
  | some other =>
    have hpattern : other.1 = entry.1 := by simpa using List.find?_some hfind
    rw [eq_of_unnamed_eq (List.mem_of_find?_eq_some hfind) hmem (congrArg _ hpattern)]

/-- The first of some routes that has a method gives its handler. -/
theorem lookup_handlers (routes : List (Route m)) (method : Method) :
    (routes.map fun route => (route.method, route.handler)).lookup method =
      (routes.find? fun route => method = route.method).map Route.handler := by
  induction routes with
  | nil => rfl
  | cons route routes ih =>
    rw [List.map_cons, Table.lookup_cons, List.find?_cons, ih]
    by_cases hmethod : method = route.method <;> simp [hmethod]

/-- The handler for the method of a request is that of the first route of the pattern that has the method. -/
theorem get?_methodFor? {routes : List (Route m)} {p : Pattern} {methods : MethodRouter m} {name : String}
    (hrows : methods.rows =
      (routes.filter fun route => route.path = p).map fun route => (route.method, route.handler)) :
    (Router.methodFor? name).bind methods.get? = ((routes.filter fun route => route.path = p).find? fun route =>
      Router.methodFor? name = some route.method).map Route.handler := by
  cases Router.methodFor? name with
  | none => simp [List.find?_eq_none.mpr]
  | some method =>
    simp only [Option.bind_some, Option.some.injEq]
    rw [Table.get?, hrows, lookup_handlers]

section Serves

variable {routes : List (Route m)} {table : RoutingTable m} (h : table.Serves routes)
include h

theorem Serves.not_conflicts : ∀ p ∈ routes.map Route.path, ∀ q ∈ routes.map Route.path, ¬ p.Conflicts q := by
  intro p hp q hq ⟨hne, hsame⟩
  obtain ⟨entry, hentry, rfl⟩ := List.mem_map.mp ((h.patterns p).mpr hp)
  obtain ⟨other, hother, rfl⟩ := List.mem_map.mp ((h.patterns q).mpr hq)
  exact hne (congrArg Prod.fst (eq_of_unnamed_eq hentry hother hsame))

/-- The pattern that decides is the same among the entries and among the routes. -/
theorem Serves.best?_eq (path : List Char) :
    Pattern.best? (table.entries.map Prod.fst) path = Pattern.best? (routes.map Route.path) path :=
  Pattern.best?_congr (fun p => (h.patterns p).symm) h.not_conflicts path

theorem Serves.lookup?_of_unmatched {path : List Char}
    (hnone : Pattern.best? (routes.map Route.path) path = none) : table.lookup? path = none := by
  rw [lookup?, h.best?_eq, hnone]
  rfl

theorem Serves.lookup?_of_best? {path : List Char} {p : Pattern} {captures : List (String × List Char)}
    (hbest : Pattern.best? (routes.map Route.path) path = some (p, captures)) :
    ∃ methods, table.lookup? path = some (methods, captures) ∧
      methods.rows = (routes.filter fun route => route.path = p).map fun route => (route.method, route.handler) := by
  obtain ⟨⟨_, methods⟩, hentry, rfl⟩ := List.mem_map.mp ((h.patterns p).mpr (Pattern.best?_eq_some hbest).1)
  refine ⟨methods, ?_, h.handlers hentry⟩
  rw [lookup?, h.best?_eq, hbest]
  exact congrArg (Option.map _) (find?_entries hentry)

/-- A router reaches the same handlers as the routes that it serves. -/
theorem Serves.reached?_eq (request : Http.Request) :
    table.reached? request =
      (Router.reached? routes request).map fun (route, captures) => (route.handler, captures) := by
  unfold reached? Router.reached?
  cases hbest : Pattern.best? (routes.map Route.path) (Http.Target.ofString request.target).path.toList with
  | none =>
    rw [h.lookup?_of_unmatched hbest]
    rfl
  | some found =>
    obtain ⟨p, captures⟩ := found
    obtain ⟨methods, hlookup, hrows⟩ := h.lookup?_of_best? hbest
    simp only [hlookup, Option.bind_some, get?_methodFor? hrows]
    cases (routes.filter fun route => route.path = p).find? fun route =>
      Router.methodFor? request.method = some route.method <;> rfl

/-- The response of a table is the one of the routes that it `Serves`: looking a request up among the method
routers by path is the same as filtering the routes by the path that decides. -/
theorem Serves.respond_eq [Monad m] (request : Http.Request) :
    table.respond request = Router.respond routes request := by
  unfold respond Router.respond
  cases hbest : Pattern.best? (routes.map Route.path) (Http.Target.ofString request.target).path.toList with
  | none => simp only [h.lookup?_of_unmatched hbest, hbest]
  | some found =>
    obtain ⟨p, captures⟩ := found
    obtain ⟨methods, hlookup, hrows⟩ := h.lookup?_of_best? hbest
    simp only [hlookup, hbest, get?_methodFor? hrows]
    cases (routes.filter fun route => route.path = p).find? fun route =>
        Router.methodFor? request.method = some route.method with
    | none => simp only [Option.map_none, hrows, List.map_map, Function.comp_def]
    | some route => rfl

theorem Serves.answer_eq [Monad m] (request : Http.Request) :
    table.answer request = Router.answer routes request :=
  congrArg (Router.send request) (h.respond_eq request)

theorem Serves.invoked?_eq (request : Http.Request) :
    table.invoked? request = (Router.reached? routes request).bind fun (route, captures) =>
      (Router.receive captures (Http.Target.ofString request.target).query request.body).toOption.map
        (route.handler, ·) := by
  rw [invoked?, h.reached?_eq, Option.bind_map]
  rfl

end Serves

end BeaconApi.RoutingTable
