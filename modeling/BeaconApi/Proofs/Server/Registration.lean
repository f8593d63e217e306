import Mathlib.Data.List.Nodup
import BeaconApi.Proofs.Server.Template
import BeaconApi.Proofs.Server.Treatment

universe u v

namespace BeaconApi

variable {m : Type → Type u}

/-- The path that a request asks for. -/
def Http.Request.path (request : Http.Request) : List Char :=
  (Http.Target.ofString request.target).path.toList

/-- The segments of the pattern of a route. -/
def Route.template (route : Route m) : Template := .ofString route.pattern

/-- The method and the pattern of a route, without its handler. -/
def Route.label (route : Route m) : Method × String := (route.method, route.pattern)

namespace Router

/-- The patterns of routes are plain, no two routes have the same method and path, and no two paths conflict. -/
structure Registrable (routes : List (Route m)) : Prop where
  plain : ∀ route ∈ routes, route.template.Plain
  distinct : (routes.map Route.key).Nodup
  apart : ∀ route ∈ routes, ∀ other ∈ routes, ¬ route.Conflicts other

instance (routes : List (Route m)) : Decidable (Registrable routes) :=
  decidable_of_iff ((∀ route ∈ routes, route.template.Plain) ∧ (routes.map Route.key).Nodup ∧
      ∀ route ∈ routes, ∀ other ∈ routes, ¬ route.Conflicts other)
    ⟨fun h => ⟨h.1, h.2.1, h.2.2⟩, fun h => ⟨h.plain, h.distinct, h.apart⟩⟩

/-- Handlers do not matter for whether routes are `Registrable`. -/
theorem Registrable.of_labels {n : Type → Type v} {routes : List (Route m)} {others : List (Route n)}
    (h : Registrable others) (hlabels : routes.map Route.label = others.map Route.label) : Registrable routes := by
  have hfind {route : Route m} (hmem : route ∈ routes) :
      ∃ other ∈ others, other.method = route.method ∧ other.pattern = route.pattern := by
    have hlabel : route.label ∈ others.map Route.label := hlabels ▸ List.mem_map_of_mem hmem
    obtain ⟨other, hother, heq⟩ := List.mem_map.mp hlabel
    exact ⟨other, hother, Prod.mk.inj heq⟩
  constructor
  · intro route hmem
    obtain ⟨other, hother, -, hpattern⟩ := hfind hmem
    have hplain := h.plain other hother
    rwa [Route.template, hpattern] at hplain
  · have hkeys := congrArg (List.map fun label => (String.ofList (Pattern.translate label.2), label.1)) hlabels
    rw [List.map_map, List.map_map] at hkeys
    exact (congrArg List.Nodup hkeys).mpr h.distinct
  · intro route hmem route' hmem'
    obtain ⟨other, hother, -, hpattern⟩ := hfind hmem
    obtain ⟨other', hother', -, hpattern'⟩ := hfind hmem'
    have hapart := h.apart other hother other' hother'
    rwa [Route.Conflicts, Route.translated, Route.translated, Route.path, Route.path, hpattern, hpattern'] at hapart

/-- The pattern of a route decides about a request: it matches the path, and is preferred to every other
pattern that does. -/
structure Decides (routes : List (Route m)) (request : Http.Request) (route : Route m)
    (captures : List (String × List Char)) : Prop where
  mem : route ∈ routes
  matched : route.template.Matches request.path captures
  preferred {other : Route m} {others : List (String × List Char)} : other ∈ routes →
    other.template.Matches request.path others →
    other.path = route.path ∨ route.template.Prefers other.template

/-- What can become of a request. -/
inductive Fate (m : Type → Type u)
  | served (route : Route m) (captures : List (String × List Char))
  | disallowed
  | unknown

/-- A request is served by a route if the pattern of the route decides about it and the route has its method.
It is not allowed if no route of the pattern that decides has its method, and its path is unknown if no
pattern matches. -/
def Meets (routes : List (Route m)) (request : Http.Request) : Fate m → Prop
  | .served route captures =>
    Decides routes request route captures ∧ methodFor? request.method = some route.method
  | .disallowed => ∃ route captures, Decides routes request route captures ∧
      ∀ other ∈ routes, other.path = route.path → methodFor? request.method ≠ some other.method
  | .unknown => ∀ route ∈ routes, ∀ captures, ¬ route.template.Matches request.path captures

section Registrable

variable {routes : List (Route m)} (h : Registrable routes) {request : Http.Request} {route : Route m}
  {captures : List (String × List Char)}
include h

theorem Registrable.path_eq (hmem : route ∈ routes) : route.path = route.template.pattern :=
  Pattern.ofString_eq (h.plain route hmem).segments

theorem Registrable.captures?_iff (hmem : route ∈ routes) {path : List Char} :
    route.path.captures? path = some captures ↔ route.template.Matches path captures := by
  rw [h.path_eq hmem]
  exact Template.captures?_pattern_iff (Template.sound_ofString route.pattern)

theorem Registrable.matches_iff (hmem : route ∈ routes) {path : List Char} :
    route.path.Matches path ↔ ∃ captures, route.template.Matches path captures := by
  unfold Pattern.Matches
  simp only [Option.isSome_iff_exists, h.captures?_iff hmem]

theorem Registrable.precedes_iff {other : Route m} {path : List Char} {others : List (String × List Char)}
    (hmem : route ∈ routes) (hother : other ∈ routes) (hmatched : route.template.Matches path captures)
    (hmatched' : other.template.Matches path others) :
    route.path.precedes other.path ↔ route.template.Prefers other.template := by
  obtain ⟨segments, hsegments, hbinds⟩ := hmatched
  obtain ⟨_, hsegments', hbinds'⟩ := hmatched'
  obtain rfl := hsegments.unique hsegments'
  rw [h.path_eq hmem, h.path_eq hother]
  exact Template.precedes_pattern_iff hbinds hbinds'

/-- Routes with the same pattern are translated to the same path. -/
theorem Registrable.translated_eq {other : Route m} (hmem : route ∈ routes) (hother : other ∈ routes)
    (hpath : other.path = route.path) : other.translated = route.translated := by
  by_contra hne
  exact h.apart other hother route hmem ⟨hne, congrArg _ hpath⟩

theorem Registrable.not_conflicts :
    ∀ p ∈ routes.map Route.path, ∀ q ∈ routes.map Route.path, ¬ p.Conflicts q := by
  simp only [List.forall_mem_map]
  rintro route hmem other hother ⟨hne, hsame⟩
  refine h.apart route hmem other hother ⟨fun heq => hne ?_, hsame⟩
  rw [← RoutingTable.patternAt_translated, heq, RoutingTable.patternAt_translated]

/-- The pattern that decides is the one that the search finds. -/
theorem Registrable.decides_iff : Decides routes request route captures ↔
    route ∈ routes ∧ Pattern.best? (routes.map Route.path) request.path = some (route.path, captures) := by
  have hapart := h.not_conflicts
  constructor
  · intro hdecides
    have hmem := hdecides.mem
    refine ⟨hmem, Pattern.Leads.best? hapart ⟨List.mem_map_of_mem hmem, ?_, ?_⟩ ?_⟩
    · exact (h.matches_iff hmem).mpr ⟨captures, hdecides.matched⟩
    · -- A pattern that takes precedence over it would be beaten by it as well.
      intro q hq hmatched hbeats
      obtain ⟨other, hother, rfl⟩ := List.mem_map.mp hq
      obtain ⟨others, hothers⟩ := (h.matches_iff hother).mp hmatched
      rcases hdecides.preferred hother hothers with heq | hprefers
      · exact Pattern.precedes_irrefl _ (heq ▸ hbeats)
      · have hprecedes := (h.precedes_iff hmem hother hdecides.matched hothers).mpr hprefers
        exact Pattern.precedes_irrefl _ (Pattern.precedes_trans hprecedes hbeats)
    · exact (h.captures?_iff hmem).mpr hdecides.matched
  · rintro ⟨hmem, hbest⟩
    rcases Pattern.best?_spec (routes.map Route.path) request.path with
      ⟨hnone, -⟩ | ⟨p, found, hfound, hcaptures, hleads⟩
    · cases hnone.symm.trans hbest
    · cases hfound.symm.trans hbest
      have hmatched := (h.captures?_iff hmem).mp hcaptures
      refine ⟨hmem, hmatched, fun hother hothers => ?_⟩
      have hother' := (h.matches_iff hother).mpr ⟨_, hothers⟩
      refine (hleads.eq_or_precedes hapart (List.mem_map_of_mem hother) hother').imp_right fun hprecedes => ?_
      exact (h.precedes_iff hmem hother hmatched hothers).mp hprecedes

/-- No two routes have the same pattern and the same method. -/
theorem Registrable.eq_of_place {other : Route m} (hmem : route ∈ routes) (hother : other ∈ routes)
    (hpath : other.path = route.path) (hmethod : other.method = route.method) : other = route :=
  List.inj_on_of_nodup_map h.distinct hother hmem
    (Prod.ext (h.translated_eq hmem hother hpath) hmethod)

/-- A router can be built from the routes: their paths can be read, since their patterns are plain. -/
theorem Registrable.exists_table : ∃ table, RoutingTable.ofRoutes routes = .ok table :=
  RoutingTable.exists_ofRoutes_iff.mpr ⟨fun route hmem => (h.plain route hmem).read_translate, h.distinct, h.apart⟩

/-- A request reaches the route that serves it. -/
theorem Registrable.reached?_iff : Router.reached? routes request = some (route, captures) ↔
    Meets routes request (.served route captures) := by
  constructor
  · intro hreached
    obtain ⟨hmem, hbest, hmethod⟩ := best?_of_reached hreached
    exact ⟨h.decides_iff.mpr ⟨hmem, hbest⟩, hmethod⟩
  · rintro ⟨hdecides, hmethod⟩
    obtain ⟨hmem, hbest⟩ := h.decides_iff.mp hdecides
    refine reached?_of_unique hbest hmem rfl hmethod fun other hother hpath hsame => ?_
    exact h.eq_of_place hmem hother hpath (Option.some.inj (hsame.symm.trans hmethod))

/-- The pattern that decides about a request is one, and so are the captures. -/
theorem Registrable.decides_unique {other : Route m} {others : List (String × List Char)}
    (hdecides : Decides routes request route captures) (hdecides' : Decides routes request other others) :
    other.path = route.path ∧ others = captures := by
  have hbest := (h.decides_iff.mp hdecides).2
  exact Prod.mk.inj (Option.some.inj ((h.decides_iff.mp hdecides').2.symm.trans hbest))

/-- A request meets one fate at most, since all but the unknown path rest on the one pattern that decides. -/
theorem Registrable.fate_unique {fate other : Fate m} (hfate : Meets routes request fate)
    (hother : Meets routes request other) : other = fate := by
  cases fate with
  | served route captures =>
    obtain ⟨hdecides, hmethod⟩ := hfate
    cases other with
    | served =>
      obtain ⟨hdecides', hmethod'⟩ := hother
      obtain ⟨hpath, rfl⟩ := h.decides_unique hdecides hdecides'
      rw [h.eq_of_place hdecides.mem hdecides'.mem hpath (Option.some.inj (hmethod'.symm.trans hmethod))]
    | disallowed =>
      obtain ⟨_, _, hdecides', hnone⟩ := hother
      exact absurd hmethod (hnone route hdecides.mem (h.decides_unique hdecides' hdecides).1)
    | unknown => exact absurd hdecides.matched (hother route hdecides.mem captures)
  | disallowed =>
    obtain ⟨route, captures, hdecides, hnone⟩ := hfate
    cases other with
    | served other =>
      obtain ⟨hdecides', hmethod⟩ := hother
      exact absurd hmethod (hnone other hdecides'.mem (h.decides_unique hdecides hdecides').1)
    | disallowed => rfl
    | unknown => exact absurd hdecides.matched (hother route hdecides.mem captures)
  | unknown =>
    cases other with
    | served route captures => exact absurd hother.1.matched (hfate route hother.1.mem captures)
    | disallowed =>
      obtain ⟨route, captures, hdecides, -⟩ := hother
      exact absurd hdecides.matched (hfate route hdecides.mem captures)
    | unknown => rfl

/-- A path is unknown if the search finds no pattern for it. -/
theorem Registrable.unknown_iff :
    Meets routes request .unknown ↔ Pattern.best? (routes.map Route.path) request.path = none := by
  constructor
  · intro hunknown
    refine Option.eq_none_iff_forall_ne_some.mpr fun (pattern, captures) hbest => ?_
    obtain ⟨hpattern, hcaptures⟩ := Pattern.best?_eq_some hbest
    obtain ⟨route, hmem, rfl⟩ := List.mem_map.mp hpattern
    exact hunknown route hmem captures ((h.captures?_iff hmem).mp hcaptures)
  · intro hnone route hmem captures hmatched
    rcases Pattern.best?_spec (routes.map Route.path) request.path with
      ⟨-, hunmatched⟩ | ⟨pattern, found, hfound, -⟩
    · exact hunmatched route.path (List.mem_map_of_mem hmem) ((h.matches_iff hmem).mpr ⟨captures, hmatched⟩)
    · cases hnone.symm.trans hfound

/-- A request meets some fate. -/
theorem Registrable.exists_fate (request : Http.Request) : ∃ fate, Meets routes request fate := by
  cases hbest : Pattern.best? (routes.map Route.path) request.path with
  | none => exact ⟨.unknown, h.unknown_iff.mpr hbest⟩
  | some found =>
    obtain ⟨pattern, captures⟩ := found
    obtain ⟨route, hmem, rfl⟩ := List.mem_map.mp (Pattern.best?_eq_some hbest).1
    have hdecides := h.decides_iff.mpr ⟨hmem, hbest⟩
    by_cases hmethod : ∃ other ∈ routes,
        other.path = route.path ∧ methodFor? request.method = some other.method
    · obtain ⟨other, hother, hpath, hmethod⟩ := hmethod
      exact ⟨.served other captures, h.decides_iff.mpr ⟨hother, hpath ▸ hbest⟩, hmethod⟩
    · exact ⟨.disallowed, route, captures, hdecides, fun other hother hpath hsame =>
        hmethod ⟨other, hother, hpath, hsame⟩⟩

end Registrable

section Order

variable {routes routes' : List (Route m)} (hperm : routes.Perm routes') {request : Http.Request}
include hperm

theorem Registrable.perm (h : Registrable routes) : Registrable routes' where
  plain route hmem := h.plain route (hperm.mem_iff.mpr hmem)
  distinct := (hperm.map Route.key).nodup_iff.mp h.distinct
  apart route hmem other hother := h.apart route (hperm.mem_iff.mpr hmem) other (hperm.mem_iff.mpr hother)

theorem Decides.perm {route : Route m} {captures : List (String × List Char)}
    (h : Decides routes request route captures) : Decides routes' request route captures :=
  ⟨hperm.mem_iff.mp h.mem, h.matched, fun hother => h.preferred (hperm.mem_iff.mpr hother)⟩

/-- The fate of a request does not depend on the order of the routes. -/
theorem Meets.perm {fate : Fate m} (h : Meets routes request fate) : Meets routes' request fate := by
  cases fate with
  | served route captures => exact ⟨h.1.perm hperm, h.2⟩
  | disallowed =>
    obtain ⟨route, captures, hdecides, hnone⟩ := h
    exact ⟨route, captures, hdecides.perm hperm, fun other hother => hnone other (hperm.mem_iff.mpr hother)⟩
  | unknown => exact fun route hmem => h route (hperm.mem_iff.mpr hmem)

/-- A request reaches the same route with the same captures, or none, in any order of the routes. -/
theorem Registrable.reached?_perm (h : Registrable routes) :
    Router.reached? routes' request = Router.reached? routes request := by
  refine Option.ext fun (route, captures) => ?_
  rw [h.reached?_iff, (h.perm hperm).reached?_iff]
  exact ⟨Meets.perm hperm.symm, Meets.perm hperm⟩

end Order

/-- How a router treats a request that meets a fate. -/
def Treats [Monad m] (table : RoutingTable m) (request : Http.Request) : Fate m → Prop
  | .served route captures => request.body.size ≤ maxBodySize →
    ((∀ capture ∈ captures, (decodeSegment? capture.2).isSome) ∧ Handles table request route captures) ∨
      ∃ capture ∈ captures, decodeSegment? capture.2 = none ∧
        Rejects table request 400 ("Invalid UTF-8 in `" ++ capture.1 ++ "`")
  | .disallowed => Rejects table request 405 (refusal "method not allowed" request)
  | .unknown => Rejects table request 404 (refusal "no such endpoint" request)

/-- What is to be sent to a request that meets a fate, up to its headers. -/
def Fate.response [Monad m] (request : Http.Request) : Fate m → m (Http.Response × List ApiError)
  | .served route captures => deliver route.handler captures request
  | .disallowed =>
    pure (refuse 405 "method not allowed" request.method (Http.Target.ofString request.target).path)
  | .unknown => pure (refuse 404 "no such endpoint" request.method (Http.Target.ofString request.target).path)

section Answers

variable [Monad m] [LawfulMonad m] {routes : List (Route m)} (h : Registrable routes) {table : RoutingTable m}
  (hserves : table.Serves routes) {request : Http.Request}
include h hserves

/-- A request is treated as befits its fate. -/
theorem Registrable.treats {fate : Fate m} (hfate : Meets routes request fate) :
    Treats table request fate := by
  cases fate with
  | served route captures =>
    intro hsize
    have hreached := h.reached?_iff.mpr hfate
    obtain ⟨hmem, ⟨segments, -, hbinds⟩, -⟩ := hfate.1
    by_cases hdecodes : ∀ capture ∈ captures, (decodeSegment? capture.2).isSome
    · have hnames : (captures.map Prod.fst).Nodup := hbinds.names ▸ (h.plain route hmem).names
      exact .inl ⟨hdecodes, handles_of_decodes hserves hreached hsize hnames hdecodes⟩
    · push Not at hdecodes
      simp only [Option.not_isSome_iff_eq_none] at hdecodes
      exact .inr (rejects_of_undecoded hserves hreached hdecodes)
  | disallowed =>
    obtain ⟨route, captures, hdecides, hnone⟩ := hfate
    exact rejects_of_disallowed hserves (h.decides_iff.mp hdecides).2 hnone
  | unknown => exact rejects_of_unmatched hserves (h.unknown_iff.mp hfate)

/-- What is sent depends on the fate of a request alone, up to the headers. -/
theorem Registrable.withoutHeaders_answer {fate : Fate m} (hfate : Meets routes request fate) :
    withoutHeaders <$> table.answer request =
      (fun sent => withoutHeaders (trimmed request.method sent)) <$> fate.response request := by
  rw [hserves.answer_eq, answer_eq_map, Functor.map_map]
  cases fate with
  | served route captures => rw [respond_of_reached (h.reached?_iff.mpr hfate), Fate.response]
  | disallowed =>
    obtain ⟨route, captures, hdecides, hnone⟩ := hfate
    rw [respond_of_disallowed (h.decides_iff.mp hdecides).2 hnone, Fate.response, map_pure, map_pure]
    exact congrArg pure (withoutHeaders_trimmed ..)
  | unknown => rw [respond_of_unmatched (h.unknown_iff.mp hfate), Fate.response]

end Answers

/-- Routes that are `Registrable` build a router in every order by `RoutingTable.ofRoutes`, and the order makes
no difference. A request has exactly one fate by `Meets`, whatever the order. In any order `invoked?` gives the
same handler with the same `IncomingRequest`, or none, `answer` gives the same status and body, and the request
is treated as its fate says. Headers are left out, since `allow` lists methods in the order of registration. Plain
patterns are needed for `RoutingTable.read`, distinct keys for `MethodRouter.on`, and paths without conflicts for
`register`. -/
theorem Registrable.order_irrelevant [Monad m] [LawfulMonad m] {routes : List (Route m)}
    (h : Registrable routes) (request : Http.Request) :
    (∃ fate, ∀ other, Meets routes request other ↔ other = fate) ∧
    ∃ table, RoutingTable.ofRoutes routes = .ok table ∧
    ∀ {routes' : List (Route m)}, routes.Perm routes' →
      ∃ table', RoutingTable.ofRoutes routes' = .ok table' ∧
        table'.invoked? request = table.invoked? request ∧
        withoutHeaders <$> table'.answer request = withoutHeaders <$> table.answer request ∧
        ∀ fate, Meets routes request fate → Treats table' request fate := by
  obtain ⟨fate, hfate⟩ := h.exists_fate request
  obtain ⟨table, htable⟩ := h.exists_table
  have hserves := RoutingTable.serves_of_ofRoutes htable
  refine ⟨⟨fate, fun other => ⟨h.fate_unique hfate, fun heq => heq ▸ hfate⟩⟩, table, htable, fun hperm => ?_⟩
  obtain ⟨table', htable'⟩ := (h.perm hperm).exists_table
  have hserves' := RoutingTable.serves_of_ofRoutes htable'
  refine ⟨table', htable', ?_, ?_, fun fate hfate => (h.perm hperm).treats hserves' (hfate.perm hperm)⟩
  · rw [hserves.invoked?_eq, hserves'.invoked?_eq, h.reached?_perm hperm]
  · rw [h.withoutHeaders_answer hserves hfate, (h.perm hperm).withoutHeaders_answer hserves' (hfate.perm hperm)]

/-- Routes for items: one by its number, all of them, and the parts of one. -/
def itemRoutes : List (Route Id) :=
  [⟨.get, "/items/:id", fun r => some (.okMessage ((r.param? "id").getD "none"))⟩,
    ⟨.post, "/items/:id", fun _ => some (.accepted "stored")⟩,
    ⟨.get, "/items/all", fun _ => some (.okMessage "all")⟩,
    ⟨.get, "/items/:id/parts", fun r => some (.okMessage ((r.param? "id").getD "none"))⟩]

theorem items_in_reverse :
    Registrable itemRoutes ∧
      Meets itemRoutes ⟨"GET", "/items/7?tag=x", .empty⟩ (.served itemRoutes[0] [("id", ['7'])]) ∧
      ∃ table, RoutingTable.ofRoutes itemRoutes = .ok table ∧
      ∃ table', RoutingTable.ofRoutes itemRoutes.reverse = .ok table' ∧
        table'.invoked? ⟨"GET", "/items/7?tag=x", .empty⟩ = table.invoked? ⟨"GET", "/items/7?tag=x", .empty⟩ ∧
        Handles table' ⟨"GET", "/items/7?tag=x", .empty⟩ itemRoutes[0] [("id", ['7'])] := by
  have hregistrable : Registrable itemRoutes := by decide +kernel
  have hmeets : Meets itemRoutes ⟨"GET", "/items/7?tag=x", .empty⟩ (.served itemRoutes[0] [("id", ['7'])]) :=
    hregistrable.reached?_iff.mp rfl
  have hperm : itemRoutes.Perm itemRoutes.reverse := itemRoutes.reverse_perm.symm
  obtain ⟨-, table, htable, hsame⟩ := hregistrable.order_irrelevant ⟨"GET", "/items/7?tag=x", .empty⟩
  obtain ⟨table', htable', hinvoked, -, htreats⟩ := hsame hperm
  refine ⟨hregistrable, hmeets, table, htable, table', htable', hinvoked, ?_⟩
  rcases htreats _ hmeets (by decide) with ⟨-, hhandles⟩ | ⟨capture, hmem, hnone, -⟩
  · exact hhandles
  · obtain rfl := List.mem_singleton.mp hmem
    exact absurd hnone (by decide +kernel)

/-- Before the end of a pattern a placeholder also takes an empty segment. No router can be built from a pattern
with a literal that begins with an asterisk, or from one with 26 placeholders. -/
theorem parts_of_nothing_served :
    Registrable itemRoutes ∧
    (∃ table, RoutingTable.ofRoutes itemRoutes = .ok table ∧
      (table.answer ⟨"GET", "/items//parts", .empty⟩).1.status = 200 ∧
      table.reached? ⟨"GET", "/items//parts", .empty⟩ = some (itemRoutes[3].handler, [("id", [])])) ∧
    ∀ handler : Handler Id,
      (¬ ∃ table, RoutingTable.ofRoutes [⟨.get, "/items/*", handler⟩] = .ok table) ∧
      ¬ ∃ table, RoutingTable.ofRoutes [⟨.get,
        "/:a/:b/:c/:d/:e/:f/:g/:h/:i/:j/:k/:l/:m/:n/:o/:p/:q/:r/:s/:t/:u/:v/:w/:x/:y/:z", handler⟩] =
          .ok table := by
  have hregistrable : Registrable itemRoutes := by decide +kernel
  obtain ⟨table, htable⟩ := hregistrable.exists_table
  have hserves := RoutingTable.serves_of_ofRoutes htable
  have hunread {pattern : String}
      (hread : RoutingTable.read (String.ofList (Pattern.translate pattern)) ≠ .ok (Pattern.ofString pattern))
      (handler : Handler Id) : ¬ ∃ table, RoutingTable.ofRoutes [⟨.get, pattern, handler⟩] = .ok table :=
    fun hbuilt => hread ((RoutingTable.exists_ofRoutes_iff.mp hbuilt).1 ⟨.get, pattern, handler⟩ List.mem_cons_self)
  refine ⟨hregistrable, ⟨table, htable, ?_, ?_⟩, fun handler =>
    ⟨hunread (by decide +kernel) handler, hunread (by decide +kernel) handler⟩⟩
  · rw [hserves.answer_eq]
    decide +kernel
  · rw [hserves.reached?_eq]
    rfl

end Router

end BeaconApi
