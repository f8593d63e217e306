import BeaconApi.Proofs.Server.Grouping
import BeaconApi.Proofs.Server.Template

universe u

namespace BeaconApi

namespace Pattern

/-- Without conflicts the pattern that decides depends only on which patterns there are. -/
theorem best?_congr {patterns others : List Pattern} (hsame : ∀ p, p ∈ patterns ↔ p ∈ others)
    (h : ∀ p ∈ patterns, ∀ q ∈ patterns, ¬ p.Conflicts q) (path : List Char) :
    best? others path = best? patterns path := by
  rcases best?_spec others path with ⟨hnone, hunmatched⟩ | ⟨p, captures, hbest, hcaptures, hleads⟩
  · rcases best?_spec patterns path with ⟨hnone', -⟩ | ⟨p, captures, -, -, hleads⟩
    · rw [hnone, hnone']
    · exact absurd hleads.matched (hunmatched p ((hsame p).mp hleads.mem))
  · have hleads' : Leads patterns path p :=
      ⟨(hsame p).mpr hleads.mem, hleads.matched, fun hq => hleads.unbeaten ((hsame _).mp hq)⟩
    rw [hbest, hleads'.best? h hcaptures]

end Pattern

variable {m : Type → Type u}

/-- Two routes are translated to different paths that differ only in the names of placeholders. -/
def Route.Conflicts (route other : Route m) : Prop :=
  route.translated ≠ other.translated ∧ route.path.map Piece.unnamed = other.path.map Piece.unnamed

instance (route other : Route m) : Decidable (route.Conflicts other) :=
  inferInstanceAs (Decidable (_ ∧ _))

namespace RoutingTable

/-- The pattern that a path stands for, be it one that a router takes or not. -/
def patternAt (path : String) : Pattern := .ofBraced none path.toList

theorem patternAt_translated (route : Route m) : patternAt route.translated = route.path :=
  congrArg (Pattern.ofBraced none) String.toList_ofList

theorem patternAt_of_read {path : String} {pattern : Pattern} (h : read path = .ok pattern) :
    patternAt path = pattern := by
  unfold read at h
  split at h
  · cases h
  · split at h
    · cases h
    next hparse =>
      split at h
      · cases h
      · exact Except.ok.inj h ▸ Pattern.ofBraced_of_parse? hparse

theorem register_eq_ok_iff {table table' : RoutingTable m} {path : String} {methods : MethodRouter m} :
    table.register path methods = .ok table' ↔ read path = .ok (patternAt path) ∧
      (∀ entry ∈ table.entries, entry.1.map Piece.unnamed ≠ (patternAt path).map Piece.unnamed) ∧
      table'.entries = table.entries ++ [(patternAt path, methods)] := by
  unfold register
  split
  next e hread => exact iff_of_false nofun fun h => nomatch hread.symm.trans h.1
  next pattern hread =>
    rw [patternAt_of_read hread]
    split
    next hnew =>
      constructor
      · intro h
        cases h
        exact ⟨hread, hnew, rfl⟩
      · rintro ⟨-, -, hentries⟩
        cases table'
        cases hentries
        rfl
    next hold => exact iff_of_false nofun fun h => hold h.2.1

theorem registerAll_concat_eq_ok_iff {entries : List (String × MethodRouter m)} {entry : String × MethodRouter m}
    {table : RoutingTable m} : registerAll (entries ++ [entry]) = .ok table ↔
      ∃ before, registerAll entries = .ok before ∧ before.register entry.1 entry.2 = .ok table :=
  foldlM_concat_eq_ok_iff

/-- Registering `entries` one after another succeeds exactly if `read` accepts each path, with the entries in
their order. That no two paths are alike up to the names of placeholders is the `apart` field of the table, and
needs no conjunct here. -/
theorem registerAll_eq_ok_iff {entries : List (String × MethodRouter m)} {table : RoutingTable m} :
    registerAll entries = .ok table ↔ (∀ entry ∈ entries, read entry.1 = .ok (patternAt entry.1)) ∧
      table.entries = entries.map fun entry => (patternAt entry.1, entry.2) := by
  induction entries using List.reverseRecOn generalizing table with
  | nil =>
    obtain ⟨entries, apart⟩ := table
    change Except.ok empty = _ ↔ _
    simp [empty, eq_comm]
  | append_singleton entries entry ih =>
    rw [registerAll_concat_eq_ok_iff, List.map_append, List.map_singleton, List.forall_mem_append,
      List.forall_mem_singleton]
    constructor
    · rintro ⟨before, hbefore, h⟩
      obtain ⟨hread, -, hentries⟩ := register_eq_ok_iff.mp h
      obtain ⟨hreads, hmap⟩ := ih.mp hbefore
      exact ⟨⟨hreads, hread⟩, hmap ▸ hentries⟩
    · rintro ⟨⟨hreads, hread⟩, hentries⟩
      have hapart := table.apart
      rw [hentries] at hapart
      obtain ⟨hbefore, -, hnew⟩ := List.pairwise_append.mp hapart
      have hregister : registerAll entries = .ok ⟨_, hbefore⟩ := ih.mpr ⟨hreads, rfl⟩
      exact ⟨_, hregister,
        register_eq_ok_iff.mpr ⟨hread, fun other hother => hnew other hother _ List.mem_cons_self, hentries⟩⟩

theorem ofRoutes_eq_ok_iff {routes : List (Route m)} {table : RoutingTable m} :
    ofRoutes routes = .ok table ↔
      ∃ byPath, routes.foldlM add .empty = .ok byPath ∧ registerAll byPath.entries = .ok table :=
  bind_eq_ok_iff

section Serves

variable {routes : List (Route m)} {table : RoutingTable m}

/-- A router serves routes if it has their patterns, each with the handlers of the routes that have the pattern, in
the order of the routes. -/
structure Serves (table : RoutingTable m) (routes : List (Route m)) : Prop where
  patterns (p : Pattern) : p ∈ table.entries.map Prod.fst ↔ p ∈ routes.map Route.path
  handlers {p : Pattern} {methods : MethodRouter m} : (p, methods) ∈ table.entries →
    methods.rows = (routes.filter fun route => route.path = p).map fun route => (route.method, route.handler)

/-- What `ofRoutes` does when it succeeds. -/
theorem exists_groups_of_ofRoutes (h : ofRoutes routes = .ok table) :
    ∃ byPath, Groups routes byPath ∧ (routes.map Route.key).Nodup ∧
      (∀ entry ∈ byPath.entries, read entry.1 = .ok (patternAt entry.1)) ∧
      table.entries = byPath.entries.map fun entry => (patternAt entry.1, entry.2) := by
  obtain ⟨byPath, hfold, hregister⟩ := ofRoutes_eq_ok_iff.mp h
  obtain ⟨hdistinct, hgroups⟩ := groups_of_foldlM hfold
  obtain ⟨hreads, hentries⟩ := registerAll_eq_ok_iff.mp hregister
  exact ⟨byPath, hgroups, hdistinct, hreads, hentries⟩

/-- A route has an entry of the method routers by path under the path that it is translated to. -/
theorem Groups.exists_entry {byPath : SortedMap (MethodRouter m)} (h : Groups routes byPath) {route : Route m}
    (hmem : route ∈ routes) : ∃ methods, (route.translated, methods) ∈ byPath.entries := by
  obtain ⟨methods, hmethods⟩ := Option.isSome_iff_exists.mp (h.isSome_iff.mpr ⟨route, hmem, rfl⟩)
  exact ⟨methods, SortedMap.mem_entries_iff.mpr hmethods⟩

theorem Groups.exists_route {byPath : SortedMap (MethodRouter m)} (h : Groups routes byPath)
    {entry : String × MethodRouter m} (hentry : entry ∈ byPath.entries) :
    ∃ route ∈ routes, route.translated = entry.1 :=
  h.isSome_iff.mp (Option.isSome_iff_exists.mpr ⟨entry.2, SortedMap.mem_entries_iff.mp hentry⟩)

theorem nodup_unnamed (table : RoutingTable m) :
    (table.entries.map fun entry => entry.1.map Piece.unnamed).Nodup :=
  List.pairwise_map.mpr table.apart

/-- Two paths with the same pattern are the same in a router, whose patterns differ in more than names. -/
theorem eq_of_patternAt_eq {entries : List (String × MethodRouter m)}
    (hentries : table.entries = entries.map fun entry => (patternAt entry.1, entry.2))
    {entry other : String × MethodRouter m} (hentry : entry ∈ entries) (hother : other ∈ entries)
    (heq : (patternAt entry.1).map Piece.unnamed = (patternAt other.1).map Piece.unnamed) : entry = other := by
  have hdistinct := table.nodup_unnamed
  rw [hentries, List.map_map] at hdistinct
  exact List.inj_on_of_nodup_map hdistinct hentry hother heq

theorem serves_of_ofRoutes (h : ofRoutes routes = .ok table) : table.Serves routes := by
  obtain ⟨byPath, hgroups, -, -, hentries⟩ := exists_groups_of_ofRoutes h
  constructor
  · intro p
    simp only [hentries, List.map_map, List.mem_map, Function.comp_apply]
    constructor
    · rintro ⟨entry, hentry, rfl⟩
      obtain ⟨route, hmem, hpath⟩ := hgroups.exists_route hentry
      exact ⟨route, hmem, by rw [← patternAt_translated, hpath]⟩
    · rintro ⟨route, hmem, rfl⟩
      obtain ⟨methods, hentry⟩ := hgroups.exists_entry hmem
      exact ⟨_, hentry, patternAt_translated route⟩
  · intro p methods hmem
    rw [hentries] at hmem
    obtain ⟨⟨path, _⟩, hentry, heq⟩ := List.mem_map.mp hmem
    obtain ⟨rfl, rfl⟩ := Prod.mk.inj heq
    rw [hgroups.get?_eq_some (SortedMap.mem_entries_iff.mp hentry), handlersAt]
    refine congrArg _ (List.filter_congr fun route hroute => decide_eq_decide.mpr ⟨fun hpath => ?_, fun hpath => ?_⟩)
    · rw [← hpath, patternAt_translated]
    · obtain ⟨others, hother⟩ := hgroups.exists_entry hroute
      have hsame := congrArg (List.map Piece.unnamed) ((patternAt_translated route).trans hpath)
      exact congrArg Prod.fst (eq_of_patternAt_eq hentries hother hentry hsame)

/-- Exactly these routes build a router: `read` accepts each path, keys are distinct, which `MethodRouter.on`
checks, and no two paths are in `Conflicts`, which `register` checks. -/
theorem exists_ofRoutes_iff : (∃ table, ofRoutes routes = .ok table) ↔
    (∀ route ∈ routes, read route.translated = .ok route.path) ∧ (routes.map Route.key).Nodup ∧
      ∀ route ∈ routes, ∀ other ∈ routes, ¬ route.Conflicts other := by
  constructor
  · rintro ⟨table, h⟩
    obtain ⟨byPath, hgroups, hdistinct, hreads, hentries⟩ := exists_groups_of_ofRoutes h
    refine ⟨fun route hmem => ?_, hdistinct, fun route hmem other hother ⟨hne, hsame⟩ => hne ?_⟩
    · obtain ⟨methods, hentry⟩ := hgroups.exists_entry hmem
      have hread := hreads _ hentry
      rwa [patternAt_translated] at hread
    · obtain ⟨methods, hentry⟩ := hgroups.exists_entry hmem
      obtain ⟨others, hentry'⟩ := hgroups.exists_entry hother
      rw [← patternAt_translated route, ← patternAt_translated other] at hsame
      exact congrArg Prod.fst (eq_of_patternAt_eq hentries hentry hentry' hsame)
  · rintro ⟨hreads, hdistinct, hapart⟩
    obtain ⟨byPath, hfold, hgroups⟩ := exists_groups hdistinct
    have hpairwise : (byPath.entries.map fun entry => (patternAt entry.1, entry.2)).Pairwise
        fun a b => a.1.map Piece.unnamed ≠ b.1.map Piece.unnamed := by
      rw [List.pairwise_map]
      refine byPath.ascending.imp_of_mem fun {a b} ha hb hlt hsame => ?_
      obtain ⟨route, hmem, hroute⟩ := hgroups.exists_route ha
      obtain ⟨other, hother, hother'⟩ := hgroups.exists_route hb
      rw [← hroute, ← hother', patternAt_translated, patternAt_translated] at hsame
      refine hapart route hmem other hother ⟨fun heq => ?_, hsame⟩
      rw [← hroute, ← hother', heq] at hlt
      exact String.lt_irrefl _ hlt
    refine ⟨⟨_, hpairwise⟩, ofRoutes_eq_ok_iff.mpr ⟨byPath, hfold, registerAll_eq_ok_iff.mpr ⟨?_, rfl⟩⟩⟩
    intro entry hentry
    obtain ⟨route, hmem, hroute⟩ := hgroups.exists_route hentry
    rw [← hroute, patternAt_translated]
    exact hreads route hmem

end Serves

end RoutingTable

end BeaconApi
