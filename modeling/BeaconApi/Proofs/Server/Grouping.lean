import Mathlib.Data.List.Induction
import Mathlib.Data.List.Nodup
import BeaconApi.Proofs.Except
import BeaconApi.Proofs.Map.Sorted
import BeaconApi.Proofs.Map.Table
import BeaconApi.Server.Table

universe u

namespace BeaconApi

variable {m : Type → Type u}

/-- What tells a route apart in a router: its pattern as translated, and its method. -/
def Route.key (route : Route m) : String × Method := (route.translated, route.method)

namespace RoutingTable

/-- The handlers of the routes that are translated to a path, by their methods. -/
def handlersAt (routes : List (Route m)) (path : String) : List (Method × Handler m) :=
  (routes.filter (·.translated = path)).map fun route => (route.method, route.handler)

/-- Routes grouped by path: a path has a method router if routes are translated to it, with the handlers of these
routes in the order of the routes. -/
def Groups (routes : List (Route m)) (byPath : SortedMap (MethodRouter m)) : Prop :=
  ∀ path, (byPath.get? path).map Table.rows =
    if handlersAt routes path = [] then none else some (handlersAt routes path)

theorem handlersAt_concat (routes : List (Route m)) (route : Route m) (path : String) :
    handlersAt (routes ++ [route]) path =
      if route.translated = path then handlersAt routes path ++ [(route.method, route.handler)]
      else handlersAt routes path := by
  unfold handlersAt
  rw [List.filter_append, List.map_append]
  by_cases hpath : route.translated = path <;> simp [hpath]

theorem mem_keys_iff {routes : List (Route m)} {route : Route m} :
    route.key ∈ routes.map Route.key ↔
      route.method ∈ (handlersAt routes route.translated).map Prod.fst := by
  simp only [Route.key, handlersAt, List.mem_map, List.mem_filter, decide_eq_true_eq, Prod.mk.injEq]
  constructor
  · rintro ⟨other, hmem, hpath, hmethod⟩
    exact ⟨_, ⟨other, ⟨hmem, hpath⟩, rfl⟩, hmethod⟩
  · rintro ⟨_, ⟨other, ⟨hmem, hpath⟩, rfl⟩, hmethod⟩
    exact ⟨other, hmem, hpath, hmethod⟩

section Groups

variable {routes : List (Route m)} {byPath : SortedMap (MethodRouter m)} (h : Groups routes byPath)
include h

/-- What `add` takes out of the map for a path, be it there or not. -/
theorem Groups.rows_getD (path : String) :
    ((byPath.get? path).getD .empty).rows = handlersAt routes path := by
  have hpath := h path
  cases hget : byPath.get? path with
  | none =>
    rw [hget] at hpath
    split at hpath
    next hnone => exact hnone.symm
    next => cases hpath
  | some methods =>
    rw [hget] at hpath
    split at hpath
    next => cases hpath
    next => exact Option.some.inj hpath

theorem Groups.get?_eq_some {path : String} {methods : MethodRouter m} (hget : byPath.get? path = some methods) :
    methods.rows = handlersAt routes path := by
  have hrows := h.rows_getD path
  rwa [hget] at hrows

theorem Groups.isSome_iff {path : String} :
    (byPath.get? path).isSome ↔ ∃ route ∈ routes, route.translated = path := by
  have hnone : handlersAt routes path = [] ↔ ∀ route ∈ routes, route.translated ≠ path := by
    unfold handlersAt
    rw [List.map_eq_nil_iff, List.filter_eq_nil_iff]
    simp only [decide_eq_true_eq, ne_eq]
  rw [← Option.isSome_map (f := Table.rows), h path]
  split
  next hempty => simpa using hnone.mp hempty
  next hfull =>
    rw [hnone] at hfull
    push Not at hfull
    simpa using hfull

/-- Adding a route that has a method and a path of its own keeps the routes grouped. -/
theorem Groups.add {route : Route m} (hnew : route.key ∉ routes.map Route.key) :
    ∃ byPath', RoutingTable.add byPath route = .ok byPath' ∧ Groups (routes ++ [route]) byPath' := by
  have hrows := h.rows_getD route.translated
  rw [mem_keys_iff, ← hrows, ← Table.contains_iff] at hnew
  have hset : ((byPath.get? route.translated).getD .empty).get? route.method = none :=
    Option.not_isSome_iff_eq_none.mp hnew
  refine ⟨(byPath.erase route.translated).insert route.translated
    (((byPath.get? route.translated).getD .empty).insert route.method route.handler), ?_, fun path => ?_⟩
  · simp only [RoutingTable.add, MethodRouter.on, if_neg hnew]
    rfl
  · rw [SortedMap.get?_insert, SortedMap.get?_erase, handlersAt_concat]
    by_cases hpath : path = route.translated
    · subst hpath
      rw [if_pos rfl, if_pos rfl, Option.map_some, Table.rows_insert_of_get?_eq_none hset, hrows]
      simp
    · rw [if_neg hpath, if_neg hpath, if_neg (Ne.symm hpath)]
      exact h path

/-- A route whose path has a handler for its method is not added. -/
theorem Groups.add_of_mem {route : Route m} (hmem : route.key ∈ routes.map Route.key) :
    RoutingTable.add byPath route = .error (.overlap route.translated route.method) := by
  rw [mem_keys_iff, ← h.rows_getD route.translated, ← Table.contains_iff] at hmem
  simp only [RoutingTable.add, MethodRouter.on, if_pos hmem]
  rfl

end Groups

theorem groups_nil : Groups ([] : List (Route m)) .empty := fun _ => rfl

/-- Routes whose keys are distinct are taken one after another without an error, and grouped. -/
theorem exists_groups {routes : List (Route m)} (h : (routes.map Route.key).Nodup) :
    ∃ byPath, routes.foldlM add .empty = .ok byPath ∧ Groups routes byPath := by
  induction routes using List.reverseRecOn with
  | nil => exact ⟨_, rfl, groups_nil⟩
  | append_singleton routes route ih =>
    rw [List.map_append, List.nodup_append] at h
    obtain ⟨hrest, -, hnew⟩ := h
    obtain ⟨byPath, hfold, hgroups⟩ := ih hrest
    obtain ⟨byPath', hadd, hgroups'⟩ := hgroups.add fun hmem => hnew _ hmem _ List.mem_cons_self rfl
    exact ⟨byPath', foldlM_concat_eq_ok_iff.mpr ⟨byPath, hfold, hadd⟩, hgroups'⟩

/-- Routes that have been taken without an error are grouped, and their keys are distinct. -/
theorem groups_of_foldlM {routes : List (Route m)} {byPath : SortedMap (MethodRouter m)}
    (h : routes.foldlM add .empty = .ok byPath) : (routes.map Route.key).Nodup ∧ Groups routes byPath := by
  induction routes using List.reverseRecOn generalizing byPath with
  | nil =>
    cases h
    exact ⟨.nil, groups_nil⟩
  | append_singleton routes route ih =>
    obtain ⟨before, hfold, h⟩ := foldlM_concat_eq_ok_iff.mp h
    obtain ⟨hdistinct, hgroups⟩ := ih hfold
    by_cases hmem : route.key ∈ routes.map Route.key
    · cases (hgroups.add_of_mem hmem).symm.trans h
    · obtain ⟨byPath', hadd, hgroups'⟩ := hgroups.add hmem
      obtain rfl := Except.ok.inj (hadd.symm.trans h)
      refine ⟨?_, hgroups'⟩
      rw [List.map_append, List.map_singleton]
      exact List.nodup_append.mpr ⟨hdistinct, List.nodup_singleton _, fun key hkey other hother heq =>
        hmem (List.mem_singleton.mp hother ▸ heq ▸ hkey)⟩

end RoutingTable

end BeaconApi
