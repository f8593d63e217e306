import BeaconApi.Map.Sorted
import Mathlib.Data.List.Perm.Basic

universe u

namespace BeaconApi.SortedMap

variable {α : Type u}

/-- The entries of a map are its values with their keys. -/
theorem mem_entries_iff {map : SortedMap α} {key : String} {value : α} :
    (key, value) ∈ map.entries ↔ map.get? key = some value := by
  obtain ⟨entries, ascending⟩ := map
  change (key, value) ∈ entries ↔ entries.lookup key = some value
  induction entries with
  | nil => simp
  | cons entry entries ih =>
    obtain ⟨k, v⟩ := entry
    obtain ⟨hbefore, hrest⟩ := List.pairwise_cons.mp ascending
    rw [lookup_cons, List.mem_cons, Prod.mk.injEq]
    by_cases hkey : key = k
    · subst hkey
      have hnot : (key, value) ∉ entries := fun hmem => String.lt_irrefl key (hbefore _ hmem)
      simp [hnot, eq_comm]
    · simp [hkey, ih hrest]

section Split

variable {map : SortedMap α} {key : String} {value : α} {before after : List (String × α)}
  (hsplit : map.entries = before ++ (key, value) :: after)
include hsplit

/-- The keys before an entry are below its key. -/
theorem lt_of_mem_before {entry : String × α} (h : entry ∈ before) : entry.1 < key := by
  have hascending := map.ascending
  rw [hsplit] at hascending
  exact (List.pairwise_append.mp hascending).2.2 entry h _ List.mem_cons_self

/-- Where an entry does not stand before another, its key is no lower. -/
theorem mem_before_or_le {other : String} {found : α} (h : map.get? other = some found) :
    (other, found) ∈ before ∨ key ≤ other := by
  have hascending := map.ascending
  have hmem := mem_entries_iff.mpr h
  rw [hsplit] at hascending hmem
  rcases List.mem_append.mp hmem with hmem | hmem
  · exact .inl hmem
  · rcases List.mem_cons.mp hmem with heq | hmem
    · obtain ⟨rfl, _⟩ := Prod.mk.inj heq
      exact .inr (Std.le_refl other)
    · have hafter := (List.pairwise_cons.mp (List.pairwise_append.mp hascending).2.1).1
      exact .inr (Std.le_of_lt (hafter _ hmem))

end Split

/-- Maps with the same values are the same. -/
theorem ext_get? {map other : SortedMap α} (h : ∀ key, map.get? key = other.get? key) : map = other := by
  have hnodup (map : SortedMap α) : map.entries.Nodup := by
    refine map.ascending.imp fun {a b} hlt => ?_
    rintro rfl
    exact String.lt_irrefl a.1 hlt
  have hperm : map.entries.Perm other.entries := by
    refine (List.perm_ext_iff_of_nodup (hnodup map) (hnodup other)).mpr fun ⟨key, value⟩ => ?_
    rw [mem_entries_iff, mem_entries_iff, h]
  have hentries : map.entries = other.entries :=
    hperm.eq_of_pairwise (fun a b _ _ hab hba => absurd hab (String.lt_asymm hba)) map.ascending other.ascending
  cases map
  cases other
  cases hentries
  rfl

/-- The entries of a key are its value alone. -/
theorem filter_entries (map : SortedMap α) (key : String) :
    map.entries.filter (·.1 = key) = (map.get? key).toList.map fun value => (key, value) := by
  obtain ⟨entries, ascending⟩ := map
  change _ = ((entries.lookup key).toList.map _)
  induction entries with
  | nil => rfl
  | cons entry entries ih =>
    obtain ⟨k, v⟩ := entry
    obtain ⟨hbefore, hrest⟩ := List.pairwise_cons.mp ascending
    rw [lookup_cons]
    by_cases hkey : key = k
    · subst hkey
      have hnone : entries.filter (·.1 = key) = [] := by
        refine List.filter_eq_nil_iff.mpr fun entry hentry => ?_
        rw [decide_eq_true_eq]
        rintro rfl
        exact String.lt_irrefl _ (hbefore entry hentry)
      simp [hnone]
    · simpa [hkey, Ne.symm hkey] using ih hrest

/-- Where a key is repeated, the last of its values stands. -/
theorem get?_ofList (entries : List (String × α)) (key : String) :
    (ofList entries).get? key = ((entries.filter (·.1 = key)).getLast?).map Prod.snd := by
  have hfold (map : SortedMap α) : (entries.foldl (fun map entry => map.insert entry.1 entry.2) map).get? key =
      (((entries.filter (·.1 = key)).getLast?).map Prod.snd).or (map.get? key) := by
    induction entries generalizing map with
    | nil => rfl
    | cons entry entries ih =>
      obtain ⟨k, v⟩ := entry
      rw [List.foldl_cons, ih, get?_insert, List.filter_cons]
      by_cases hkey : key = k
      · subst hkey
        cases hlast : (entries.filter (·.1 = key)).getLast? with
        | none => simp [List.getLast?_eq_none_iff.mp hlast]
        | some entry => simp [List.getLast?_cons, hlast]
      · simp [hkey, Ne.symm hkey]
  refine (hfold .empty).trans ?_
  change Option.or _ none = _
  rw [Option.or_none]

/-- The entries of each key have to be inserted in their order, but not those of different keys. -/
theorem ofList_congr {entries other : List (String × α)}
    (h : ∀ key, entries.filter (·.1 = key) = other.filter (·.1 = key)) : ofList entries = ofList other :=
  ext_get? fun key => by rw [get?_ofList, get?_ofList, h]

/-- A key has a group if it has entries. -/
theorem get?_group (entries : List (String × α)) (key : String) :
    (group entries).get? key =
      if entries.filter (·.1 = key) = [] then none else some ((entries.filter (·.1 = key)).map Prod.snd) := by
  induction entries with
  | nil => rfl
  | cons head rest ih =>
    have hstep : group (head :: rest) =
        (group rest).insert head.1 (head.2 :: ((group rest).get? head.1).getD []) := rfl
    rw [hstep, get?_insert, getD_get?_group]
    by_cases hkey : key = head.1
    · simp [← hkey]
    · rw [if_neg hkey, ih, List.filter_cons_of_neg (by simpa using Ne.symm hkey)]

end BeaconApi.SortedMap
