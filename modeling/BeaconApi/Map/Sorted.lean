universe u

namespace BeaconApi

/-- A map whose entries stand in ascending order of their keys. -/
structure SortedMap (α : Type u) where
  entries : List (String × α)
  ascending : entries.Pairwise fun a b => a.1 < b.1

namespace SortedMap

variable {α : Type u}

/-- The map without entries. -/
def empty : SortedMap α := ⟨[], .nil⟩

instance : Inhabited (SortedMap α) := ⟨empty⟩

/-- Put an entry at its place, replacing the value of an equal key. -/
def place (key : String) (value : α) : List (String × α) → List (String × α)
  | [] => [(key, value)]
  | (k, v) :: rest =>
    if key < k then (key, value) :: (k, v) :: rest
    else if key = k then (key, value) :: rest
    else (k, v) :: place key value rest

theorem mem_of_mem_place {key : String} {value : α} {entries : List (String × α)}
    {e : String × α} (h : e ∈ place key value entries) : e = (key, value) ∨ e ∈ entries := by
  induction entries with
  | nil => simpa [place] using h
  | cons head rest ih =>
    simp only [place] at h
    split at h
    · simpa using h
    · split at h
      · rcases List.mem_cons.mp h with h | h
        · exact .inl h
        · exact .inr (List.mem_cons_of_mem _ h)
      · rcases List.mem_cons.mp h with h | h
        · exact .inr (h ▸ List.mem_cons_self)
        · exact (ih h).imp_right (List.mem_cons_of_mem _)

theorem ascending_place {key : String} {value : α} {entries : List (String × α)}
    (h : entries.Pairwise fun a b => a.1 < b.1) :
    (place key value entries).Pairwise fun a b => a.1 < b.1 := by
  induction entries with
  | nil => simp [place]
  | cons head rest ih =>
    obtain ⟨hhead, hrest⟩ := List.pairwise_cons.mp h
    simp only [place]
    split
    · next hlt =>
      refine List.pairwise_cons.mpr ⟨fun e he => ?_, h⟩
      rcases List.mem_cons.mp he with rfl | he
      · exact hlt
      · exact String.lt_trans hlt (hhead e he)
    · split
      · next heq => exact List.pairwise_cons.mpr ⟨heq ▸ hhead, hrest⟩
      · next hlt hne =>
        refine List.pairwise_cons.mpr ⟨fun e he => ?_, ih hrest⟩
        rcases mem_of_mem_place he with rfl | he
        · exact Std.lt_of_le_of_ne (Std.not_lt.mp hlt) (Ne.symm hne)
        · exact hhead e he

/-- Set the value of a key. -/
def insert (map : SortedMap α) (key : String) (value : α) : SortedMap α :=
  ⟨place key value map.entries, ascending_place map.ascending⟩

/-- Set the value of a key if there is one. -/
def insertSome (map : SortedMap α) (key : String) : Option α → SortedMap α
  | some value => map.insert key value
  | none => map

/-- Take out the entry of a key, if there is one. -/
def erase (map : SortedMap α) (key : String) : SortedMap α :=
  ⟨map.entries.filter (·.1 ≠ key), map.ascending.filter _⟩

/-- The value of a key. -/
def get? (map : SortedMap α) (key : String) : Option α := map.entries.lookup key

/-- The map of the given entries. Where a key is repeated, the last of its values stands. -/
def ofList (entries : List (String × α)) : SortedMap α :=
  entries.foldl (fun map (key, value) => map.insert key value) empty

/-- The values of each key, in the order of the entries. -/
def group (entries : List (String × α)) : SortedMap (List α) :=
  entries.foldr (fun (key, value) map => map.insert key (value :: (map.get? key).getD [])) empty

/-- Whether there is no entry. -/
def isEmpty (map : SortedMap α) : Bool := map.entries.isEmpty

theorem lookup_cons (key k : String) (v : α) (rest : List (String × α)) :
    List.lookup key ((k, v) :: rest) = if key = k then some v else rest.lookup key := by
  by_cases h : key = k <;> simp [List.lookup_cons, h, beq_eq_false_iff_ne.mpr]

theorem get?_insert (map : SortedMap α) (key other : String) (value : α) :
    (map.insert key value).get? other = if other = key then some value else map.get? other := by
  obtain ⟨entries, _⟩ := map
  simp only [get?, insert]
  induction entries with
  | nil => simp [place, lookup_cons]
  | cons head rest ih =>
    specialize ih (List.pairwise_cons.mp ‹_›).2
    obtain ⟨k, v⟩ := head
    simp only [place]
    split
    · simp [lookup_cons]
    · split
      · next heq => subst heq; by_cases h : other = key <;> simp [lookup_cons, h]
      · next hne =>
        rw [lookup_cons, lookup_cons, ih]
        by_cases hk : other = k
        · simp [hk, Ne.symm hne]
        · simp [hk]

theorem get?_erase (map : SortedMap α) (key other : String) :
    (map.erase key).get? other = if other = key then none else map.get? other := by
  obtain ⟨entries, _⟩ := map
  simp only [get?, erase]
  induction entries with
  | nil => simp
  | cons head rest ih =>
    specialize ih (List.pairwise_cons.mp ‹_›).2
    obtain ⟨k, v⟩ := head
    rw [List.filter_cons]
    by_cases hk : k = key
    · subst hk
      rw [if_neg (by simp), ih, lookup_cons]
      by_cases h : other = k <;> simp [h]
    · rw [if_pos (by simpa using hk), lookup_cons, lookup_cons, ih]
      by_cases h : other = k
      · simp [h, hk]
      · simp [h]

theorem getD_get?_group (entries : List (String × α)) (key : String) :
    ((group entries).get? key).getD [] = (entries.filter (·.1 = key)).map Prod.snd := by
  induction entries with
  | nil => rfl
  | cons head rest ih =>
    have step : group (head :: rest) =
        (group rest).insert head.1 (head.2 :: ((group rest).get? head.1).getD []) := rfl
    rw [step, get?_insert]
    by_cases h : key = head.1
    · simp [← h, ih]
    · simp [h, Ne.symm h, ih]

end SortedMap

end BeaconApi
