import BeaconApi.Map.Table

universe u

namespace BeaconApi.Table

variable {κ : Type} {α : Type u} [DecidableEq κ] {table table' : Table κ α} {key : κ}

theorem get?_single (key other : κ) (value : α) :
    (single key value).get? other = if other = key then some value else none :=
  lookup_cons ..

theorem get?_eq_some_iff {value : α} : table.get? key = some value ↔ (key, value) ∈ table.rows := by
  obtain ⟨rows, hdistinct⟩ := table
  simp only [get?]
  induction rows with
  | nil => simp
  | cons row rows ih =>
    obtain ⟨k, v⟩ := row
    obtain ⟨hnew, hrest⟩ := List.nodup_cons.mp hdistinct
    rw [lookup_cons, List.mem_cons, Prod.mk.injEq]
    by_cases hkey : key = k
    · subst hkey
      have hnot : (key, value) ∉ rows := fun hmem => hnew (List.mem_map.mpr ⟨_, hmem, rfl⟩)
      simp [hnot, eq_comm]
    · simp [hkey, ih hrest]

/-- A key has a value if a row has it. -/
theorem contains_iff : table.contains key ↔ key ∈ table.rows.map Prod.fst := by
  unfold contains
  rw [Option.isSome_iff_exists, List.mem_map]
  constructor
  · rintro ⟨value, hvalue⟩
    exact ⟨(key, value), get?_eq_some_iff.mp hvalue, rfl⟩
  · rintro ⟨⟨_, value⟩, hmem, rfl⟩
    exact ⟨value, get?_eq_some_iff.mpr hmem⟩

theorem exists_get?_of_mem_values {value : α} (h : value ∈ table.values) :
    ∃ key, table.get? key = some value := by
  obtain ⟨row, hrow, rfl⟩ := List.mem_map.mp h
  exact ⟨row.1, get?_eq_some_iff.mpr hrow⟩

/-- A key without a value gets a row of its own behind the others. -/
theorem rows_insert_of_get?_eq_none (h : table.get? key = none) (value : α) :
    (table.insert key value).rows = table.rows ++ [(key, value)] := by
  obtain ⟨rows, hdistinct⟩ := table
  simp only [insert, get?] at h ⊢
  induction rows with
  | nil => rfl
  | cons row rows ih =>
    obtain ⟨k, v⟩ := row
    rw [lookup_cons] at h
    split at h
    · cases h
    next hne =>
      rw [put, if_neg (Ne.symm hne), ih (List.nodup_cons.mp hdistinct).2 h]
      rfl

/-- Tables with the same rows have the same values, in whatever order the rows are. -/
theorem get?_of_perm (h : table'.rows.Perm table.rows) (key : κ) : table'.get? key = table.get? key := by
  ext value
  rw [get?_eq_some_iff, get?_eq_some_iff, h.mem_iff]

/-- Setting a key leaves all other rows in place. -/
theorem put_perm (key : κ) (value : α) {rows : List (κ × α)} (hdistinct : (rows.map Prod.fst).Nodup) :
    (put key value rows).Perm ((key, value) :: rows.filter fun row => row.1 ≠ key) := by
  induction rows with
  | nil => exact .refl _
  | cons row rows ih =>
    obtain ⟨k, v⟩ := row
    obtain ⟨hnew, hrest⟩ := List.nodup_cons.mp hdistinct
    by_cases hkey : k = key
    · have hothers : rows.filter (fun row => row.1 ≠ key) = rows := by
        refine List.filter_eq_self.mpr fun other hother => decide_eq_true fun heq => hnew ?_
        exact List.mem_map.mpr ⟨other, hother, heq.trans hkey.symm⟩
      rw [put, if_pos hkey, List.filter_cons_of_neg (by simpa using hkey), hothers]
    · rw [put, if_neg hkey, List.filter_cons_of_pos (by simpa using hkey)]
      exact ((ih hrest).cons _).trans (.swap ..)

theorem insert_perm (h : table'.rows.Perm table.rows) (key : κ) (value : α) :
    (table'.insert key value).rows.Perm (table.insert key value).rows := by
  refine (put_perm key value table'.distinct).trans (.trans ?_ (put_perm key value table.distinct).symm)
  exact (h.filter _).cons _

end BeaconApi.Table
