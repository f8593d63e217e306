universe u

namespace BeaconApi

/-- A table whose rows have distinct keys. -/
structure Table (κ : Type) (α : Type u) where
  rows : List (κ × α)
  distinct : (rows.map Prod.fst).Nodup

namespace Table

variable {κ : Type} {α : Type u} [DecidableEq κ]

/-- The table without rows. -/
def empty : Table κ α := ⟨[], .nil⟩

/-- The table with one row. -/
def single (key : κ) (value : α) : Table κ α := ⟨[(key, value)], by simp⟩

/-- Set the value of a key in a list of rows. -/
def put (key : κ) (value : α) : List (κ × α) → List (κ × α)
  | [] => [(key, value)]
  | (k, v) :: rest => if k = key then (key, value) :: rest else (k, v) :: put key value rest

theorem keys_put (key : κ) (value : α) (rows : List (κ × α)) :
    (put key value rows).map Prod.fst =
      if key ∈ rows.map Prod.fst then rows.map Prod.fst else rows.map Prod.fst ++ [key] := by
  induction rows with
  | nil => simp [put]
  | cons head rest ih =>
    obtain ⟨k, v⟩ := head
    by_cases hk : k = key
    · simp [put, hk]
    · simp only [put, if_neg hk, List.map_cons, ih, List.mem_cons, Ne.symm hk, false_or]
      split <;> simp

/-- Set the value of a key. -/
def insert (table : Table κ α) (key : κ) (value : α) : Table κ α :=
  ⟨put key value table.rows, by
    rw [keys_put]
    split
    · exact table.distinct
    · next h =>
      refine List.nodup_append.mpr ⟨table.distinct, by simp, ?_⟩
      intro a ha b hb hab
      exact h (List.mem_singleton.mp hb ▸ hab ▸ ha)⟩

/-- The value of a key. -/
def get? (table : Table κ α) (key : κ) : Option α := table.rows.lookup key

/-- Whether a key has a value. -/
def contains (table : Table κ α) (key : κ) : Bool := (table.get? key).isSome

/-- The values in the order of their rows. -/
def values (table : Table κ α) : List α := table.rows.map Prod.snd

theorem lookup_cons (key k : κ) (v : α) (rest : List (κ × α)) :
    List.lookup key ((k, v) :: rest) = if key = k then some v else rest.lookup key := by
  by_cases h : key = k <;> simp [List.lookup_cons, h, beq_eq_false_iff_ne.mpr]

theorem get?_insert (table : Table κ α) (key other : κ) (value : α) :
    (table.insert key value).get? other = if other = key then some value else table.get? other := by
  obtain ⟨rows, _⟩ := table
  simp only [get?, insert]
  induction rows with
  | nil => simp [put, lookup_cons]
  | cons head rest ih =>
    specialize ih (List.nodup_cons.mp ‹_›).2
    obtain ⟨k, v⟩ := head
    by_cases hk : k = key
    · subst hk
      by_cases h : other = k <;> simp [put, lookup_cons, h]
    · rw [put, if_neg hk, lookup_cons, lookup_cons, ih]
      by_cases h : other = k
      · simp [h, hk]
      · simp [h]

end Table

end BeaconApi
