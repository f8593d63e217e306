import Mathlib.Data.List.Basic
import BeaconApi.Proofs.Wire.RoundTrip

namespace BeaconApi.Wire

open Json (Document Fault)

/-- Whether a member has a name. -/
def isNamed (name : String) : Except Fault String × Document → Bool
  | (.ok key, _) => key = name
  | (.error _, _) => false

/-- The documents of the members of a name. -/
def valuesOf (name : String) (members : Members) : List Document :=
  (members.filter (isNamed name)).map Prod.snd

/-- The members of other names. -/
def without (name : String) (members : Members) : Members := members.filter (! isNamed name ·)

/-- All members have names and can be passed over. -/
def Passable (members : Members) : Prop := ∀ m ∈ members, (∃ key, m.1 = .ok key) ∧ m.2.skip = .ok ()

section Members

variable {name other key : String} {d : Document} {members : Members} {fault : Fault}

@[simp] theorem valuesOf_nil : valuesOf name [] = [] := rfl

@[simp] theorem without_nil : without name [] = [] := rfl

theorem valuesOf_cons_self : valuesOf name ((.ok name, d) :: members) = d :: valuesOf name members := by
  simp [valuesOf, isNamed]

theorem valuesOf_cons_of_ne (h : key ≠ name) :
    valuesOf name ((.ok key, d) :: members) = valuesOf name members := by
  simp [valuesOf, isNamed, h]

theorem without_cons_self : without name ((.ok name, d) :: members) = without name members := by
  simp [without, isNamed]

theorem without_cons_of_ne (h : key ≠ name) :
    without name ((.ok key, d) :: members) = (.ok key, d) :: without name members := by
  simp [without, isNamed, h]

theorem without_cons_error :
    without name ((.error fault, d) :: members) = (.error fault, d) :: without name members := by
  simp [without, isNamed]

/-- Setting a name apart does not touch the members of another. -/
theorem valuesOf_without (h : name ≠ other) : valuesOf name (without other members) = valuesOf name members := by
  rw [valuesOf, without, List.filter_filter, valuesOf]
  congr 1
  refine List.filter_congr fun m _ => ?_
  obtain ⟨key, _⟩ := m
  cases key with
  | error => rfl
  | ok key =>
    by_cases hkey : key = name
    · subst hkey
      simp [isNamed, h]
    · simp [isNamed, hkey]

theorem Passable.without (h : Passable members) : Passable (without name members) :=
  fun m hm => h m ((List.mem_filter.mp hm).1)

end Members

section Walk

variable {γ σ : Type} {name : String} {read : Document → Decoded γ}
  {rest : σ → String → Document → Decoded (Option σ)}
  {take : Option γ × σ → String → Document → Decoded (Option (Option γ × σ))}

/-- The values of a name that has been met at most once, before and after. -/
def Assigned (read : Document → Decoded γ) (before : Option γ) (values : List Document)
    (after : Option γ) : Prop :=
  (values = [] ∧ after = before) ∨
    ∃ d x, values = [d] ∧ before = none ∧ read d = .ok x ∧ after = some x

/-- What is read for a name unless it has a value already. -/
def once {τ : Type} (name : String) (value : Option γ) (result : Decoded τ) : Decoded τ :=
  match value with
  | some _ => .error (.duplicateField name)
  | none => result

/-- A walk with a slot for `name` comes apart into the slot and the walk of `rest`, each over its own members.
`hown` and `hother` say that `take` does one of the two for each key and leaves the other state alone. -/
theorem walk_field
    (hown : ∀ value others d, take (value, others) name d =
      once name value ((read d).map fun x => some (some x, others)))
    (hother : ∀ value others key d, key ≠ name →
      take (value, others) key d = (rest others key d).map (Option.map (value, ·)))
    {members : Members} {before after : Option γ} {others others' : σ} :
    walk take (before, others) members = .ok (after, others') ↔
      Assigned read before (valuesOf name members) after ∧
        walk rest others (without name members) = .ok others' := by
  induction members generalizing before others with
  | nil => simp [walk, Assigned, eq_comm]
  | cons member members ih =>
    obtain ⟨key, d⟩ := member
    cases key with
    | error fault => simp [walk, without_cons_error]
    | ok key =>
      by_cases hkey : key = name
      · subst hkey
        rw [walk, hown, valuesOf_cons_self, without_cons_self]
        cases before with
        | some value => simp [Assigned, once]
        | none =>
          cases hread : read d with
          | error e => simp [Assigned, once, Except.map, hread]
          | ok x => simp [Assigned, once, Except.map, hread, ih]
      · rw [walk, hother _ _ _ _ hkey, valuesOf_cons_of_ne hkey, without_cons_of_ne hkey, walk]
        cases rest others key d with
        | error e => simp [Except.map]
        | ok next =>
          cases next with
          | some next => exact ih
          | none =>
            cases hskip : d.skip with
            | error fault => simp [Except.map]
            | ok => simpa [Except.map, hskip] using ih

/-- A walk that takes nothing passes over all members. -/
theorem walk_nothing {state state' : σ} {members : Members} :
    walk (fun _ _ _ => .ok none) state members = .ok state' ↔ Passable members ∧ state' = state := by
  induction members with
  | nil => simp [walk, Passable, eq_comm]
  | cons member members ih =>
    obtain ⟨key, d⟩ := member
    cases key with
    | error fault => simp [walk, Passable]
    | ok key =>
      cases hskip : d.skip with
      | error fault => simp [walk, Passable, hskip]
      | ok =>
        rw [walk]
        simp only [hskip, ih, Passable, List.forall_mem_cons]
        simp

end Walk

end BeaconApi.Wire
