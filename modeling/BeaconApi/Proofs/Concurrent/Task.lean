import BeaconApi.Proofs.Memory.Run

namespace BeaconApi

/-- A computation that is done, or asks for an operation and goes on with what comes of it. -/
inductive Task (α : Type) : Type 1
  | done (a : α)
  | ask {β : Type} (op : Operation β) (next : β → Task α)

namespace Task

variable {α β γ : Type}

/-- Go on with the result of a task. -/
protected def bind : Task α → (α → Task β) → Task β
  | done a, f => f a
  | ask op next, f => ask op fun b => (next b).bind f

instance : Monad Task where
  pure := done
  bind := Task.bind

theorem done_bind (a : α) (f : α → Task β) : done a >>= f = f a := rfl

theorem ask_bind (op : Operation γ) (next : γ → Task α) (f : α → Task β) :
    ask op next >>= f = ask op fun b => next b >>= f :=
  rfl

theorem bind_done (t : Task α) : t >>= done = t := by
  induction t with
  | done a => rfl
  | ask op next ih => rw [ask_bind, funext ih]

theorem bind_assoc (t : Task α) (f : α → Task β) (g : β → Task γ) :
    t >>= f >>= g = t >>= fun a => f a >>= g := by
  induction t with
  | done a => rfl
  | ask op next ih => rw [ask_bind, ask_bind, ask_bind, funext ih]

instance : LawfulMonad Task := .mk' Task bind_done done_bind bind_assoc

/-- A backend that leaves every operation to be carried out. -/
def backend : Backend Task where
  perform op := ask op done

/-- Carry out the operations of a task, one right after another. -/
def runAlone : Task α → StateM Memory α
  | done a => pure a
  | ask op next => Memory.backend.perform op >>= fun b => (next b).runAlone

theorem runAlone_perform (op : Operation α) : (backend.perform op).runAlone = Memory.backend.perform op := rfl

theorem runAlone_bind (t : Task α) (f : α → Task β) :
    (t >>= f).runAlone = t.runAlone >>= fun a => (f a).runAlone := by
  induction t with
  | done a => rfl
  | ask op next ih => rw [ask_bind, runAlone, runAlone, LawfulMonad.bind_assoc, funext ih]

theorem runAlone_map (g : α → β) (t : Task α) : (g <$> t).runAlone = g <$> t.runAlone := by
  rw [← bind_pure_comp, runAlone_bind, ← bind_pure_comp]
  rfl

end Task

/-- An operation, and the node that carries it out. -/
structure Deed : Type 1 where
  {α : Type}
  op : Operation α
  before : Memory

namespace Task

variable {α β γ : Type}

/-- A task ends with a result when its operations are carried out by the nodes that are given for them. -/
inductive Ends : Task α → List Deed → α → Prop
  | done {a : α} : Ends (done a) [] a
  | ask {β : Type} {op : Operation β} {next : β → Task α} {s : Memory} {deeds : List Deed} {a : α}
      (h : Ends (next (s.step op).1) deeds a) : Ends (ask op next) (⟨op, s⟩ :: deeds) a

section Ends

variable {deeds : List Deed} {a : α} {b : β} {t : Task α} {f : α → Task β}

theorem ends_done_iff {a' : α} : (done a).Ends deeds a' ↔ deeds = [] ∧ a' = a := by
  constructor
  · intro h
    cases h
    exact ⟨rfl, rfl⟩
  · rintro ⟨rfl, rfl⟩
    exact .done

theorem ends_pure_iff {a' : α} : (pure a : Task α).Ends deeds a' ↔ deeds = [] ∧ a' = a :=
  ends_done_iff

/-- A task that goes on with the result of another one ends behind it. -/
theorem Ends.of_bind (h : (t >>= f).Ends deeds b) :
    ∃ a first rest, deeds = first ++ rest ∧ t.Ends first a ∧ (f a).Ends rest b := by
  induction t generalizing deeds with
  | done a => exact ⟨a, [], deeds, rfl, .done, h⟩
  | ask op next ih =>
    rw [ask_bind] at h
    cases h with
    | ask hrest =>
      obtain ⟨a, first, rest, rfl, hfirst, hlast⟩ := ih _ hrest
      exact ⟨a, _ :: first, rest, rfl, .ask hfirst, hlast⟩

theorem Ends.of_map {g : α → β} (h : (g <$> t).Ends deeds b) : ∃ a, t.Ends deeds a ∧ b = g a := by
  rw [← bind_pure_comp] at h
  obtain ⟨a, first, rest, rfl, hfirst, hlast⟩ := h.of_bind
  obtain ⟨rfl, rfl⟩ := ends_pure_iff.mp hlast
  exact ⟨a, by rwa [List.append_nil], rfl⟩

/-- A task that begins with an operation goes on with what comes of it. -/
theorem Ends.of_perform {op : Operation α} (h : (backend.perform op >>= f).Ends deeds b) :
    ∃ s rest, deeds = ⟨op, s⟩ :: rest ∧ (f (s.step op).1).Ends rest b := by
  cases h with
  | ask hrest => exact ⟨_, _, rfl, hrest⟩

/-- A task that is an operation ends with what comes of it. -/
theorem Ends.of_last {op : Operation α} (h : (backend.perform op).Ends deeds a) :
    ∃ s, deeds = [⟨op, s⟩] ∧ a = (s.step op).1 := by
  cases h with
  | ask hrest =>
    obtain ⟨rfl, rfl⟩ := ends_done_iff.mp hrest
    exact ⟨_, rfl, rfl⟩

end Ends

open Memory (Chronicle)

/-- A task adds no block under a root that was not given for it. `given` is what has been given so far. -/
def Safe : Task α → List (Root × SignedBeaconBlock) → Prop
  | done _, _ => True
  | ask op next, given => ∀ c : Chronicle, given ⊆ c.stored →
    c.Permits (.perform op) ∧ (next (c.memory.step op).1).Safe (c.after (.perform op)).stored

section Safe

variable {given : List (Root × SignedBeaconBlock)} {t : Task α} {f : α → Task β}

theorem safe_pure (a : α) : (pure a : Task α).Safe given := trivial

/-- What was safe stays safe when more roots are given. -/
theorem Safe.mono (h : t.Safe given) {more : List (Root × SignedBeaconBlock)} (hmore : given ⊆ more) :
    t.Safe more := by
  cases t with
  | done a => trivial
  | ask op next => exact fun c hc => h c (List.Subset.trans hmore hc)

theorem Safe.bind (h : t.Safe given) (hf : ∀ a more, given ⊆ more → (f a).Safe more) :
    (t >>= f).Safe given := by
  induction t generalizing given with
  | done a => exact hf a given (List.Subset.refl _)
  | ask op next ih =>
    intro c hc
    obtain ⟨hpermits, hnext⟩ := h c hc
    have hlater : given ⊆ (c.after (.perform op)).stored :=
      List.Subset.trans hc (List.subset_append_right _ _)
    exact ⟨hpermits, ih _ hnext fun a more hmore => hf a more (List.Subset.trans hlater hmore)⟩

theorem Safe.map (h : t.Safe given) (g : α → β) : (g <$> t).Safe given := by
  rw [← bind_pure_comp]
  exact h.bind fun a _ _ => safe_pure (g a)

/-- An operation that is always permitted is safe. -/
theorem safe_perform {op : Operation α} (hpermits : ∀ c : Chronicle, c.Permits (.perform op)) :
    (backend.perform op).Safe given :=
  fun c _ => ⟨hpermits c, trivial⟩

end Safe

end Task

end BeaconApi
