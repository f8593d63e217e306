import Mathlib.Algebra.BigOperators.Group.Finset.Piecewise
import Mathlib.Data.Fintype.Basic
import Mathlib.Logic.Function.Basic
import BeaconApi.Proofs.Concurrent.Task

namespace BeaconApi

universe u v

open Memory (Chronicle)

/-- What belongs to a task, of things that each belong to one. -/
def own {n : Nat} {γ : Type u} (all : List (Fin n × γ)) (i : Fin n) : List γ :=
  (all.filter fun entry => entry.1 = i).map Prod.snd

section Own

variable {n : Nat} {γ : Type u} {all : List (Fin n × γ)} {i j : Fin n}

theorem own_cons_self (x : γ) : own ((i, x) :: all) i = x :: own all i := by
  rw [own, List.filter_cons_of_pos (by simp)]
  rfl

theorem own_cons_ne (hne : j ≠ i) (x : γ) : own ((j, x) :: all) i = own all i := by
  rw [own, List.filter_cons_of_neg (by simpa using hne)]
  rfl

theorem own_append (more : List (Fin n × γ)) : own (all ++ more) i = own all i ++ own more i := by
  rw [own, List.filter_append, List.map_append]
  rfl

theorem mem_own_iff {x : γ} : x ∈ own all i ↔ (i, x) ∈ all := by
  simp only [own, List.mem_map, List.mem_filter, decide_eq_true_eq]
  constructor
  · rintro ⟨⟨_, _⟩, ⟨hmem, rfl⟩, rfl⟩
    exact hmem
  · intro hmem
    exact ⟨_, ⟨hmem, rfl⟩, rfl⟩

theorem own_map_self (xs : List γ) : own (xs.map (Prod.mk i)) i = xs := by
  induction xs with
  | nil => rfl
  | cons x xs ih => rw [List.map_cons, own_cons_self, ih]

theorem own_map_ne (hne : j ≠ i) (xs : List γ) : own (xs.map (Prod.mk j)) i = [] := by
  induction xs with
  | nil => rfl
  | cons x xs ih => rw [List.map_cons, own_cons_ne hne, ih]

/-- If no two of all things have the same mark, a mark tells to which task a thing belongs. -/
theorem eq_of_nodup_marks {δ : Type v} {mark : γ → Option δ} (h : ((all.map Prod.snd).filterMap mark).Nodup)
    {x y : γ} {z : δ} (hx : x ∈ own all i) (hy : y ∈ own all j) (hxz : mark x = some z)
    (hyz : mark y = some z) : i = j := by
  rw [List.filterMap_map] at h
  have hapart : all.Pairwise fun a b => ∀ z, mark a.2 = some z → mark b.2 ≠ some z :=
    (List.pairwise_filterMap.mp h).imp fun hne z hz hz' => hne z hz z hz' rfl
  have hsymm : Std.Symm fun a b : Fin n × γ => ∀ z, mark a.2 = some z → mark b.2 ≠ some z :=
    ⟨fun a b hab z hz hz' => hab z hz' hz⟩
  by_contra hne
  have hother : (i, x) ≠ (j, y) := fun heq => hne (congrArg Prod.fst heq)
  exact hapart.forall (mem_own_iff.mp hx) (mem_own_iff.mp hy) hother z hxz hyz

/-- As a multiset, all things are what belongs to the tasks together. -/
theorem coe_map_snd_eq_sum_own (all : List (Fin n × γ)) :
    (all.map Prod.snd : Multiset γ) = ∑ i, (own all i : Multiset γ) := by
  induction all with
  | nil => exact (Finset.sum_const_zero).symm
  | cons entry all ih =>
    obtain ⟨j, x⟩ := entry
    have hown (i : Fin n) : (own ((j, x) :: all) i : Multiset γ) =
        (if j = i then {x} else 0) + (own all i : Multiset γ) := by
      by_cases hji : j = i
      · subst hji
        rw [own_cons_self, if_pos rfl, ← Multiset.cons_coe, Multiset.singleton_add]
      · rw [own_cons_ne hji, if_neg hji, zero_add]
    rw [List.map_cons, ← Multiset.cons_coe, ih, Finset.sum_congr rfl fun i _ => hown i,
      Finset.sum_add_distrib, Finset.sum_ite_eq, if_pos (Finset.mem_univ j), Multiset.singleton_add]

end Own

/-- A node and the tasks that ask it for operations. -/
structure Desk (n : Nat) (α : Type) : Type 1 where
  node : Chronicle
  tasks : Fin n → Task α

/-- What has been done, and for which task. -/
abbrev Trace (n : Nat) : Type 1 := List (Fin n × Deed)

/-- What the steps of a trace note down, each of them for its task. -/
def noted {n : Nat} {γ : Type u} (note : Deed → List γ) (trace : Trace n) : List (Fin n × γ) :=
  trace.flatMap fun step => (note step.2).map (Prod.mk step.1)

theorem map_snd_noted {n : Nat} {γ : Type u} (note : Deed → List γ) (trace : Trace n) :
    (noted note trace).map Prod.snd = (trace.map Prod.snd).flatMap note := by
  induction trace with
  | nil => rfl
  | cons step trace ih =>
    have hcons : noted note (step :: trace) = (note step.2).map (Prod.mk step.1) ++ noted note trace := rfl
    rw [hcons, List.map_append, ih, List.map_map, List.map_cons, List.flatMap_cons]
    congr 1
    exact List.map_id _

/-- What is noted down for a task is what its own steps note down. -/
theorem own_noted {n : Nat} {γ : Type u} (note : Deed → List γ) (trace : Trace n) (i : Fin n) :
    own (noted note trace) i = (own trace i).flatMap note := by
  induction trace with
  | nil => rfl
  | cons step trace ih =>
    obtain ⟨j, deed⟩ := step
    have hcons : noted note ((j, deed) :: trace) = (note deed).map (Prod.mk j) ++ noted note trace := rfl
    rw [hcons, own_append, ih]
    by_cases hji : j = i
    · subst hji
      rw [own_map_self, own_cons_self, List.flatMap_cons]
    · rw [own_map_ne hji, own_cons_ne hji, List.nil_append]

namespace Desk

variable {n : Nat} {α : Type}

/-- Carry out an operation, and let a task go on with what comes of it. -/
def work (d : Desk n α) (i : Fin n) {β : Type} (op : Operation β) (next : β → Task α) : Desk n α where
  node := d.node.after (.perform op)
  tasks := Function.update d.tasks i (next (d.node.memory.step op).1)

theorem work_tasks_self (d : Desk n α) (i : Fin n) {β : Type} (op : Operation β) (next : β → Task α) :
    (d.work i op next).tasks i = next (d.node.memory.step op).1 :=
  Function.update_self ..

theorem work_tasks_of_ne (d : Desk n α) {i j : Fin n} (hne : j ≠ i) {β : Type} (op : Operation β)
    (next : β → Task α) : (d.work i op next).tasks j = d.tasks j :=
  Function.update_of_ne hne ..

/-- A run of the tasks: any of them that is not done gets its next operation, or the node is told to sync or
not. -/
inductive Run : Desk n α → Trace n → Desk n α → Prop
  | stay (d : Desk n α) : Run d [] d
  | work {d d' : Desk n α} {trace : Trace n} {β : Type} {op : Operation β} {next : β → Task α} (i : Fin n)
      (htask : d.tasks i = .ask op next) (hrest : Run (d.work i op next) trace d') :
      Run d ((i, ⟨op, d.node.memory⟩) :: trace) d'
  | setSyncing {d d' : Desk n α} {trace : Trace n} (syncing : Bool)
      (hrest : Run ⟨d.node.after (.setSyncing syncing), d.tasks⟩ trace d') : Run d trace d'

namespace Run

variable {d d' d'' : Desk n α} {trace more : Trace n}

theorem trans (h : Run d trace d') (h' : Run d' more d'') : Run d (trace ++ more) d'' := by
  induction h with
  | stay => exact h'
  | work i htask _ ih => exact .work i htask (ih h')
  | setSyncing syncing _ ih => exact .setSyncing syncing (ih h')

/-- Each task that is done in the end has ended with what was done for it. -/
theorem ends (h : Run d trace d') {results : Fin n → α} (hdone : ∀ i, d'.tasks i = .done (results i))
    (i : Fin n) : (d.tasks i).Ends (own trace i) (results i) := by
  induction h with
  | stay d =>
    rw [hdone i]
    exact .done
  | @work d d' trace β op next j htask hrest ih =>
    have hend := ih hdone
    by_cases hij : j = i
    · subst hij
      rw [work_tasks_self] at hend
      rw [htask, own_cons_self]
      exact .ask hend
    · rw [work_tasks_of_ne d (Ne.symm hij)] at hend
      rwa [own_cons_ne hij]
  | setSyncing syncing _ ih => exact ih hdone

/-- Whatever is done for a safe task is permitted, so a run of safe tasks is a run of the node. -/
theorem steps_of_mem (h : Run d trace d') (hsafe : ∀ i, (d.tasks i).Safe d.node.stored) :
    d.node.Steps d'.node ∧ ∀ step ∈ trace, ∃ c, d.node.Steps c ∧ c.memory = step.2.before ∧
      c.Permits (.perform step.2.op) ∧ (c.after (.perform step.2.op)).Steps d'.node := by
  induction h with
  | stay d => exact ⟨.refl, fun _ hmem => nomatch hmem⟩
  | @work d d' trace β op next j htask hrest ih =>
    have htaskSafe := hsafe j
    rw [htask] at htaskSafe
    obtain ⟨hpermits, hnext⟩ := htaskSafe d.node (List.Subset.refl _)
    have hstep : d.node.Next (d.node.after (.perform op)) := ⟨.perform op, hpermits, rfl⟩
    obtain ⟨hsteps, hmem⟩ := ih fun i => by
      by_cases hij : i = j
      · subst hij
        rw [work_tasks_self]
        exact hnext
      · rw [work_tasks_of_ne d hij]
        exact (hsafe i).mono (List.subset_append_right _ _)
    refine ⟨.head hstep hsteps, fun step hstepMem => ?_⟩
    rcases List.mem_cons.mp hstepMem with rfl | hlater
    · exact ⟨d.node, .refl, rfl, hpermits, hsteps⟩
    · obtain ⟨c, hbefore, hmemory, hafter⟩ := hmem step hlater
      exact ⟨c, .head hstep hbefore, hmemory, hafter⟩
  | @setSyncing d d' trace syncing hrest ih =>
    have hstep : d.node.Next (d.node.after (.setSyncing syncing)) := ⟨.setSyncing syncing, trivial, rfl⟩
    obtain ⟨hsteps, hmem⟩ := ih fun i => (hsafe i).mono (List.subset_append_right _ _)
    refine ⟨.head hstep hsteps, fun step hstepMem => ?_⟩
    obtain ⟨c, hbefore, hmemory, hafter⟩ := hmem step hstepMem
    exact ⟨c, .head hstep hbefore, hmemory, hafter⟩

end Run

/-- From any desk, task `i` can run alone until it is done, with the result and the memory of `Task.runAlone`.
The induction is over the task, which has finitely many operations on every path. -/
theorem exists_run_done (d : Desk n α) (i : Fin n) : ∃ trace node,
    Run d trace ⟨node, Function.update d.tasks i (.done ((d.tasks i).runAlone.run d.node.memory).1)⟩ ∧
      node.memory = ((d.tasks i).runAlone.run d.node.memory).2 := by
  generalize htask : d.tasks i = task
  induction task generalizing d with
  | done a =>
    refine ⟨[], d.node, ?_, rfl⟩
    change Run d [] ⟨d.node, Function.update d.tasks i (.done a)⟩
    rw [← htask, Function.update_eq_self]
    exact .stay d
  | ask op next ih =>
    obtain ⟨trace, node, hrest, hmemory⟩ := ih _ (d.work i op next) (d.work_tasks_self i op next)
    have hsame : Function.update (d.work i op next).tasks i = Function.update d.tasks i :=
      funext fun task => Function.update_idem ..
    rw [hsame] at hrest
    exact ⟨_, node, .work i htask hrest, hmemory⟩

/-- All tasks can be worked on until they are done, in one run. -/
theorem exists_run (d : Desk n α) : ∃ trace node, ∃ results : Fin n → α,
    Run d trace ⟨node, fun i => .done (results i)⟩ := by
  have hlist : ∀ indices : List (Fin n), ∃ trace d', Run d trace d' ∧
      ∀ i ∈ indices, ∃ result, d'.tasks i = .done result := by
    intro indices
    induction indices with
    | nil => exact ⟨[], d, .stay d, fun _ hmem => nomatch hmem⟩
    | cons j indices ih =>
      obtain ⟨trace, d', hrun, hdone⟩ := ih
      obtain ⟨more, node, hmore, _⟩ := d'.exists_run_done j
      refine ⟨_, _, hrun.trans hmore, fun i hmem => ?_⟩
      by_cases hij : i = j
      · subst hij
        exact ⟨_, Function.update_self ..⟩
      · obtain ⟨other, hother⟩ := hdone i ((List.mem_cons.mp hmem).resolve_left hij)
        exact ⟨other, (Function.update_of_ne hij ..).trans hother⟩
  obtain ⟨trace, d', hrun, hdone⟩ := hlist (List.finRange n)
  obtain ⟨results, hresults⟩ := Classical.skolem.mp fun i => hdone i (List.mem_finRange i)
  refine ⟨trace, d'.node, results, ?_⟩
  rw [← funext hresults]
  exact hrun

end Desk

end BeaconApi
