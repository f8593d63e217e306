import Mathlib.Data.List.Pairwise
import BeaconApi.Node.Batch

namespace BeaconApi

/-- The complaints about items from a position on, in order, each under the position of its item. -/
def complaintsFrom {β : Type} (complaint? : β → Option String) (index : Nat) (items : List β) : List ItemFailure :=
  (items.zipIdx index).filterMap fun entry =>
    (complaint? entry.1).map fun message => ⟨UInt64.ofNat entry.2, message⟩

section Complaints

variable {β : Type} {complaint? : β → Option String} {items : List β}

theorem complaintsFrom_cons (index : Nat) (item : β) : complaintsFrom complaint? index (item :: items) =
    ((complaint? item).map fun message => ⟨UInt64.ofNat index, message⟩).toList ++
      complaintsFrom complaint? (index + 1) items := by
  rw [complaintsFrom, List.zipIdx_cons]
  cases hitem : complaint? item with
  | none =>
    rw [List.filterMap_cons_none (by rw [hitem]; rfl)]
    rfl
  | some message =>
    rw [List.filterMap_cons_some (by rw [hitem]; rfl)]
    rfl

/-- The positions of complaints rise, if there are numbers for all of them. -/
theorem complaintsFrom_pairwise (complaint? : β → Option String) (h : items.length ≤ UInt64.size) :
    (complaintsFrom complaint? 0 items).Pairwise fun failure later => failure.index < later.index := by
  have hrange : ((items.zipIdx 0).map Prod.snd).Pairwise (· < ·) := by
    rw [List.zipIdx_map_snd]
    exact List.pairwise_lt_range' 1
  apply List.pairwise_filterMap.mpr
  apply (List.pairwise_map.mp hrange).imp_of_mem
  intro entry later hmem hmem' hlt failure hfailure failure' hfailure'
  obtain ⟨_, _, rfl⟩ := Option.map_eq_some_iff.mp hfailure
  obtain ⟨_, _, rfl⟩ := Option.map_eq_some_iff.mp hfailure'
  have hbound := List.snd_lt_of_mem_zipIdx hmem
  have hbound' := List.snd_lt_of_mem_zipIdx hmem'
  rwa [UInt64.ofNat_lt_iff_lt (by omega) (by omega)]

theorem mem_complaintsFrom_iff (h : items.length ≤ UInt64.size) (failure : ItemFailure) :
    failure ∈ complaintsFrom complaint? 0 items ↔
      ∃ item, items[failure.index.toNat]? = some item ∧ complaint? item = some failure.message := by
  constructor
  · intro hmem
    obtain ⟨⟨item, position⟩, hentry, hfailure⟩ := List.mem_filterMap.mp hmem
    obtain ⟨message, hmessage, rfl⟩ := Option.map_eq_some_iff.mp hfailure
    have hbound := List.snd_lt_of_mem_zipIdx hentry
    have hposition : (UInt64.ofNat position).toNat = position := UInt64.toNat_ofNat_of_lt' (by omega)
    exact ⟨item, hposition.symm ▸ List.mk_mem_zipIdx_iff_getElem?.mp hentry, hmessage⟩
  · rintro ⟨item, hitem, hmessage⟩
    apply List.mem_filterMap.mpr
    refine ⟨(item, failure.index.toNat), List.mk_mem_zipIdx_iff_getElem?.mpr hitem, ?_⟩
    rw [hmessage, Option.map_some, UInt64.ofNat_toNat]

end Complaints

namespace BatchOutcome

/-- What is said about an answer, if it is a failure. -/
def complaint? : Except BackendError Bool → Option String
  | .error e => some e.message
  | .ok _ => none

/-- Whether an answer tells that an accepted item was not passed on. -/
def unsent : Except BackendError Bool → Bool
  | .error _ => false
  | .ok syncing => syncing

theorem any_unsent_iff {answers : List (Except BackendError Bool)} :
    answers.any unsent = true ↔ .ok true ∈ answers := by
  rw [List.any_eq_true]
  constructor
  · rintro ⟨_ | _ | _, hmem, hunsent⟩
    · cases hunsent
    · cases hunsent
    · exact hmem
  · exact fun hmem => ⟨_, hmem, rfl⟩

/-- What an outcome reports about the answers to the items of a batch: the failures, in order and under their
positions, and whether some item was accepted but not passed on. -/
structure Reports (outcome : BatchOutcome) (answers : List (Except BackendError Bool)) : Prop where
  increasing : outcome.failures.Pairwise fun failure later => failure.index < later.index
  mem_iff (failure : ItemFailure) : failure ∈ outcome.failures ↔
    ∃ e, answers[failure.index.toNat]? = some (.error e) ∧ failure.message = e.message
  syncing_iff : outcome.syncing = true ↔ .ok true ∈ answers

/-- An outcome with the answers from a position on noted. -/
def noteFrom (outcome : BatchOutcome) (index : Nat) (answers : List (Except BackendError Bool)) : BatchOutcome :=
  ⟨outcome.failures ++ complaintsFrom complaint? index answers, outcome.syncing || answers.any unsent⟩

theorem noteFrom_nil (outcome : BatchOutcome) (index : Nat) : outcome.noteFrom index [] = outcome := by
  simp [noteFrom, complaintsFrom]

theorem noteFrom_note (outcome : BatchOutcome) (index : Nat) (answer : Except BackendError Bool)
    (answers : List (Except BackendError Bool)) :
    (outcome.note index answer).noteFrom (index + 1) answers = outcome.noteFrom index (answer :: answers) := by
  rw [noteFrom, noteFrom, complaintsFrom_cons, List.any_cons, ← List.append_assoc, ← Bool.or_assoc]
  cases answer with
  | error e =>
    rw [unsent, Bool.or_false]
    rfl
  | ok syncing =>
    rw [unsent]
    simp [note, complaint?]

theorem reports_noteFrom {answers : List (Except BackendError Bool)} (h : answers.length ≤ UInt64.size) :
    (noteFrom ⟨[], false⟩ 0 answers).Reports answers := by
  refine ⟨complaintsFrom_pairwise complaint? h, fun failure => ?_, ?_⟩
  · refine (mem_complaintsFrom_iff h failure).trans ⟨?_, ?_⟩
    · rintro ⟨_ | _, hanswer, hmessage⟩
      · exact ⟨_, hanswer, (Option.some.inj hmessage).symm⟩
      · cases hmessage
    · rintro ⟨e, hanswer, hmessage⟩
      exact ⟨_, hanswer, congrArg some hmessage.symm⟩
  · rw [noteFrom, Bool.false_or]
    exact any_unsent_iff

end BatchOutcome

section Calls

variable {σ α : Type}

/-- The calls for the items of a batch: one for each item, in order. Each begins in the state that the one before
it has left behind, whatever that one answered. -/
inductive Calls (accept : α → StateM σ (Except BackendError Bool)) :
    σ → List α → List (Except BackendError Bool) → σ → Prop
  | nil {s : σ} : Calls accept s [] [] s
  | cons {s s' s'' : σ} {item : α} {items : List α} {answer : Except BackendError Bool}
      {answers : List (Except BackendError Bool)} (hcall : (accept item).run s = (answer, s'))
      (hrest : Calls accept s' items answers s'') : Calls accept s (item :: items) (answer :: answers) s''

variable {accept : α → StateM σ (Except BackendError Bool)}

theorem exists_calls (accept : α → StateM σ (Except BackendError Bool)) (s : σ) (items : List α) :
    ∃ answers s', Calls accept s items answers s' := by
  induction items generalizing s with
  | nil => exact ⟨[], s, .nil⟩
  | cons item items ih =>
    obtain ⟨answers, s', hrest⟩ := ih ((accept item).run s).2
    exact ⟨_, s', .cons rfl hrest⟩

namespace Calls

variable {s s' : σ} {items : List α} {answers : List (Except BackendError Bool)} (h : Calls accept s items answers s')
include h

theorem length_answers : answers.length = items.length := by
  induction h with
  | nil => rfl
  | cons _ _ ih => rw [List.length_cons, List.length_cons, ih]

/-- From a position on, a batch makes these calls, and notes their answers. -/
theorem acceptFrom_run (index : Nat) (outcome : BatchOutcome) :
    (acceptFrom accept index outcome items).run s = (outcome.noteFrom index answers, s') := by
  induction h generalizing index outcome with
  | nil => rw [outcome.noteFrom_nil]; rfl
  | cons hcall _ ih =>
    rw [acceptFrom, StateT.run_bind, hcall, ← outcome.noteFrom_note]
    exact ih (index + 1) _

end Calls

end Calls

/-- Each item of a batch is handed to `accept` once by `acceptIndexed`, in order, in the state that the last
call left (`Calls`), and the outcome `Reports` the answers. Nothing is assumed of `accept`. `hlength` lets each
position be numbered by a `UInt64`, which holds for every list in memory. -/
theorem acceptIndexed_reports_calls {σ α : Type} (accept : α → StateM σ (Except BackendError Bool)) (s : σ)
    (items : List α) (hlength : items.length ≤ UInt64.size) :
    ∃ answers outcome s', Calls accept s items answers s' ∧
      (acceptIndexed items accept).run s = (outcome, s') ∧ outcome.Reports answers := by
  obtain ⟨answers, s', hcalls⟩ := exists_calls accept s items
  rw [← hcalls.length_answers] at hlength
  exact ⟨answers, _, s', hcalls, hcalls.acceptFrom_run 0 _, BatchOutcome.reports_noteFrom hlength⟩

/-- How the numbers of a batch are accepted that are noted down one after another: odd ones fail, and two is not
passed on. -/
def acceptNoted (n : Nat) : StateM (List Nat) (Except BackendError Bool) := fun noted =>
  (if n % 2 = 1 then .error (.notFound "Number") else .ok (n = 2), noted ++ [n])

/-- The last item fails after one that was not passed on, and all of them have been noted down. -/
theorem acceptNoted_reported : [1, 2, 5].length ≤ UInt64.size ∧ ∃ answers,
    Calls acceptNoted [] [1, 2, 5] answers [1, 2, 5] ∧
      BatchOutcome.Reports ⟨[⟨0, "Number not found"⟩, ⟨2, "Number not found"⟩], true⟩ answers := by
  have hlength : [1, 2, 5].length ≤ UInt64.size := by decide
  obtain ⟨answers, outcome, noted, hcalls, hrun, hreports⟩ := acceptIndexed_reports_calls acceptNoted [] _ hlength
  obtain ⟨rfl, rfl⟩ := Prod.mk.inj hrun
  exact ⟨hlength, answers, hcalls, hreports⟩

end BeaconApi
