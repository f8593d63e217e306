import Mathlib.Data.List.Induction
import BeaconApi.Proofs.Server.Routing

namespace BeaconApi

namespace Pattern

/-- Two patterns differ, but only in the names of their placeholders. -/
def Conflicts (p q : Pattern) : Prop := p ≠ q ∧ p.map Piece.unnamed = q.map Piece.unnamed

instance (p q : Pattern) : Decidable (p.Conflicts q) := inferInstanceAs (Decidable (_ ∧ _))

/-- A path matches a pattern. -/
def Matches (p : Pattern) (path : List Char) : Prop := (p.captures? path).isSome

theorem precedes_irrefl (p : Pattern) : ¬ p.precedes p := by
  induction p with
  | nil => nofun
  | cons piece p ih => cases piece <;> exact ih

theorem precedes_trans {p q r : Pattern} (hpq : p.precedes q) (hqr : q.precedes r) : p.precedes r := by
  fun_induction precedes p q generalizing r with
  | case1 _ p _ q ih =>
    rcases r with _ | ⟨_ | _, r⟩
    · cases hqr
    · exact ih hpq hqr
    · rfl
  | case2 _ p _ q =>
    rcases r with _ | ⟨_ | _, r⟩
    · cases hqr
    · cases hqr
    · rfl
  | case3 => cases hpq
  | case4 _ p _ q ih =>
    rcases r with _ | ⟨_ | _, r⟩
    · cases hqr
    · cases hqr
    · exact ih hpq hqr
  | case5 => cases hpq
  | case6 => cases hpq

theorem Matches.character {c : Char} {p : Pattern} {path : List Char}
    (h : Matches (.character c :: p) path) : ∃ rest, path = c :: rest ∧ p.Matches rest := by
  obtain ⟨captures, hcaptures⟩ := Option.isSome_iff_exists.mp h
  obtain ⟨rest, hpath, hrest⟩ := captures?_character_iff.mp hcaptures
  exact ⟨rest, hpath, Option.isSome_iff_exists.mpr ⟨captures, hrest⟩⟩

theorem Matches.placeholder {name : String} {p : Pattern} {path : List Char}
    (h : Matches (.placeholder name :: p) path) : p.Matches (path.dropWhile (· ≠ '/')) := by
  obtain ⟨captures, hcaptures⟩ := Option.isSome_iff_exists.mp h
  obtain ⟨rest, hrest⟩ := captures?_placeholder hcaptures
  exact Option.isSome_iff_exists.mpr ⟨rest, hrest⟩

theorem Matches.eq_nil {p : Pattern} (h : p.Matches []) : p = [] := by
  obtain ⟨captures, hcaptures⟩ := Option.isSome_iff_exists.mp h
  exact captures?_nil hcaptures

theorem Matches.path_eq_nil {path : List Char} (h : Matches [] path) : path = [] := by
  cases path with
  | nil => rfl
  | cons => cases h

/-- Of two patterns that match the same path one takes precedence, unless they are the same but for names. -/
theorem precedes_or_precedes {p q : Pattern} {path : List Char} (hp : p.Matches path) (hq : q.Matches path) :
    p.precedes q ∨ q.precedes p ∨ p.map Piece.unnamed = q.map Piece.unnamed := by
  fun_induction precedes p q generalizing path with
  | case1 c p d q ih =>
    obtain ⟨rest, rfl, hp'⟩ := hp.character
    obtain ⟨_, heq, hq'⟩ := hq.character
    obtain ⟨rfl, rfl⟩ := List.cons.inj heq
    exact (ih hp' hq').imp_right (Or.imp_right (congrArg (some c :: ·)))
  | case2 => exact .inl rfl
  | case3 => exact .inr (.inl rfl)
  | case4 _ p _ q ih => exact (ih hp.placeholder hq.placeholder).imp_right (Or.imp_right (congrArg (none :: ·)))
  | case5 q =>
    obtain rfl := hp.path_eq_nil
    obtain rfl := hq.eq_nil
    exact .inr (.inr rfl)
  | case6 piece p =>
    obtain rfl := hq.path_eq_nil
    exact absurd hp.eq_nil (List.cons_ne_nil piece p)

/-- The pattern that decides: it matches, and no other pattern that does takes precedence over it. -/
structure Leads (patterns : List Pattern) (path : List Char) (p : Pattern) : Prop where
  mem : p ∈ patterns
  matched : p.Matches path
  unbeaten {q : Pattern} : q ∈ patterns → q.Matches path → ¬ q.precedes p

section Concat

variable {patterns : List Pattern} {path : List Char} {p q : Pattern}

/-- One more pattern does not decide if it does not take precedence over the one that has decided so far. -/
theorem Leads.concat (h : Leads patterns path q) (hp : p.Matches path → ¬ p.precedes q) :
    Leads (patterns ++ [p]) path q := by
  refine ⟨List.mem_append_left _ h.mem, h.matched, fun {r} hr hmatched => ?_⟩
  rcases List.mem_append.mp hr with hr | hr
  · exact h.unbeaten hr hmatched
  · obtain rfl := List.mem_singleton.mp hr
    exact hp hmatched

/-- One more pattern decides if no other takes precedence over it. -/
theorem leads_concat (hp : p.Matches path) (h : ∀ r ∈ patterns, r.Matches path → ¬ r.precedes p) :
    Leads (patterns ++ [p]) path p := by
  refine ⟨List.mem_append_right _ List.mem_cons_self, hp, fun {r} hr hmatched => ?_⟩
  rcases List.mem_append.mp hr with hr | hr
  · exact h r hr hmatched
  · obtain rfl := List.mem_singleton.mp hr
    exact r.precedes_irrefl

theorem best?_concat (patterns : List Pattern) (p : Pattern) (path : List Char) :
    best? (patterns ++ [p]) path =
      match p.captures? path, best? patterns path with
      | none, best => best
      | some captures, none => some (p, captures)
      | some captures, some (other, others) =>
        if p.precedes other then some (p, captures) else some (other, others) := by
  rw [best?, List.foldl_append, ← best?, List.foldl_cons, List.foldl_nil]
  cases p.captures? path with
  | none => rfl
  | some captures => cases best? patterns path <;> rfl

end Concat

/-- What the search for the pattern that decides comes to. -/
theorem best?_spec (patterns : List Pattern) (path : List Char) :
    (best? patterns path = none ∧ ∀ p ∈ patterns, ¬ p.Matches path) ∨
      ∃ p captures, best? patterns path = some (p, captures) ∧ p.captures? path = some captures ∧
        Leads patterns path p := by
  induction patterns using List.reverseRecOn with
  | nil => exact .inl ⟨rfl, nofun⟩
  | append_singleton patterns p ih =>
    rw [best?_concat]
    cases hp : p.captures? path with
    | none =>
      have hunmatched : ¬ p.Matches path := by simp [Matches, hp]
      refine ih.imp (And.imp_right fun hnone => ?_) ?_
      · exact List.forall_mem_append.mpr ⟨hnone, List.forall_mem_singleton.mpr hunmatched⟩
      · rintro ⟨q, captures, hbest, hcaptures, hleads⟩
        exact ⟨q, captures, hbest, hcaptures, hleads.concat fun hmatched => absurd hmatched hunmatched⟩
    | some captures =>
      have hmatched : p.Matches path := by simp [Matches, hp]
      right
      rcases ih with ⟨hbest, hnone⟩ | ⟨q, others, hbest, hothers, hleads⟩
      · rw [hbest]
        exact ⟨p, captures, rfl, hp, leads_concat hmatched fun r hr hr' => absurd hr' (hnone r hr)⟩
      · simp only [hbest]
        by_cases hprecedes : p.precedes q
        · rw [if_pos hprecedes]
          refine ⟨p, captures, rfl, hp, leads_concat hmatched fun r hr hr' hbeats => ?_⟩
          exact hleads.unbeaten hr hr' (precedes_trans hbeats hprecedes)
        · rw [if_neg hprecedes]
          exact ⟨q, others, rfl, hothers, hleads.concat fun _ => hprecedes⟩

section Conflicts

variable {patterns : List Pattern} {path : List Char} {p q : Pattern}
  (h : ∀ p ∈ patterns, ∀ q ∈ patterns, ¬ p.Conflicts q)
include h

/-- Without conflicts the pattern that decides takes precedence over all others. -/
theorem Leads.eq_or_precedes (hleads : Leads patterns path p) (hq : q ∈ patterns) (hmatched : q.Matches path) :
    q = p ∨ p.precedes q := by
  rcases precedes_or_precedes hleads.matched hmatched with hprecedes | hprecedes | hsame
  · exact .inr hprecedes
  · exact absurd hprecedes (hleads.unbeaten hq hmatched)
  · exact .inl (by_contra fun hne => h p hleads.mem q hq ⟨fun heq => hne heq.symm, hsame⟩)

theorem Leads.unique (hleads : Leads patterns path p) (hleads' : Leads patterns path q) : p = q :=
  (hleads'.eq_or_precedes h hleads.mem hleads.matched).resolve_right
    (hleads.unbeaten hleads'.mem hleads'.matched)

/-- The search finds the pattern that decides. -/
theorem Leads.best? {captures : List (String × List Char)} (hleads : Leads patterns path p)
    (hcaptures : p.captures? path = some captures) : best? patterns path = some (p, captures) := by
  rcases best?_spec patterns path with ⟨-, hnone⟩ | ⟨q, others, hbest, hothers, hleads'⟩
  · exact absurd hleads.matched (hnone p hleads.mem)
  · obtain rfl := hleads.unique h hleads'
    rw [hbest, Option.some.inj (hcaptures.symm.trans hothers)]

end Conflicts

end Pattern

end BeaconApi
