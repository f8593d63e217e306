import BeaconApi.Proofs.Server.Dispatch
import BeaconApi.Proofs.Text.Runs

universe u

namespace BeaconApi

namespace Pattern

/-- Whether two patterns cannot match the same path, which shows at their first difference. -/
def apart : Pattern → Pattern → Bool
  | .character c :: p, .character d :: q => c ≠ d || apart p q
  | .placeholder _ :: p, .placeholder _ :: q => apart p q
  | [], _ :: _ | _ :: _, [] => true
  | _, _ => false

theorem apart_comm (p q : Pattern) : p.apart q = q.apart p := by
  induction p generalizing q with
  | nil => cases q with
    | nil => rfl
    | cons piece q => cases piece <;> rfl
  | cons piece p ih =>
    cases q with
    | nil => cases piece <;> rfl
    | cons other q =>
      cases piece with
      | character c =>
        cases other with
        | character d => rw [apart, apart, ih, decide_eq_decide.mpr ne_comm]
        | placeholder => rfl
      | placeholder =>
        cases other with
        | character => rfl
        | placeholder => exact ih q

/-- A character is matched by itself. -/
theorem captures?_character_iff {c : Char} {p : Pattern} {path : List Char}
    {captures : List (String × List Char)} :
    captures? (.character c :: p) path = some captures ↔
      ∃ rest, path = c :: rest ∧ p.captures? rest = some captures := by
  cases path with
  | nil => simp [captures?]
  | cons d path =>
    rw [captures?]
    by_cases hc : c = d
    · simp [hc]
    · simp [hc, Ne.symm hc]

theorem captures?_nil {pattern : Pattern} {captures : List (String × List Char)}
    (h : pattern.captures? [] = some captures) : pattern = [] := by
  induction pattern generalizing captures with
  | nil => rfl
  | cons piece pattern ih =>
    cases piece with
    | character => cases h
    | placeholder name =>
      cases pattern with
      | nil => cases h
      | cons next pattern =>
        obtain ⟨rest, hrest, _⟩ := Option.map_eq_some_iff.mp h
        exact absurd (ih hrest) (List.cons_ne_nil next pattern)

/-- What follows a placeholder matches what follows the segment. -/
theorem captures?_placeholder {name : String} {pattern : Pattern} {path : List Char}
    {captures : List (String × List Char)} (h : captures? (.placeholder name :: pattern) path = some captures) :
    ∃ rest, pattern.captures? (path.dropWhile (· ≠ '/')) = some rest := by
  cases pattern with
  | nil =>
    rw [captures?] at h
    split at h
    · cases h
    next hplain =>
      simp only [Bool.or_eq_true, not_or, List.contains_iff_mem] at hplain
      exact ⟨[], by rw [Text.dropWhile_ne hplain.2]; rfl⟩
  | cons next pattern =>
    obtain ⟨rest, hrest, _⟩ := Option.map_eq_some_iff.mp h
    exact ⟨rest, hrest⟩

theorem captures?_eq_none_of_apart {p q : Pattern} {path : List Char}
    {captures : List (String × List Char)} (hapart : p.apart q) (h : p.captures? path = some captures) :
    q.captures? path = none := by
  refine Option.eq_none_iff_forall_ne_some.mpr fun others hothers => ?_
  fun_induction apart p q generalizing path captures others with
  | case1 c p d q ih =>
    obtain ⟨rest, rfl, hrest⟩ := captures?_character_iff.mp h
    obtain ⟨_, heq, hrest'⟩ := captures?_character_iff.mp hothers
    obtain ⟨rfl, rfl⟩ := List.cons.inj heq
    simp only [ne_eq, not_true, decide_false, Bool.false_or] at hapart
    exact ih hapart hrest others hrest'
  | case2 _ p _ q ih =>
    obtain ⟨rest, hrest⟩ := captures?_placeholder h
    obtain ⟨rest', hrest'⟩ := captures?_placeholder hothers
    exact ih hapart hrest rest' hrest'
  | case3 piece q =>
    cases path with
    | nil => exact absurd (captures?_nil hothers) (List.cons_ne_nil piece q)
    | cons => cases h
  | case4 piece p =>
    cases path with
    | nil => exact absurd (captures?_nil h) (List.cons_ne_nil piece p)
    | cons => cases hothers
  | case5 => cases hapart

/-- A fold that one element brings to a value, and that the others leave alone, ends in that value. -/
theorem foldl_eq_of_mem {α β : Type} {step : β → α → β} {start found : β} {x : α} {xs : List α}
    (hmem : x ∈ xs) (hstart : step start x = found) (hfound : step found x = found)
    (hothers : ∀ y ∈ xs, y = x ∨ ∀ b, step b y = b) : xs.foldl step start = found := by
  have hkeeps : ∀ ys : List α, (∀ y ∈ ys, y = x ∨ ∀ b, step b y = b) → ys.foldl step found = found := by
    intro ys hys
    induction ys with
    | nil => rfl
    | cons y ys ih =>
      rw [List.foldl_cons]
      have hy : step found y = found := by
        rcases hys y List.mem_cons_self with rfl | hsame
        · exact hfound
        · exact hsame found
      rw [hy]
      exact ih fun z hz => hys z (List.mem_cons_of_mem _ hz)
  induction xs with
  | nil => cases hmem
  | cons y ys ih =>
    have hrest := fun z hz => hothers z (List.mem_cons_of_mem _ hz)
    rw [List.foldl_cons]
    rcases hothers y List.mem_cons_self with rfl | hsame
    · rw [hstart]
      exact hkeeps ys hrest
    · rw [hsame]
      rcases List.mem_cons.mp hmem with rfl | hmem
      · obtain rfl : start = found := (hsame start).symm.trans hstart
        exact hkeeps ys hrest
      · exact ih hmem hrest

/-- A pattern that a path matches decides if all others are apart from it. -/
theorem best?_of_apart {patterns : List Pattern} {pattern : Pattern} {path : List Char}
    {captures : List (String × List Char)} (hmem : pattern ∈ patterns)
    (hcaptures : pattern.captures? path = some captures)
    (hothers : ∀ other ∈ patterns, other = pattern ∨ pattern.apart other) :
    best? patterns path = some (pattern, captures) := by
  refine foldl_eq_of_mem hmem ?_ ?_ fun other hother => (hothers other hother).imp_right fun hapart => ?_
  · simp only [hcaptures]
  · simp only [hcaptures, ite_self]
  · intro best
    simp only [captures?_eq_none_of_apart hapart hcaptures]

theorem captures?_characters (lead : List Char) (pattern : Pattern) (path : List Char) :
    captures? (lead.map .character ++ pattern) (lead ++ path) = captures? pattern path := by
  induction lead with
  | nil => rfl
  | cons c lead ih =>
    rw [List.map_cons, List.cons_append, List.cons_append, captures?, if_pos rfl, ih]

/-- A path without placeholders is matched by itself. -/
theorem captures?_self (path : List Char) : captures? (path.map .character) path = some [] := by
  have hself := captures?_characters path [] []
  rwa [List.append_nil, List.append_nil] at hself

section Segment

variable {name : String} {segment tail : List Char} (hslash : '/' ∉ segment)
include hslash

/-- A segment at the place of a placeholder is captured, at the end of a path or before more of it. -/
theorem captures?_segment (hne : segment ≠ []) (lead : List Char)
    (htail : tail = [] ∨ tail.head? = some '/') :
    captures? (lead.map .character ++ .placeholder name :: tail.map .character) (lead ++ (segment ++ tail)) =
      some [(name, segment)] := by
  rw [captures?_characters]
  rcases tail with _ | ⟨c, tail⟩
  · rw [List.map_nil, List.append_nil, captures?]
    refine if_neg ?_
    simp [hne, hslash]
  · obtain rfl : c = '/' := by simpa using htail
    change (captures? (('/' :: tail).map .character) ((segment ++ '/' :: tail).dropWhile (· ≠ '/'))).map
      ((name, (segment ++ '/' :: tail).takeWhile (· ≠ '/')) :: ·) = _
    rw [Text.takeWhile_ne_append hslash, Text.dropWhile_ne_append hslash, captures?_self]
    rfl

end Segment

end Pattern

namespace Router

variable {m : Type → Type u}

/-- Two places do not compete: their paths are apart, or they have one path for different methods. -/
def Separate (place other : Method × Pattern) : Prop :=
  place.2.apart other.2 ∨ place.2 = other.2 ∧ place.1 ≠ other.1

instance (place other : Method × Pattern) : Decidable (Separate place other) :=
  inferInstanceAs (Decidable (_ ∨ _))

theorem Separate.symm {place other : Method × Pattern} (h : Separate place other) :
    Separate other place :=
  h.imp (fun hapart => Pattern.apart_comm place.2 other.2 ▸ hapart) fun ⟨hpath, hmethod⟩ =>
    ⟨hpath.symm, hmethod.symm⟩

end Router

/-- The method and the path of a route. -/
def Route.place {m : Type → Type u} (route : Route m) : Method × Pattern := (route.method, route.path)

namespace Router

variable {m : Type → Type u} {routes : List (Route m)}
  (h : (routes.map Route.place).Pairwise Separate)
include h

/-- A route is separate from all routes but itself. -/
theorem eq_or_separate {route other : Route m} (hroute : route ∈ routes) (hother : other ∈ routes) :
    other = route ∨ Separate route.place other.place := by
  rw [List.pairwise_map] at h
  induction routes with
  | nil => cases hroute
  | cons first rest ih =>
    obtain ⟨hfirst, hrest⟩ := List.pairwise_cons.mp h
    rcases List.mem_cons.mp hroute with rfl | hmem
    · rcases List.mem_cons.mp hother with rfl | hother
      · exact .inl rfl
      · exact .inr (hfirst other hother)
    · rcases List.mem_cons.mp hother with rfl | hother
      · exact .inr (hfirst route hmem).symm
      · exact ih hrest hmem hother

/-- A request reaches the route whose path and method it has. -/
theorem reached?_of_separate {route : Route m} (hmem : route ∈ routes) {request : Http.Request}
    {captures : List (String × List Char)}
    (hcaptures : route.path.captures? (Http.Target.ofString request.target).path.toList = some captures)
    (hmethod : methodFor? request.method = some route.method) :
    Router.reached? routes request = some (route, captures) := by
  have hbest : Pattern.best? (routes.map Route.path) (Http.Target.ofString request.target).path.toList =
      some (route.path, captures) := by
    refine Pattern.best?_of_apart (List.mem_map_of_mem hmem) hcaptures fun pattern hpattern => ?_
    obtain ⟨other, hother, rfl⟩ := List.mem_map.mp hpattern
    rcases eq_or_separate h hmem hother with rfl | hapart | ⟨hpath, _⟩
    · exact .inl rfl
    · exact .inr hapart
    · exact .inl hpath.symm
  refine reached?_of_unique hbest hmem rfl hmethod fun other hother hpath hsame => ?_
  rcases eq_or_separate h hmem hother with rfl | hapart | ⟨_, hne⟩
  · rfl
  · have hnone := Pattern.captures?_eq_none_of_apart hapart hcaptures
    change other.path.captures? _ = none at hnone
    rw [hpath, hcaptures] at hnone
    cases hnone
  · exact absurd (Option.some.inj (hmethod.symm.trans hsame)) hne

end Router

end BeaconApi
