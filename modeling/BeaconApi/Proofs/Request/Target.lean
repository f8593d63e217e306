import BeaconApi.Node.Loopback
import BeaconApi.Proofs.Text.Runs

namespace BeaconApi

/-- A path that begins with one slash and has nothing that ends a path. -/
structure IsPath (s : String) : Prop where
  slash : ∃ c rest, s.toList = '/' :: c :: rest ∧ c ≠ '/'
  question : '?' ∉ s.toList
  hash : '#' ∉ s.toList

instance (s : String) : Decidable (IsPath s) :=
  decidable_of_decidable_of_iff
    (p := (s.toList.head? = some '/' ∧ s.toList.tail.head?.any (· ≠ '/')) ∧ '?' ∉ s.toList ∧ '#' ∉ s.toList) <| by
    constructor
    · rintro ⟨⟨hfirst, hsecond⟩, hquestion, hhash⟩
      obtain ⟨rest, hslash⟩ := List.head?_eq_some_iff.mp hfirst
      rw [hslash, List.tail_cons] at hsecond
      cases rest with
      | nil => exact nomatch hsecond
      | cons c rest => exact ⟨⟨c, rest, hslash, of_decide_eq_true hsecond⟩, hquestion, hhash⟩
    · rintro ⟨⟨c, rest, hslash, hc⟩, hquestion, hhash⟩
      refine ⟨⟨?_, ?_⟩, hquestion, hhash⟩
      · rw [hslash]
        rfl
      · rw [hslash]
        exact decide_eq_true hc

theorem IsPath.append {s t : String} (h : IsPath s) (hquestion : '?' ∉ t.toList) (hhash : '#' ∉ t.toList) :
    IsPath (s ++ t) := by
  obtain ⟨⟨c, rest, hslash, hc⟩, hsQuestion, hsHash⟩ := h
  refine ⟨⟨c, rest ++ t.toList, ?_, hc⟩, ?_, ?_⟩
  · rw [String.toList_append, hslash]
    rfl
  · simp [hsQuestion, hquestion]
  · simp [hsHash, hhash]

theorem dropTrailingSlashes_idem (s : String) :
    dropTrailingSlashes (dropTrailingSlashes s) = dropTrailingSlashes s := by
  have hdrop (cs : List Char) : (cs.dropWhile (· = '/')).dropWhile (· = '/') = cs.dropWhile (· = '/') := by
    induction cs with
    | nil => rfl
    | cons c cs ih =>
      by_cases hc : c = '/'
      · simp [hc, ih]
      · simp [hc]
  simp [dropTrailingSlashes, hdrop]

theorem IsPath.slash_append_dropLeadingSlashes {path : String} (h : IsPath path) :
    "/" ++ dropLeadingSlashes path = path := by
  obtain ⟨c, rest, hslash, hc⟩ := h.slash
  apply String.toList_inj.mp
  simp [dropLeadingSlashes, hslash, hc]

namespace Http.Target

theorem ofResource_append {path : List Char} (hne : path ≠ []) (h : '?' ∉ path) (query : List Char) :
    ofResource (path ++ '?' :: query) = ⟨String.ofList path, String.ofList query⟩ := by
  rw [ofResource, Text.takeWhile_ne_append h, Text.dropWhile_ne_append h]
  simp [hne]

theorem ofResource_of_not_mem {path : List Char} (hne : path ≠ []) (h : '?' ∉ path) :
    ofResource path = ⟨String.ofList path, ""⟩ := by
  rw [ofResource, Text.takeWhile_ne h, Text.dropWhile_ne h]
  simp [hne]

theorem ofString_of_not_mem {s : String} {rest : List Char} (hslash : s.toList = '/' :: rest)
    (h : '#' ∉ s.toList) : ofString s = ofResource s.toList := by
  rw [ofString, Text.takeWhile_ne h, hslash]
  rfl

theorem ofString_path {path : String} (h : IsPath path) : ofString path = ⟨path, ""⟩ := by
  obtain ⟨c, rest, hslash, _⟩ := h.slash
  rw [ofString_of_not_mem hslash h.hash, ofResource_of_not_mem (by simp [hslash]) h.question,
    String.ofList_toList]

theorem ofString_query {path query : String} (h : IsPath path) (hhash : '#' ∉ query.toList) :
    ofString (path ++ "?" ++ query) = ⟨path, query⟩ := by
  obtain ⟨c, rest, hslash, _⟩ := h.slash
  have hlist : (path ++ "?" ++ query).toList = path.toList ++ '?' :: query.toList := by simp
  have hfirst : (path ++ "?" ++ query).toList = '/' :: (c :: rest ++ '?' :: query.toList) := by
    rw [hlist, hslash]
    rfl
  rw [ofString_of_not_mem hfirst (by simp [h.hash, hhash]), hlist, ofResource_append (by simp [hslash]) h.question,
    String.ofList_toList, String.ofList_toList]

end Http.Target

theorem Node.targetOf_append (address rest : String) : targetOf address (address ++ rest) = rest := by
  rw [targetOf, String.toList_append, ← String.length_toList, List.drop_left, String.ofList_toList]

end BeaconApi
