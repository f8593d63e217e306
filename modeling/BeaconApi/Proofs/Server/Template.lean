import BeaconApi.Proofs.Server.Precedence
import BeaconApi.Proofs.Text.Pieces
import BeaconApi.Server.Table

namespace BeaconApi

/-- A segment of a pattern. -/
inductive Segment
  | literal (text : List Char)
  | placeholder (name : String)

namespace Segment

/-- Read a segment. A colon makes a placeholder of it. -/
def ofChars : List Char → Segment
  | ':' :: name => .placeholder (String.ofList name)
  | text => .literal text

/-- Whether the router library keeps a name to itself. It drops what is captured under such a name, while
`Router.receive` binds all captures alike. -/
def isReserved (name : String) : Bool :=
  ["__private__axum_nest_tail_param", "__private__axum_fallback"].any fun mark =>
    mark.toList.isPrefixOf name.toList

/-- A literal has no braces and does not begin with an asterisk, and a placeholder has a name without braces and
asterisks that is not reserved. -/
def Plain : Segment → Prop
  | .literal text => '{' ∉ text ∧ '}' ∉ text ∧ text.head? ≠ some '*'
  | .placeholder name =>
    name ≠ "" ∧ '{' ∉ name.toList ∧ '}' ∉ name.toList ∧ '*' ∉ name.toList ∧ ¬ isReserved name

instance : DecidablePred Plain
  | .literal _ => inferInstanceAs (Decidable (_ ∧ _ ∧ _))
  | .placeholder _ => inferInstanceAs (Decidable (_ ∧ _))

/-- The pieces of a segment. -/
def pieces : Segment → Pattern
  | .literal text => text.map .character
  | .placeholder name => [.placeholder name]

/-- The name of a placeholder. -/
def name? : Segment → Option String
  | .literal _ => none
  | .placeholder name => some name

end Segment

/-- The segments of a pattern in order. -/
abbrev Template := List Segment

namespace Template

/-- Read the segments of a pattern from its text. -/
def ofString (s : String) : Template :=
  (Text.split '/' (s.toList.dropWhile (· = '/'))).map Segment.ofChars

/-- The names of the placeholders in order. -/
def names (t : Template) : List String := t.filterMap Segment.name?

/-- The segments are plain, and their names are distinct and no more than `RoutingTable.read` takes. -/
structure Plain (t : Template) : Prop where
  segments : ∀ segment ∈ t, segment.Plain
  names : t.names.Nodup
  few : t.names.length ≤ RoutingTable.maxPlaceholders

instance (t : Template) : Decidable t.Plain :=
  decidable_of_iff
    ((∀ segment ∈ t, segment.Plain) ∧ t.names.Nodup ∧ t.names.length ≤ RoutingTable.maxPlaceholders)
    ⟨fun h => ⟨h.1, h.2.1, h.2.2⟩, fun h => ⟨h.segments, h.names, h.few⟩⟩

/-- The pieces of the segments, each behind a slash. -/
def pattern (t : Template) : Pattern := t.flatMap fun segment => .character '/' :: segment.pieces

end Template

namespace Pattern

/-- What `parse?` accepts is read by `ofBraced` as the same pieces. -/
theorem ofBraced_of_parse? {name : Option (List Char)} {text : List Char} {p : Pattern}
    (h : parse? name text = some p) : ofBraced name text = p := by
  fun_induction parse? name text generalizing p with
  | case1 rest ih | case2 rest ih =>
    obtain ⟨pieces, hpieces, rfl⟩ := Option.map_eq_some_iff.mp h
    rw [ofBraced, ih hpieces]
  | case3 rest hdouble ih =>
    rw [ofBraced]
    · exact ih h
    · exact hdouble
  | case5 c rest hopens hcloses hopen _ ih =>
    obtain ⟨pieces, hpieces, rfl⟩ := Option.map_eq_some_iff.mp h
    rw [ofBraced, ih hpieces]
    · exact hopens
    · exact hcloses
    · exact hopen
  | case6 =>
    cases h
    rfl
  | case7 name rest ih | case8 name rest ih =>
    rw [ofBraced]
    exact ih h
  | case10 name rest hdouble _ ih =>
    obtain ⟨pieces, hpieces, rfl⟩ := Option.map_eq_some_iff.mp h
    rw [ofBraced, ih hpieces]
    exact hdouble
  | case12 name c rest hopens hcloses hclose _ ih =>
    rw [ofBraced]
    · exact ih h
    · exact hopens
    · exact hcloses
    · exact hclose
  | case4 | case9 | case11 | case13 => cases h

section Characters

variable {c : Char} (hopen : c ≠ '{') (hclose : c ≠ '}') (rest : List Char)
include hopen hclose

theorem parse?_none_cons : parse? none (c :: rest) = (parse? none rest).map (.character c :: ·) := by
  rw [parse?]
  · exact fun _ heq => absurd heq hopen
  · exact fun _ heq => absurd heq hclose
  · exact hopen
  · exact hclose

theorem parse?_some_cons (hstar : c ≠ '*') (hslash : c ≠ '/') (name : List Char) :
    parse? (some name) (c :: rest) = parse? (some (c :: name)) rest := by
  rw [parse?, if_neg (not_or.mpr ⟨hstar, hslash⟩)]
  · exact fun _ heq => absurd heq hopen
  · exact fun _ heq => absurd heq hclose
  · exact hclose

end Characters

/-- What follows a placeholder or a literal is nothing or another segment. -/
def Follows (rest : List Char) : Prop := rest.head?.any (· ≠ '/') = false

theorem parse?_literal {text : List Char} (hopen : '{' ∉ text) (hclose : '}' ∉ text) (rest : List Char) :
    parse? none (text ++ rest) = (parse? none rest).map (text.map .character ++ ·) := by
  induction text with
  | nil => simp
  | cons c text ih =>
    simp only [List.mem_cons, not_or] at hopen hclose
    rw [List.cons_append, parse?_none_cons (Ne.symm hopen.1) (Ne.symm hclose.1), ih hopen.2 hclose.2,
      Option.map_map]
    rfl

/-- The characters that a name is made of. -/
def Nameable (name : List Char) : Prop := '{' ∉ name ∧ '}' ∉ name ∧ '*' ∉ name ∧ '/' ∉ name

theorem parse?_name {name rest : List Char} (hname : Nameable name) (hrest : Follows rest)
    {before : List Char} (hne : before.reverse ++ name ≠ []) :
    parse? (some before) (name ++ '}' :: rest) =
      (parse? none rest).map (.placeholder (String.ofList (before.reverse ++ name)) :: ·) := by
  induction name generalizing before with
  | nil =>
    rw [List.append_nil] at hne ⊢
    have hends : ¬ (before = [] ∨ rest.head?.any (· ≠ '/') = true) := by
      rintro (rfl | hmore)
      · exact hne rfl
      · exact Bool.false_ne_true (hrest.symm.trans hmore)
    rw [List.nil_append, parse?, if_neg hends]
    rintro _ rfl
    cases hrest
  | cons c name ih =>
    obtain ⟨hopen, hclose, hstar, hslash⟩ := hname
    simp only [List.mem_cons, not_or] at hopen hclose hstar hslash
    rw [List.cons_append, parse?_some_cons (Ne.symm hopen.1) (Ne.symm hclose.1) _ (Ne.symm hstar.1)
      (Ne.symm hslash.1), ih ⟨hopen.2, hclose.2, hstar.2, hslash.2⟩ (by simp)]
    simp

theorem parse?_placeholder {name rest : List Char} (hne : name ≠ []) (hname : Nameable name)
    (hrest : Follows rest) :
    parse? none ('{' :: (name ++ '}' :: rest)) =
      (parse? none rest).map (.placeholder (String.ofList name) :: ·) := by
  have hopens : parse? none ('{' :: (name ++ '}' :: rest)) = parse? (some []) (name ++ '}' :: rest) := by
    rw [parse?]
    intro tail heq
    obtain ⟨c, name, rfl⟩ := List.exists_cons_of_ne_nil hne
    exact hname.1 ((List.cons.inj heq).1 ▸ List.mem_cons_self)
  exact hopens.trans (parse?_name hname hrest hne)

/-- A plain segment is read as its pieces. -/
theorem parse?_segment {segment rest : List Char} (h : (Segment.ofChars segment).Plain)
    (hslash : '/' ∉ segment) (hrest : Follows rest) :
    parse? none ('/' :: (braced segment ++ rest)) =
      (parse? none rest).map fun p => .character '/' :: ((Segment.ofChars segment).pieces ++ p) := by
  have hbraced : parse? none (braced segment ++ rest) =
      (parse? none rest).map ((Segment.ofChars segment).pieces ++ ·) := by
    fun_cases braced segment with
    | case1 name =>
      obtain ⟨hne, hopen, hclose, hstar, -⟩ := h
      rw [String.toList_ofList] at hopen hclose hstar
      have hname : name ≠ [] := by
        rintro rfl
        exact hne rfl
      have hends : '{' :: name ++ ['}'] ++ rest = '{' :: (name ++ '}' :: rest) := by simp
      rw [hends]
      exact parse?_placeholder hname ⟨hopen, hclose, hstar, fun hmem => hslash (List.mem_cons_of_mem _ hmem)⟩ hrest
    | case2 _ hcolon =>
      have hliteral : Segment.ofChars segment = .literal segment := Segment.ofChars.eq_2 segment hcolon
      rw [hliteral] at h ⊢
      exact parse?_literal h.1 h.2.1 rest
  rw [parse?_none_cons (by decide) (by decide), hbraced, Option.map_map]
  rfl

theorem follows_flatMap {α : Type} (f : α → List Char) (xs : List α) :
    Follows (xs.flatMap fun x => '/' :: f x) := by
  cases xs with
  | nil => rfl
  | cons x xs => simp [Follows]

/-- A pattern with plain segments is accepted, and read segment by segment. -/
theorem parse?_translate {s : String} (h : ∀ segment ∈ Template.ofString s, segment.Plain) :
    parse? none (translate s) = some (Template.ofString s).pattern := by
  unfold translate Template.ofString at *
  have hslash : ∀ segment ∈ Text.split '/' (s.toList.dropWhile (· = '/')), '/' ∉ segment :=
    fun _ => Text.not_mem_of_mem_split
  generalize Text.split '/' (s.toList.dropWhile (· = '/')) = segments at *
  induction segments with
  | nil => rfl
  | cons segment segments ih =>
    obtain ⟨hsegment, hrest⟩ := List.forall_mem_cons.mp h
    obtain ⟨hslash, hslashes⟩ := List.forall_mem_cons.mp hslash
    have hstep := parse?_segment hsegment hslash (follows_flatMap braced segments)
    rw [List.flatMap_cons, List.cons_append, hstep, ih hrest hslashes]
    rfl

theorem ofString_eq {s : String} (h : ∀ segment ∈ Template.ofString s, segment.Plain) :
    ofString s = (Template.ofString s).pattern :=
  ofBraced_of_parse? (parse?_translate h)

theorem captures?_literal_iff {text : List Char} {p : Pattern} {path : List Char}
    {captures : List (String × List Char)} :
    captures? (text.map .character ++ p) path = some captures ↔
      ∃ rest, path = text ++ rest ∧ p.captures? rest = some captures := by
  induction text generalizing path with
  | nil => simp
  | cons c text ih =>
    rw [List.map_cons, List.cons_append, captures?_character_iff]
    simp [ih]

theorem captures?_last_iff {name : String} {path : List Char} {captures : List (String × List Char)} :
    captures? [.placeholder name] path = some captures ↔
      path ≠ [] ∧ '/' ∉ path ∧ captures = [(name, path)] := by
  rw [captures?]
  by_cases hempty : path = []
  · simp [hempty]
  · by_cases hslash : '/' ∈ path
    · simp [hslash]
    · have hplain : ¬ (path.isEmpty || path.contains '/') = true := by simp [hempty, hslash]
      rw [if_neg hplain, Option.some.injEq]
      exact ⟨fun h => ⟨hempty, hslash, h.symm⟩, fun h => h.2.2.symm⟩

/-- Before the end of a pattern a placeholder takes all up to the next slash. -/
theorem captures?_inner_iff {name : String} {p : Pattern} (hne : p ≠ []) {path : List Char}
    {captures : List (String × List Char)} :
    captures? (.placeholder name :: p) path = some captures ↔
      ∃ rest, p.captures? (path.dropWhile (· ≠ '/')) = some rest ∧
        captures = (name, path.takeWhile (· ≠ '/')) :: rest := by
  obtain ⟨piece, p, rfl⟩ := List.exists_cons_of_ne_nil hne
  rw [captures?, Option.map_eq_some_iff]
  · simp only [eq_comm]
  · exact hne

end Pattern

/-- A path consists of segments, each behind a slash. -/
structure SegmentsOf (path : List Char) (segments : List (List Char)) : Prop where
  path : path = segments.flatMap ('/' :: ·)
  slash : ∀ segment ∈ segments, '/' ∉ segment

namespace SegmentsOf

variable {path segment : List Char} {segments : List (List Char)}

theorem nil_iff : SegmentsOf path [] ↔ path = [] :=
  ⟨fun h => h.path, fun h => ⟨h, nofun⟩⟩

theorem cons_iff : SegmentsOf path (segment :: segments) ↔
    ∃ rest, path = '/' :: (segment ++ rest) ∧ '/' ∉ segment ∧ SegmentsOf rest segments := by
  constructor
  · intro h
    obtain ⟨hsegment, hsegments⟩ := List.forall_mem_cons.mp h.slash
    exact ⟨_, h.path, hsegment, rfl, hsegments⟩
  · rintro ⟨rest, rfl, hsegment, hrest⟩
    exact ⟨congrArg (fun rest => '/' :: (segment ++ rest)) hrest.path,
      List.forall_mem_cons.mpr ⟨hsegment, hrest.slash⟩⟩

/-- A path with a segment begins with a slash. -/
theorem exists_slash (h : SegmentsOf path segments) (hne : segments ≠ []) : ∃ rest, path = '/' :: rest := by
  obtain ⟨segment, segments, rfl⟩ := List.exists_cons_of_ne_nil hne
  obtain ⟨rest, hpath, -⟩ := cons_iff.mp h
  exact ⟨_, hpath⟩

/-- The segments stand between the slashes, behind the first one. -/
theorem split (h : SegmentsOf path segments) : Text.split '/' path = [] :: segments := by
  induction segments generalizing path with
  | nil =>
    rw [nil_iff.mp h]
    rfl
  | cons segment segments ih =>
    obtain ⟨rest, rfl, hslash, hrest⟩ := cons_iff.mp h
    have hsplit : Text.split '/' ('/' :: (segment ++ rest)) = [] :: Text.split '/' (segment ++ rest) :=
      if_pos rfl
    rw [hsplit]
    by_cases hlast : segments = []
    · subst hlast
      rw [nil_iff.mp hrest, List.append_nil, Text.split_of_not_mem hslash]
    · obtain ⟨tail, rfl⟩ := hrest.exists_slash hlast
      have htail : [] :: Text.split '/' tail = [] :: segments := (if_pos rfl).symm.trans (ih hrest)
      rw [Text.split_append hslash, (List.cons.inj htail).2]

/-- A path consists of its segments in one way only. -/
theorem unique (h : SegmentsOf path segments) {others : List (List Char)} (hothers : SegmentsOf path others) :
    segments = others :=
  (List.cons.inj (h.split.symm.trans hothers.split)).2

end SegmentsOf

namespace Template

/-- The segments of a path match those of a pattern one by one, and each placeholder is bound to the segment
in its place. At the end of a pattern that segment must not be empty. -/
inductive Binds : Template → List (List Char) → List (String × List Char) → Prop
  | nil : Binds [] [] []
  | literal {t : Template} {segments : List (List Char)} {captures : List (String × List Char)}
      (text : List Char) (h : Binds t segments captures) :
      Binds (.literal text :: t) (text :: segments) captures
  | last (name : String) {segment : List Char} (hne : segment ≠ []) :
      Binds [.placeholder name] [segment] [(name, segment)]
  | inner {t : Template} {segments : List (List Char)} {captures : List (String × List Char)} (name : String)
      (segment : List Char) (hne : t ≠ []) (h : Binds t segments captures) :
      Binds (.placeholder name :: t) (segment :: segments) ((name, segment) :: captures)

/-- Where two patterns first differ in more than a name, the first one has a literal. -/
inductive Prefers : Template → Template → Prop
  | here (text : List Char) (name : String) (t u : Template) :
      Prefers (.literal text :: t) (.placeholder name :: u)
  | literal {t u : Template} (text : List Char) (h : Prefers t u) :
      Prefers (.literal text :: t) (.literal text :: u)
  | placeholder {t u : Template} (name other : String) (h : Prefers t u) :
      Prefers (.placeholder name :: t) (.placeholder other :: u)

/-- A path matches the segments of a pattern with the given captures. -/
def Matches (t : Template) (path : List Char) (captures : List (String × List Char)) : Prop :=
  ∃ segments, SegmentsOf path segments ∧ t.Binds segments captures

theorem pattern_cons (segment : Segment) (t : Template) :
    pattern (segment :: t) = .character '/' :: (segment.pieces ++ t.pattern) := rfl

theorem pattern_ne_nil {t : Template} (h : t ≠ []) : t.pattern ≠ [] := by
  obtain ⟨segment, t, rfl⟩ := List.exists_cons_of_ne_nil h
  rw [pattern_cons]
  exact List.cons_ne_nil _ _

theorem Binds.segments_ne_nil {t : Template} {segments : List (List Char)}
    {captures : List (String × List Char)} (h : t.Binds segments captures) (hne : t ≠ []) :
    segments ≠ [] := by
  cases h with
  | nil => exact absurd rfl hne
  | literal | last | inner => exact List.cons_ne_nil _ _

section Matches

variable {t : Template} {path : List Char} {captures : List (String × List Char)}

theorem matches_nil_iff : Matches [] path captures ↔ path = [] ∧ captures = [] := by
  constructor
  · rintro ⟨_, hsegments, ⟨⟩⟩
    exact ⟨SegmentsOf.nil_iff.mp hsegments, rfl⟩
  · rintro ⟨rfl, rfl⟩
    exact ⟨[], SegmentsOf.nil_iff.mpr rfl, .nil⟩

theorem matches_literal_iff {text : List Char} (hslash : '/' ∉ text) :
    Matches (.literal text :: t) path captures ↔
      ∃ rest, path = '/' :: (text ++ rest) ∧ t.Matches rest captures := by
  constructor
  · rintro ⟨_, hsegments, hbinds⟩
    cases hbinds with
    | literal _ hbinds =>
      obtain ⟨rest, hpath, -, hrest⟩ := SegmentsOf.cons_iff.mp hsegments
      exact ⟨rest, hpath, _, hrest, hbinds⟩
  · rintro ⟨rest, hpath, segments, hrest, hbinds⟩
    exact ⟨_, SegmentsOf.cons_iff.mpr ⟨rest, hpath, hslash, hrest⟩, .literal text hbinds⟩

theorem matches_last_iff {name : String} :
    Matches [.placeholder name] path captures ↔
      ∃ segment, path = '/' :: segment ∧ segment ≠ [] ∧ '/' ∉ segment ∧ captures = [(name, segment)] := by
  constructor
  · rintro ⟨_, hsegments, hbinds⟩
    cases hbinds with
    | last _ hne =>
      obtain ⟨rest, rfl, hslash, hrest⟩ := SegmentsOf.cons_iff.mp hsegments
      rw [SegmentsOf.nil_iff.mp hrest, List.append_nil]
      exact ⟨_, rfl, hne, hslash, rfl⟩
    | inner _ _ hne _ => exact absurd rfl hne
  · rintro ⟨segment, rfl, hne, hslash, rfl⟩
    have hrest : SegmentsOf ('/' :: segment) [segment] :=
      SegmentsOf.cons_iff.mpr ⟨[], by rw [List.append_nil], hslash, SegmentsOf.nil_iff.mpr rfl⟩
    exact ⟨_, hrest, .last name hne⟩

theorem matches_inner_iff {name : String} (hne : t ≠ []) :
    Matches (.placeholder name :: t) path captures ↔
      ∃ segment rest others, path = '/' :: (segment ++ rest) ∧ '/' ∉ segment ∧ t.Matches rest others ∧
        captures = (name, segment) :: others := by
  constructor
  · rintro ⟨_, hsegments, hbinds⟩
    cases hbinds with
    | last => exact absurd rfl hne
    | inner _ segment _ hbinds =>
      obtain ⟨rest, hpath, hslash, hrest⟩ := SegmentsOf.cons_iff.mp hsegments
      exact ⟨segment, rest, _, hpath, hslash, ⟨_, hrest, hbinds⟩, rfl⟩
  · rintro ⟨segment, rest, others, hpath, hslash, ⟨segments, hrest, hbinds⟩, rfl⟩
    exact ⟨_, SegmentsOf.cons_iff.mpr ⟨rest, hpath, hslash, hrest⟩, .inner name segment hne hbinds⟩

/-- What the rest of a pattern matches begins with a slash. -/
theorem Matches.exists_slash (h : t.Matches path captures) (hne : t ≠ []) : ∃ rest, path = '/' :: rest := by
  obtain ⟨segments, hsegments, hbinds⟩ := h
  exact hsegments.exists_slash (hbinds.segments_ne_nil hne)

end Matches

/-- The literals of a pattern lie within segments. -/
def Sound (t : Template) : Prop := ∀ text, .literal text ∈ t → '/' ∉ text

theorem sound_ofString (s : String) : (ofString s).Sound := by
  intro text htext
  obtain ⟨segment, hmem, hsegment⟩ := List.mem_map.mp htext
  have hslash := Text.not_mem_of_mem_split hmem
  revert hsegment
  fun_cases Segment.ofChars segment with
  | case1 => nofun
  | case2 =>
    rintro ⟨⟩
    exact hslash

/-- The captures of a path are those of its segments. -/
theorem captures?_pattern_iff {t : Template} (h : t.Sound) {path : List Char}
    {captures : List (String × List Char)} :
    t.pattern.captures? path = some captures ↔ t.Matches path captures := by
  induction t generalizing path captures with
  | nil =>
    rw [matches_nil_iff]
    cases path <;> simp [pattern, Pattern.captures?, eq_comm]
  | cons segment t ih =>
    have ih {path captures} := @ih (fun text htext => h text (List.mem_cons_of_mem _ htext)) path captures
    rw [pattern_cons, Pattern.captures?_character_iff]
    cases segment with
    | literal text =>
      rw [matches_literal_iff (h text List.mem_cons_self)]
      simp only [Segment.pieces, Pattern.captures?_literal_iff, ih]
      constructor
      · rintro ⟨_, hpath, rest, rfl, hrest⟩
        exact ⟨rest, hpath, hrest⟩
      · rintro ⟨rest, hpath, hrest⟩
        exact ⟨_, hpath, rest, rfl, hrest⟩
    | placeholder name =>
      by_cases hlast : t = []
      · subst hlast
        rw [matches_last_iff]
        simp only [Segment.pieces, pattern, List.flatMap_nil, List.append_nil, Pattern.captures?_last_iff]
      · rw [matches_inner_iff hlast]
        have hinner {path} {captures} := @Pattern.captures?_inner_iff name _ (pattern_ne_nil hlast) path captures
        simp only [Segment.pieces, List.singleton_append, hinner, ih]
        constructor
        · rintro ⟨rest, hpath, others, hrest, hcaptures⟩
          refine ⟨_, _, others, ?_, ?_, hrest, hcaptures⟩
          · rw [List.takeWhile_append_dropWhile, hpath]
          · exact fun hmem => by simpa using List.all_eq_true.mp List.all_takeWhile _ hmem
        · rintro ⟨segment, rest, others, hpath, hslash, hrest, hcaptures⟩
          obtain ⟨tail, rfl⟩ := hrest.exists_slash hlast
          refine ⟨_, hpath, others, ?_, ?_⟩
          · rwa [Text.dropWhile_ne_append hslash]
          · rwa [Text.takeWhile_ne_append hslash]

section Precedence

variable {t u : Template} {text : List Char} {name other : String}

theorem precedes_literal (text : List Char) (p q : Pattern) :
    Pattern.precedes (text.map .character ++ p) (text.map .character ++ q) = p.precedes q := by
  induction text with
  | nil => rfl
  | cons c text ih => exact ih

/-- A literal that is not empty, or not the last segment, begins with a character. -/
theorem exists_character (h : text ≠ [] ∨ t ≠ []) :
    ∃ c rest, text.map .character ++ t.pattern = Piece.character c :: rest := by
  cases text with
  | cons c text => exact ⟨c, _, rfl⟩
  | nil =>
    obtain ⟨segment, t, rfl⟩ := List.exists_cons_of_ne_nil (h.resolve_left fun hne => hne rfl)
    exact ⟨'/', _, rfl⟩

theorem precedes_placeholder (h : text ≠ [] ∨ t ≠ []) :
    pattern (.literal text :: t) |>.precedes (pattern (.placeholder name :: u)) := by
  obtain ⟨c, rest, heq⟩ := exists_character h
  change Pattern.precedes (text.map .character ++ t.pattern) (.placeholder name :: u.pattern)
  rw [heq]
  rfl

theorem not_precedes_literal (h : text ≠ [] ∨ u ≠ []) :
    ¬ (pattern (.placeholder name :: t)).precedes (pattern (.literal text :: u)) := by
  obtain ⟨c, rest, heq⟩ := exists_character h
  change ¬ Pattern.precedes (.placeholder name :: t.pattern) (text.map .character ++ u.pattern)
  rw [heq]
  nofun

theorem prefers_literal_iff : Prefers (.literal text :: t) (.literal text :: u) ↔ t.Prefers u :=
  ⟨fun h => by cases h; assumption, .literal text⟩

theorem prefers_placeholder_iff : Prefers (.placeholder name :: t) (.placeholder other :: u) ↔ t.Prefers u :=
  ⟨fun h => by cases h; assumption, .placeholder name other⟩

theorem Binds.eq_nil {captures : List (String × List Char)} (h : t.Binds [] captures) : t = [] := by
  by_contra hne
  exact h.segments_ne_nil hne rfl

theorem Binds.ne_nil {segments : List (List Char)} {captures : List (String × List Char)}
    (h : t.Binds segments captures) (hne : segments ≠ []) : t ≠ [] := by
  rintro rfl
  cases h
  exact hne rfl

/-- Of two patterns that match the same path the one that is preferred takes precedence. -/
theorem precedes_pattern_iff {segments : List (List Char)} {captures others : List (String × List Char)}
    (ht : t.Binds segments captures) (hu : u.Binds segments others) :
    t.pattern.precedes u.pattern ↔ t.Prefers u := by
  induction ht generalizing u others with
  | nil =>
    obtain rfl := hu.eq_nil
    exact iff_of_false nofun nofun
  | literal text h ih =>
    cases hu with
    | literal _ h' =>
      rw [prefers_literal_iff, ← ih h']
      exact iff_of_eq (congrArg (· = true) (precedes_literal text _ _))
    | last name hne => exact iff_of_true (precedes_placeholder (.inl hne)) (.here ..)
    | inner name _ hne h' =>
      exact iff_of_true (precedes_placeholder (.inr (h.ne_nil (h'.segments_ne_nil hne)))) (.here ..)
  | last name hne =>
    cases hu with
    | literal => exact iff_of_false (not_precedes_literal (.inl hne)) nofun
    | last => exact iff_of_false nofun nofun
    | inner _ _ hrest h' => exact absurd h'.eq_nil hrest
  | inner name segment hne h ih =>
    cases hu with
    | literal _ h' =>
      exact iff_of_false (not_precedes_literal (.inr (h'.ne_nil (h.segments_ne_nil hne)))) nofun
    | last => exact absurd h.eq_nil hne
    | inner other _ _ h' =>
      rw [prefers_placeholder_iff]
      exact ih h'

/-- The captures of a path tell which placeholders there are. -/
theorem Binds.names {segments : List (List Char)} {captures : List (String × List Char)}
    (h : t.Binds segments captures) : captures.map Prod.fst = t.names := by
  induction h with
  | nil => rfl
  | literal _ _ ih => exact ih
  | last => rfl
  | inner name _ _ _ ih => exact congrArg (name :: ·) ih

end Precedence

section Read

theorem names_pattern (t : Template) : t.pattern.names = t.names := by
  have hliteral (text : List Char) (p : Pattern) : Pattern.names (text.map .character ++ p) = p.names := by
    induction text with
    | nil => rfl
    | cons c text ih => exact ih
  induction t with
  | nil => rfl
  | cons segment t ih =>
    rw [pattern_cons, Pattern.names]
    cases segment with
    | literal text => exact (hliteral text (pattern t)).trans ih
    | placeholder name => exact congrArg (name :: ·) ih

/-- A plain segment does not begin with what `RoutingTable.read` refuses once its placeholder is in braces. -/
theorem head?_braced {segment : List Char} (h : (Segment.ofChars segment).Plain) :
    (Pattern.braced segment).head? ≠ some ':' ∧ (Pattern.braced segment).head? ≠ some '*' := by
  fun_cases Pattern.braced segment with
  | case1 name => exact ⟨nofun, nofun⟩
  | case2 _ hcolon =>
    have hliteral : Segment.ofChars segment = .literal segment := Segment.ofChars.eq_2 segment hcolon
    rw [hliteral] at h
    refine ⟨fun hhead => ?_, h.2.2⟩
    obtain ⟨name, rfl⟩ := List.head?_eq_some_iff.mp hhead
    exact hcolon name rfl

theorem slash_not_mem_braced {segment : List Char} (h : '/' ∉ segment) : '/' ∉ Pattern.braced segment := by
  fun_cases Pattern.braced segment with
  | case1 name => simpa using h
  | case2 => exact h

/-- A path that a plain pattern is translated to can be read. -/
theorem Plain.read_translate {s : String} (h : (ofString s).Plain) :
    RoutingTable.read (String.ofList (Pattern.translate s)) = .ok (Pattern.ofString s) := by
  have hsegments : SegmentsOf (Pattern.translate s)
      ((Text.split '/' (s.toList.dropWhile (· = '/'))).map Pattern.braced) :=
    ⟨(List.flatMap_map ..).symm, List.forall_mem_map.mpr fun _ hmem =>
      slash_not_mem_braced (Text.not_mem_of_mem_split hmem)⟩
  have hbegins : ¬ (Text.split '/' (Pattern.translate s)).any
      (fun segment => segment.head? = some ':' ∨ segment.head? = some '*') := by
    rw [hsegments.split, List.any_eq_true]
    rintro ⟨segment, hmem, hhead⟩
    rcases List.mem_cons.mp hmem with rfl | hmem
    · simp at hhead
    · obtain ⟨plain, hplain, rfl⟩ := List.mem_map.mp hmem
      obtain ⟨hcolon, hstar⟩ := head?_braced (h.segments _ (List.mem_map_of_mem hplain))
      simp [hcolon, hstar] at hhead
  unfold RoutingTable.read
  rw [String.toList_ofList, if_neg hbegins, Pattern.parse?_translate h.segments, Pattern.ofString_eq h.segments]
  simp only [names_pattern, if_neg (Nat.not_lt.mpr h.few)]

end Read

end Template

end BeaconApi
