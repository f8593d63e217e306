import BeaconApi.Proofs.Json.Tokens
import BeaconApi.Proofs.Json.Written

namespace BeaconApi

namespace Json

/-- A value all of whose numbers are natural. -/
inductive Plain : Json → Prop
  | null : Plain .null
  | bool (b : Bool) : Plain (.bool b)
  | natural (n : UInt64) : Plain (.number (.natural n))
  | string (s : String) : Plain (.string s)
  | array {items : List Json} (h : ∀ item ∈ items, Plain item) : Plain (.array items)
  | object {members : List (String × Json)} (h : ∀ m ∈ members, Plain m.2) : Plain (.object members)

theorem plain_array_iff {items : List Json} : (array items).Plain ↔ ∀ item ∈ items, item.Plain :=
  ⟨fun | .array h => h, .array⟩

theorem plain_object_iff {members : List (String × Json)} :
    (object members).Plain ↔ ∀ m ∈ members, m.2.Plain :=
  ⟨fun | .object h => h, .object⟩

mutual

/-- The outline of the text of a value. -/
def outline : Json → Document
  | .null => .null
  | .bool b => .bool b
  | .number n => .number n
  | .string s => .string s
  | .array items => .list (outlineItems items) none
  | .object members => .object (outlineMembers members) none

/-- The outlines of items. -/
def outlineItems : List Json → List Document
  | [] => []
  | item :: items => item.outline :: outlineItems items

/-- The outlines of members. -/
def outlineMembers : List (String × Json) → List (Except Fault String × Document)
  | [] => []
  | (key, value) :: members => (.ok key, value.outline) :: outlineMembers members

end

namespace Scan

/-- A whole value has been read, up to a byte that ends it. -/
def Settles (s : Scan) (d : Document) (around : List Frame) : Prop :=
  s = complete d around ∨
    ∃ reader, s = .numeral reader around ∧ reader.document = d ∧ reader.phase.mayEnd ∧
      ∀ byte ∈ [0x2c, 0x5d, 0x7d], reader.feed byte = .ended

theorem Settles.feed {s : Scan} {d : Document} {around : List Frame} (h : Settles s d around)
    {byte : UInt8} (hbyte : byte ∈ [0x2c, 0x5d, 0x7d]) :
    s.feed byte = feedAfter byte (complete d around) := by
  rcases h with rfl | ⟨reader, rfl, rfl, _, hends⟩
  · cases around with
    | nil => rfl
    | cons frame around => cases frame <;> rfl
  · change feedNumeral byte reader around = _
    rw [feedNumeral, hends byte hbyte]

theorem Settles.finish {s : Scan} {d : Document} (h : Settles s d []) : s.finish = .done d := by
  rcases h with rfl | ⟨reader, rfl, rfl, hends, _⟩
  · rfl
  · change (if reader.phase.mayEnd then _ else _ : Scan) = _
    rw [if_pos hends]
    rfl

/-- The bytes are the text of a document: they begin like no blank and no closing bracket, and lead
from where a value has to come to where the document is complete. -/
structure Spells (bytes : List UInt8) (d : Document) : Prop where
  opens : ∃ first rest, bytes = first :: rest ∧ isBlank first = false ∧ first ≠ 0x5d
  settles (around : List Frame) : Settles (bytes.foldl Scan.feed (.value around)) d around

namespace Spells

variable {bytes : List UInt8} {d : Document}

theorem of_word {first : UInt8} {rest : List UInt8} (hblank : isBlank first = false)
    (hbracket : first ≠ 0x5d)
    (h : ∀ around, rest.foldl Scan.feed (begin first around) = complete d around) :
    Spells (first :: rest) d := by
  refine ⟨⟨first, rest, rfl, hblank, hbracket⟩, fun around => .inl ?_⟩
  rw [List.foldl_cons]
  change rest.foldl Scan.feed (feedValue first around) = _
  rw [feedValue, hblank]
  exact h around

theorem settles_listOpen (h : Spells bytes d) (around : List Frame) :
    Settles (bytes.foldl Scan.feed (.listOpen around)) d (.list [] :: around) := by
  obtain ⟨first, rest, rfl, hblank, hbracket⟩ := h.opens
  have hsame : Scan.feed (.listOpen around) first = Scan.feed (.value (.list [] :: around)) first := by
    change feedListOpen first around = feedValue first _
    simp [feedListOpen, feedValue, hblank, hbracket]
  rw [List.foldl_cons, hsame]
  exact h.settles _

theorem settles_listMore (h : Spells bytes d) (items : List Document) (around : List Frame) :
    Settles (bytes.foldl Scan.feed (.listMore items around)) d (.list items :: around) := by
  obtain ⟨first, rest, rfl, hblank, hbracket⟩ := h.opens
  have hsame : Scan.feed (.listMore items around) first =
      Scan.feed (.value (.list items :: around)) first := by
    change feedListMore first items around = feedValue first _
    simp [feedListMore, feedValue, hblank, hbracket]
  rw [List.foldl_cons, hsame]
  exact h.settles _

end Spells

theorem foldl_string {r r' : StringReader} {bytes : List UInt8} (h : r.Passes bytes r')
    (around : List Frame) : bytes.foldl Scan.feed (.string r around) = .string r' around := by
  induction bytes generalizing r with
  | nil =>
    obtain rfl : r = r' := h
    rfl
  | cons byte bytes ih =>
    obtain ⟨next, hfeed, hrest⟩ := h
    rw [List.foldl_cons]
    change bytes.foldl Scan.feed (feedString byte r around) = _
    rw [feedString, hfeed]
    exact ih hrest

theorem foldl_key {r r' : StringReader} {bytes : List UInt8} (h : r.Passes bytes r')
    (members : List (Except Fault String × Document)) (around : List Frame) :
    bytes.foldl Scan.feed (.key r members around) = .key r' members around := by
  induction bytes generalizing r with
  | nil =>
    obtain rfl : r = r' := h
    rfl
  | cons byte bytes ih =>
    obtain ⟨next, hfeed, hrest⟩ := h
    rw [List.foldl_cons]
    change bytes.foldl Scan.feed (feedKey byte r members around) = _
    rw [feedKey, hfeed]
    exact ih hrest

/-- What is written for a key, with the colon behind it, where a key may come. -/
theorem foldl_named {s : Scan} {members : List (Except Fault String × Document)} {around : List Frame}
    (hs : s.feed 0x22 = .key {} members around) (key : String) (rest : List UInt8) :
    (stringBytes key ++ 0x3a :: rest).foldl Scan.feed s =
      rest.foldl Scan.feed (.value (.object members (.ok key) :: around)) := by
  have hpasses := StringReader.passes_escapes key.toList []
  rw [← Utf8.encode_eq_flatMap, List.append_nil] at hpasses
  rw [stringBytes, List.cons_append, List.foldl_cons, hs, List.append_assoc, List.foldl_append]
  change List.foldl Scan.feed (List.foldl Scan.feed
    (.key (StringReader.holding []) members around) _) _ = _
  rw [foldl_key hpasses, List.singleton_append, List.foldl_cons]
  change List.foldl Scan.feed
    (feedKey 0x22 (StringReader.holding (Utf8.encode key).reverse) members around) _ = _
  rw [feedKey, StringReader.feed_quote]
  rfl

namespace Spells

theorem string (s : String) : Spells (stringBytes s) (.string s) := by
  refine of_word rfl (by decide) fun around => ?_
  have hpasses := StringReader.passes_escapes s.toList []
  rw [← Utf8.encode_eq_flatMap, List.append_nil] at hpasses
  rw [List.foldl_append]
  change [0x22].foldl Scan.feed (List.foldl Scan.feed (.string (StringReader.holding []) around) _) = _
  rw [foldl_string hpasses]
  change feedString 0x22 _ around = _
  rw [feedString, StringReader.feed_quote]

theorem natural (n : UInt64) :
    Spells (Utf8.encode (toString n.toNat)) (.number (.natural n)) := by
  rw [Nat.toString_eq_ofList_toDigits, Utf8.encode_ofList]
  refine ⟨digits_open n.toNat, fun around => .inr ?_⟩
  by_cases hzero : n.toNat = 0
  · obtain rfl : n = 0 := UInt64.toNat_inj.mp hzero
    refine ⟨⟨.zero, {}⟩, rfl, rfl, rfl, fun byte hbyte => ?_⟩
    simp only [List.mem_cons, List.not_mem_nil, or_false] at hbyte
    rcases hbyte with rfl | rfl | rfl <;> rfl
  -- Only the next byte tells that no further digit follows, so the numeral stays open.
  · have hlargest : n.toNat ≤ Numeral.largest := by
      have hlt := n.toNat_lt_size
      simp only [Numeral.largest]
      omega
    exact ⟨counted n.toNat, foldl_digits (by omega) hlargest around, counted_document n, rfl,
      fun _ hbyte => counted_feed n.toNat hbyte⟩

end Spells

/-- The further items of a list, and the bracket that closes it. -/
theorem foldl_items {items : List Json}
    (h : ∀ item ∈ items, Spells (Utf8.encode item.render) item.outline) {s : Scan} {d : Document}
    {done : List Document} {around : List Frame} (hs : Settles s d (.list done :: around)) :
    (Utf8.encode (writeItems "" items) ++ [0x5d]).foldl Scan.feed s =
      complete (.list (done.reverse ++ d :: outlineItems items) none) around := by
  induction items generalizing s d done with
  | nil =>
    change Scan.feed s 0x5d = _
    rw [hs.feed (by simp)]
    change complete (.list (d :: done).reverse none) around = _
    rw [List.reverse_cons, outlineItems]
  | cons item items ih =>
    rw [encode_writeItems_cons, List.cons_append, List.foldl_cons, hs.feed (by simp), List.append_assoc,
      List.foldl_append]
    change List.foldl Scan.feed (List.foldl Scan.feed (.listMore (d :: done) around) _) _ = _
    have hitem := (h item List.mem_cons_self).settles_listMore (d :: done) around
    rw [ih (fun other hother => h other (List.mem_cons_of_mem _ hother)) hitem, List.reverse_cons,
      List.append_assoc]
    rfl

/-- The further members of an object, and the brace that closes it. -/
theorem foldl_members {members : List (String × Json)}
    (h : ∀ m ∈ members, Spells (Utf8.encode m.2.render) m.2.outline) {s : Scan} {d : Document}
    {name : Except Fault String} {done : List (Except Fault String × Document)} {around : List Frame}
    (hs : Settles s d (.object done name :: around)) :
    (Utf8.encode (writeMembers "" members) ++ [0x7d]).foldl Scan.feed s =
      complete (.object (done.reverse ++ (name, d) :: outlineMembers members) none) around := by
  induction members generalizing s d name done with
  | nil =>
    change Scan.feed s 0x7d = _
    rw [hs.feed (by simp)]
    change complete (.object ((name, d) :: done).reverse none) around = _
    rw [List.reverse_cons, outlineMembers]
  | cons member members ih =>
    obtain ⟨key, value⟩ := member
    rw [encode_writeMembers_cons, List.cons_append, List.foldl_cons, hs.feed (by simp), List.append_assoc,
      List.cons_append]
    change List.foldl Scan.feed (.objectMore ((name, d) :: done) around) _ = _
    rw [foldl_named rfl, List.append_assoc, List.foldl_append]
    have hvalue := (h (key, value) List.mem_cons_self).settles
      (.object ((name, d) :: done) (.ok key) :: around)
    rw [ih (fun other hother => h other (List.mem_cons_of_mem _ hother)) hvalue, List.reverse_cons,
      List.append_assoc]
    rfl

theorem spells_render {j : Json} (h : j.Plain) : Spells (Utf8.encode j.render) j.outline := by
  induction h with
  | null => exact Spells.of_word rfl (by decide) fun _ => rfl
  | bool b => cases b <;> exact Spells.of_word rfl (by decide) fun _ => rfl
  | natural n =>
    have hrender : (Json.number (.natural n)).render = toString n.toNat := String.empty_append
    rw [hrender]
    exact .natural n
  | string s =>
    have hrender : Utf8.encode (Json.string s).render = stringBytes s := encode_writeString "" s
    rw [hrender]
    exact .string s
  | @array items _ ih =>
    cases items with
    | nil => exact Spells.of_word rfl (by decide) fun _ => rfl
    | cons item items =>
      rw [encode_render_array]
      refine Spells.of_word rfl (by decide) fun around => ?_
      change List.foldl Scan.feed (.listOpen around) _ = _
      rw [List.foldl_append]
      exact foldl_items (fun other hother => ih other (List.mem_cons_of_mem _ hother))
        ((ih item List.mem_cons_self).settles_listOpen around)
  | @object members _ ih =>
    cases members with
    | nil => exact Spells.of_word rfl (by decide) fun _ => rfl
    | cons member members =>
      obtain ⟨key, value⟩ := member
      rw [encode_render_object]
      refine Spells.of_word rfl (by decide) fun around => ?_
      change List.foldl Scan.feed (.objectOpen around) _ = _
      rw [foldl_named rfl, List.foldl_append]
      exact foldl_members (fun other hother => ih other (List.mem_cons_of_mem _ hother))
        ((ih (key, value) List.mem_cons_self).settles _)

end Scan

/-- The text of a value has the outline of the value, and nothing behind it. -/
theorem ofBytes_render {j : Json} (h : j.Plain) :
    Document.ofBytes j.render.toUTF8 = (j.outline, false) := by
  have hspells := Scan.spells_render h
  unfold Document.ofBytes Scan.run
  change (List.foldl Scan.feed (.value []) (Utf8.encode j.render)).finish.result = _
  rw [(hspells.settles []).finish]
  rfl

end Json

end BeaconApi
