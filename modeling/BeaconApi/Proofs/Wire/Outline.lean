import BeaconApi.Proofs.Json.Outline
import BeaconApi.Proofs.Wire.Room
import BeaconApi.Wire.Payload

namespace BeaconApi

namespace Json

theorem outlineItems_eq_map (items : List Json) : outlineItems items = items.map outline := by
  induction items with
  | nil => rfl
  | cons item items ih => rw [outlineItems, ih, List.map_cons]

theorem outlineMembers_eq_map (members : List (String × Json)) :
    outlineMembers members = members.map fun m => (.ok m.1, m.2.outline) := by
  induction members with
  | nil => rfl
  | cons member members ih =>
    obtain ⟨key, value⟩ := member
    rw [outlineMembers, ih, List.map_cons]

theorem outline_array_fits {room : Nat} {items : List Json} (h : ∀ item ∈ items, item.outline.Fits room) :
    (Json.array items).outline.Fits (room + 1) := by
  refine Document.fits_list_iff.mpr ⟨room, rfl, rfl, ?_⟩
  rwa [outlineItems_eq_map, List.forall_mem_map]

theorem outline_object_fits {room : Nat} {members : List (String × Json)}
    (h : ∀ m ∈ members, m.2.outline.Fits room) : (Json.object members).outline.Fits (room + 1) := by
  refine Document.fits_object_iff.mpr ⟨room, rfl, rfl, ?_⟩
  rw [outlineMembers_eq_map, Wire.Roomy, List.forall_mem_map]
  exact fun m hm => ⟨⟨m.1, rfl⟩, h m hm⟩

/-- A value that stands beside its tag. -/
theorem Plain.beside {tagKey contentKey tag : String} {content : Json} (h : content.Plain) :
    (Json.object [(tagKey, .string tag), (contentKey, content)]).Plain := by
  refine .object fun m hm => ?_
  rcases List.mem_cons.mp hm with rfl | hm
  · exact .string tag
  · obtain rfl := List.mem_singleton.mp hm
    exact h

theorem outline_beside_fits {room : Nat} {tagKey contentKey tag : String} {content : Json}
    (h : content.outline.Fits room) :
    (Json.object [(tagKey, .string tag), (contentKey, content)]).outline.Fits (room + 1) := by
  refine outline_object_fits fun m hm => ?_
  rcases List.mem_cons.mp hm with rfl | hm
  · exact ⟨_, rfl⟩
  · obtain rfl := List.mem_singleton.mp hm
    exact h

theorem outlineMembers_append (first second : List (String × Json)) :
    outlineMembers (first ++ second) = outlineMembers first ++ outlineMembers second := by
  simp [outlineMembers_eq_map]

end Json

namespace Wire

open Json (Plain)

mutual

/-- Whether no part of a shape is free-form. -/
def Shape.fixed : Shape → Bool
  | .free => false
  | .quoted | .natural _ | .bytes _ | .text | .flag | .choice _ _ => true
  | .list item => item.fixed
  | .record _ fields => fields.fixed
  | .merged _ fields _ own => fields.fixed && own.fixed
  | .either _ first second => first.fixed && second.fixed
  | .tagged _ _ _ _ _ first second => first.fixed && second.fixed

/-- Whether no part of fields is free-form. -/
def Fields.fixed : Fields → Bool
  | .nil => true
  | .required _ shape rest | .optional _ shape rest => shape.fixed && rest.fixed

end

mutual

/-- How many lists and objects can be open within each other in a value of a shape, apart from its
free-form parts. -/
def Shape.depth : Shape → Nat
  | .quoted | .natural _ | .bytes _ | .text | .flag | .free | .choice _ _ => 0
  | .list item => item.depth + 1
  | .record _ fields => fields.depth + 1
  | .merged _ fields _ own => max fields.depth own.depth + 1
  | .either _ first second => max first.depth second.depth
  | .tagged _ _ _ _ _ first second => max first.depth second.depth + 1

/-- How deep the values of fields are. -/
def Fields.depth : Fields → Nat
  | .nil => 0
  | .required _ shape rest | .optional _ shape rest => max shape.depth rest.depth

end

mutual

theorem Shape.encode_plain : ∀ {s : Shape}, s.fixed → ∀ x : s.Carrier, (s.encode x).Plain
  | .quoted, _, _ => .string _
  | .natural _, _, _ => .natural _
  | .bytes _, _, _ => .string _
  | .text, _, _ => .string _
  | .flag, _, _ => .bool _
  | .choice _ _, _, _ => .string _
  | .list item, h, xs => by
    refine .array fun j hj => ?_
    obtain ⟨x, _, rfl⟩ := List.mem_map.mp hj
    exact Shape.encode_plain (s := item) h x
  | .record _ fields, h, x => .object (@Fields.members_plain fields h x)
  | .merged _ fields key own, h, (x, y) => by
    obtain ⟨hfields, hown⟩ := Bool.and_eq_true_iff.mp h
    refine .object fun m hm => ?_
    rcases List.mem_append.mp hm with hm | hm
    · exact Fields.members_plain hfields x m hm
    · obtain rfl := List.mem_singleton.mp hm
      exact Shape.encode_plain hown y
  | .either _ first second, h, x => by
    obtain ⟨hfirst, hsecond⟩ := Bool.and_eq_true_iff.mp h
    cases x with
    | inl x => exact Shape.encode_plain hfirst x
    | inr y => exact Shape.encode_plain hsecond y
  | .tagged _ tagKey contentKey firstTag secondTag first second, h, x => by
    obtain ⟨hfirst, hsecond⟩ := Bool.and_eq_true_iff.mp h
    cases x with
    | inl x => exact .beside (Shape.encode_plain hfirst x)
    | inr y => exact .beside (Shape.encode_plain hsecond y)

theorem Fields.members_plain : ∀ {fs : Fields}, fs.fixed →
    ∀ x : fs.Carrier, ∀ m ∈ fs.members x, m.2.Plain
  | .nil, _, _, _, hm => nomatch hm
  | .required name shape rest, h, (x, xs), m, hm => by
    obtain ⟨hshape, hrest⟩ := Bool.and_eq_true_iff.mp h
    rcases List.mem_cons.mp hm with rfl | hm
    · exact Shape.encode_plain hshape x
    · exact Fields.members_plain hrest xs m hm
  | .optional name shape rest, h, (some x, xs), m, hm => by
    obtain ⟨hshape, hrest⟩ := Bool.and_eq_true_iff.mp h
    rcases List.mem_cons.mp hm with rfl | hm
    · exact Shape.encode_plain hshape x
    · exact Fields.members_plain hrest xs m hm
  | .optional name shape rest, h, (.none, xs), m, hm =>
    Fields.members_plain (Bool.and_eq_true_iff.mp h).2 xs m hm

end

mutual

/-- What is written for a shape can be read free-form if there is room for its depth. -/
theorem Shape.encode_fits : ∀ {s : Shape} {room : Nat}, s.fixed → s.depth ≤ room → ∀ x : s.Carrier,
    (s.encode x).outline.Fits room
  | .quoted, _, _, _, _ | .natural _, _, _, _, _ | .bytes _, _, _, _, _ | .text, _, _, _, _
  | .flag, _, _, _, _ | .choice _ _, _, _, _, _ => ⟨_, rfl⟩
  | .list item, room + 1, h, hroom, xs => by
    refine Json.outline_array_fits fun j hj => ?_
    obtain ⟨x, _, rfl⟩ := List.mem_map.mp hj
    exact Shape.encode_fits (s := item) h (Nat.le_of_succ_le_succ hroom) x
  | .record _ fields, room + 1, h, hroom, x =>
    Json.outline_object_fits (@Fields.members_fit fields room h (Nat.le_of_succ_le_succ hroom) x)
  | .merged _ fields key own, room + 1, h, hroom, (x, y) => by
    obtain ⟨hfields, hown⟩ := Bool.and_eq_true_iff.mp h
    obtain ⟨hfieldsRoom, hownRoom⟩ := Nat.max_le.mp (Nat.le_of_succ_le_succ hroom)
    refine Json.outline_object_fits fun m hm => ?_
    rcases List.mem_append.mp hm with hm | hm
    · exact Fields.members_fit hfields hfieldsRoom x m hm
    · obtain rfl := List.mem_singleton.mp hm
      exact Shape.encode_fits hown hownRoom y
  | .either _ first second, room, h, hroom, x => by
    obtain ⟨hfirst, hsecond⟩ := Bool.and_eq_true_iff.mp h
    obtain ⟨hfirstRoom, hsecondRoom⟩ := Nat.max_le.mp hroom
    cases x with
    | inl x => exact Shape.encode_fits hfirst hfirstRoom x
    | inr y => exact Shape.encode_fits hsecond hsecondRoom y
  | .tagged _ tagKey contentKey firstTag secondTag first second, room + 1, h, hroom, x => by
    obtain ⟨hfirst, hsecond⟩ := Bool.and_eq_true_iff.mp h
    obtain ⟨hfirstRoom, hsecondRoom⟩ := Nat.max_le.mp (Nat.le_of_succ_le_succ hroom)
    cases x with
    | inl x => exact Json.outline_beside_fits (Shape.encode_fits hfirst hfirstRoom x)
    | inr y => exact Json.outline_beside_fits (Shape.encode_fits hsecond hsecondRoom y)

theorem Fields.members_fit : ∀ {fs : Fields} {room : Nat}, fs.fixed → fs.depth ≤ room →
    ∀ x : fs.Carrier, ∀ m ∈ fs.members x, m.2.outline.Fits room
  | .nil, _, _, _, _, _, hm => nomatch hm
  | .required name shape rest, _, h, hroom, (x, xs), m, hm => by
    obtain ⟨hshape, hrest⟩ := Bool.and_eq_true_iff.mp h
    obtain ⟨hshapeRoom, hrestRoom⟩ := Nat.max_le.mp hroom
    rcases List.mem_cons.mp hm with rfl | hm
    · exact Shape.encode_fits hshape hshapeRoom x
    · exact Fields.members_fit hrest hrestRoom xs m hm
  | .optional name shape rest, _, h, hroom, (some x, xs), m, hm => by
    obtain ⟨hshape, hrest⟩ := Bool.and_eq_true_iff.mp h
    obtain ⟨hshapeRoom, hrestRoom⟩ := Nat.max_le.mp hroom
    rcases List.mem_cons.mp hm with rfl | hm
    · exact Shape.encode_fits hshape hshapeRoom x
    · exact Fields.members_fit hrest hrestRoom xs m hm
  | .optional name shape rest, _, h, hroom, (.none, xs), m, hm =>
    Fields.members_fit (Bool.and_eq_true_iff.mp h).2 (Nat.max_le.mp hroom).2 xs m hm

end

end Wire

end BeaconApi
