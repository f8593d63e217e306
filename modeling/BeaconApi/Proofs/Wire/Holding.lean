import BeaconApi.Proofs.Except
import BeaconApi.Proofs.Wire.Members

namespace BeaconApi.Wire

open Json (Break Document)

/-- What a document holds that may be null instead. -/
def OrNull {α : Type} (holds : Document → α → Prop) (d : Document) : Option α → Prop
  | none => d = .null
  | some x => d ≠ .null ∧ holds d x

mutual

/-- A document holds a value of a shape. Nothing is said of shapes that are read in a second step. -/
def Shape.Holds : (s : Shape) → Document → s.Carrier → Prop
  | .quoted, d, n => decodeQuoted d = .ok n
  | .natural expected, d, n => decodeNatural expected d = .ok n
  | .bytes length, d, v => decodeBytes length d = .ok v
  | .text, d, s => decodeText d = .ok s
  | .flag, d, b => decodeFlag d = .ok b
  | .choice first second, d, branch => decodeBranch first second d = .ok branch
  | .list item, d, xs => ∃ items, d = .list items none ∧ List.Forall₂ item.Holds items xs
  | .record _ fields, d, x =>
    (∃ items, d = .list items none ∧ fields.Listed items x) ∨
      ∃ members, d = .object members none ∧ fields.Named members x
  | .free, _, _ | .merged _ _ _ _, _, _ | .either _ _ _, _, _ | .tagged _ _ _ _ _ _ _, _, _ => False

/-- The items of a list are the fields of a record, in order. -/
def Fields.Listed : (fs : Fields) → List Document → fs.Carrier → Prop
  | .nil, items, () => items = []
  | .required _ shape rest, items, (x, xs) =>
    ∃ d left, items = d :: left ∧ shape.Holds d x ∧ rest.Listed left xs
  | .optional _ shape rest, items, (x, xs) =>
    (items = [] ∧ x = none ∧ rest.Listed [] xs) ∨
      ∃ d left, items = d :: left ∧ OrNull shape.Holds d x ∧ rest.Listed left xs

/-- The members of an object hold the fields of a record by their names. -/
def Fields.Named : (fs : Fields) → Members → fs.Carrier → Prop
  | .nil, members, () => Passable members
  | .required name shape rest, members, (x, xs) =>
    (∃ d, valuesOf name members = [d] ∧ shape.Holds d x) ∧ rest.Named (without name members) xs
  | .optional name shape rest, members, (x, xs) =>
    ((valuesOf name members = [] ∧ x = none) ∨
      ∃ d, valuesOf name members = [d] ∧ OrNull shape.Holds d x) ∧
      rest.Named (without name members) xs

end

mutual

/-- Whether a shape is read in one step: no part of it is read free-form first. -/
def Shape.direct : Shape → Bool
  | .quoted | .natural _ | .bytes _ | .text | .flag | .choice _ _ => true
  | .list item => item.direct
  | .record _ fields => fields.direct
  | .free | .merged _ _ _ _ | .either _ _ _ | .tagged _ _ _ _ _ _ _ => false

/-- Whether fields have shapes that are read in one step. -/
def Fields.direct : Fields → Bool
  | .nil => true
  | .required _ shape rest | .optional _ shape rest => shape.direct && rest.direct

end

theorem closed_eq_ok_iff {stop : Option Break} {u : Unit} : closed stop = .ok u ↔ stop = none := by
  cases stop with
  | none => simp [closed, Document.close, ofFault]
  | some stop => simp [closed, Document.close, ofFault]

theorem endOfItems_eq_ok_iff {buffered : Bool} {taken : Nat} {left : List Document}
    {stop : Option Break} {u : Unit} :
    endOfItems buffered taken left stop = .ok u ↔ left = [] ∧ stop = none := by
  cases left with
  | nil => cases stop <;> simp [endOfItems]
  | cons d left => cases buffered <;> simp [endOfItems]

theorem mismatch_ne_ok {α : Type} (expected : String) (d : Document) (x : α) :
    mismatch expected d ≠ .ok x := by
  unfold mismatch
  cases d.kind <;> simp

/-- Read a document that may be null instead. -/
def orNull {α : Type} (read : Document → Decoded α) : Document → Decoded (Option α)
  | .null => .ok none
  | d => (read d).map some

theorem orNull_eq_ok_iff {α : Type} {read : Document → Decoded α} {holds : Document → α → Prop}
    (h : ∀ {d x}, read d = .ok x ↔ holds d x) {d : Document} {x : Option α} :
    orNull read d = .ok x ↔ OrNull holds d x := by
  by_cases hnull : d = .null
  · subst hnull
    cases x <;> simp [orNull, OrNull]
  · have hread : orNull read d = (read d).map some := by
      cases d <;> first | rfl | exact absurd rfl hnull
    have hmap : (read d).map some = .ok x ↔ ∃ y, read d = .ok y ∧ some y = x := map_eq_ok_iff
    rw [hread, hmap]
    cases x <;> simp [OrNull, hnull, h]

section Fields

variable {name : String} {shape : Shape} {rest : Fields} {buffered : Bool} {room : Nat}
  {others : rest.Partial} {d : Document}

theorem Fields.put_required_self {value : Option shape.Carrier} :
    (Fields.required name shape rest).put buffered room (value, others) name d =
      once name value ((shape.decode buffered room d).map fun x => some (some x, others)) := by
  rw [Fields.put.eq_def]
  exact (if_pos rfl).trans (by cases value <;> rfl)

theorem Fields.put_optional_self {value : Option (Option shape.Carrier)} :
    (Fields.optional name shape rest).put buffered room (value, others) name d =
      once name value ((orNull (shape.decode buffered room) d).map fun x => some (some x, others)) := by
  rw [Fields.put.eq_def]
  refine (if_pos rfl).trans ?_
  cases value with
  | some _ => rfl
  | none => cases d <;> simp [once, orNull, Except.map] <;> cases shape.decode buffered room _ <;> rfl

theorem Fields.inOrder_optional_cons {expected : String} {taken : Nat} {stop : Option Break}
    {left : List Document} :
    (Fields.optional name shape rest).inOrder buffered room expected taken stop (d :: left) = (do
      let x ← orNull (shape.decode buffered room) d
      let (xs, left) ← rest.inOrder buffered room expected (taken + 1) stop left
      return ((x, xs), left)) := by
  cases d <;> rfl

variable {xs : rest.Carrier}

theorem Fields.finish_required_eq_ok_iff {value : Option shape.Carrier} {x : shape.Carrier} :
    (Fields.required name shape rest).finish (value, others) = .ok (x, xs) ↔
      value = some x ∧ rest.finish others = .ok xs := by
  cases value with
  | none => simp [Fields.finish]
  | some y =>
    change ((rest.finish others).map (y, ·)) = _ ↔ _
    cases rest.finish others <;> simp [Except.map]

theorem Fields.finish_optional_eq_ok_iff {value : Option (Option shape.Carrier)}
    {x : Option shape.Carrier} :
    (Fields.optional name shape rest).finish (value, others) = .ok (x, xs) ↔
      value.join = x ∧ rest.finish others = .ok xs := by
  rw [Fields.finish]
  cases rest.finish others <;> simp [Except.map]

end Fields

theorem decode_list {item : Shape} {buffered : Bool} {room : Nat} {d : Document} {xs : List item.Carrier} :
    (Shape.list item).decode buffered room d = .ok xs ↔
      ∃ items, d = .list items none ∧ items.mapM (item.decode buffered (room - 1)) = .ok xs := by
  rw [Shape.decode.eq_def]
  cases d with
  | list items stop =>
    cases stop with
    | none => simp [bind_eq_ok_iff, closed_eq_ok_iff, fmap_eq_ok_iff]
    | some stop => simp [bind_eq_ok_iff, closed_eq_ok_iff, fmap_eq_ok_iff]
  | _ => simp [mismatch_ne_ok]

theorem decode_record {name : String} {fields : Fields} {buffered : Bool} {room : Nat} {d : Document}
    {x : fields.Carrier} :
    (Shape.record name fields).decode buffered room d = .ok x ↔
      (∃ items, d = .list items none ∧
        fields.inOrder buffered (room - 1) ("struct " ++ name ++ " with " ++ elements fields.count) 0 none
          items = .ok (x, [])) ∨
      ∃ members, d = .object members none ∧
        (walk (fields.put buffered (room - 1)) fields.none members >>= fields.finish) = .ok x := by
  rw [Shape.decode.eq_def]
  cases d with
  | list items stop =>
    cases stop with
    | none => simp [bind_eq_ok_iff, endOfItems_eq_ok_iff, fmap_eq_ok_iff]
    | some stop => simp [bind_eq_ok_iff, endOfItems_eq_ok_iff, fmap_eq_ok_iff]
  | object members stop =>
    cases stop with
    | none => simp [bind_eq_ok_iff, closed_eq_ok_iff]
    | some stop => simp [bind_eq_ok_iff, closed_eq_ok_iff]
  | _ => simp [mismatch_ne_ok]

mutual

/-- Reading by a shape finds exactly the value that the document holds. -/
theorem Shape.decode_eq_ok_iff : ∀ {s : Shape}, s.direct → ∀ (buffered : Bool) (room : Nat)
    {d : Document} {x : s.Carrier}, s.decode buffered room d = .ok x ↔ s.Holds d x
  | .quoted, _, _, _, _, _ | .natural _, _, _, _, _, _ | .bytes _, _, _, _, _, _ | .text, _, _, _, _, _
  | .flag, _, _, _, _, _ | .choice _ _, _, _, _, _, _ => Iff.rfl
  | .list item, h, buffered, room, d, xs => by
    have hitem := @Shape.decode_eq_ok_iff item h buffered (room - 1)
    refine decode_list.trans ?_
    simp only [Shape.Holds, mapM_eq_ok_iff, hitem]
  | .record name fields, h, buffered, room, d, x => by
    have hlisted := @Fields.inOrder_eq_ok_iff fields h buffered (room - 1)
    have hnamed := @Fields.walk_eq_ok_iff fields h buffered (room - 1)
    refine decode_record.trans ?_
    simp only [Shape.Holds, hlisted, hnamed]

theorem Fields.walk_eq_ok_iff : ∀ {fs : Fields}, fs.direct → ∀ (buffered : Bool) (room : Nat)
    {members : Members} {x : fs.Carrier},
    (walk (fs.put buffered room) fs.none members >>= fs.finish) = .ok x ↔ fs.Named members x
  | .nil, _, _, _, members, () => by
    refine bind_eq_ok_iff.trans ?_
    change (∃ _, walk (fun _ _ _ => .ok none) () members = .ok _ ∧ _) ↔ Passable members
    simp [walk_nothing, Fields.finish]
  | .required name shape rest, h, buffered, room, members, (x, xs) => by
    obtain ⟨hshape, hrest⟩ := Bool.and_eq_true_iff.mp h
    have hread {d : Document} := @Shape.decode_eq_ok_iff shape hshape buffered room d
    have hothers := @Fields.walk_eq_ok_iff rest hrest buffered room (without name members) xs
    have hwalk {after} {others'} := @walk_field shape.Carrier rest.Partial name (shape.decode buffered room)
      (rest.put buffered room) ((Fields.required name shape rest).put buffered room)
      (fun _ _ _ => Fields.put_required_self) (fun _ _ _ d hne => Fields.put_required_of_ne hne d) members
      none after rest.none others'
    refine bind_eq_ok_iff.trans ?_
    rw [Fields.Named, ← hothers, bind_eq_ok_iff]
    constructor
    · rintro ⟨⟨after, others⟩, hwalked, hfinish⟩
      obtain ⟨rfl, hfinished⟩ := Fields.finish_required_eq_ok_iff.mp hfinish
      obtain ⟨hassigned, hrestWalked⟩ := hwalk.mp hwalked
      refine ⟨?_, others, hrestWalked, hfinished⟩
      rcases hassigned with ⟨_, hnone⟩ | ⟨d, y, hvalues, _, hdecode, hsome⟩
      · cases hnone
      · cases hsome
        exact ⟨d, hvalues, hread.mp hdecode⟩
    · rintro ⟨⟨d, hvalues, hholds⟩, others, hwalked, hfinished⟩
      refine ⟨(some x, others), hwalk.mpr ⟨.inr ⟨d, x, hvalues, rfl, hread.mpr hholds, rfl⟩, hwalked⟩, ?_⟩
      exact Fields.finish_required_eq_ok_iff.mpr ⟨rfl, hfinished⟩
  | .optional name shape rest, h, buffered, room, members, (x, xs) => by
    obtain ⟨hshape, hrest⟩ := Bool.and_eq_true_iff.mp h
    have hread {d : Document} {y : Option shape.Carrier} :
        orNull (shape.decode buffered room) d = .ok y ↔ OrNull shape.Holds d y :=
      orNull_eq_ok_iff (@Shape.decode_eq_ok_iff shape hshape buffered room)
    have hothers := @Fields.walk_eq_ok_iff rest hrest buffered room (without name members) xs
    have hwalk {after} {others'} := @walk_field (Option shape.Carrier) rest.Partial name
      (orNull (shape.decode buffered room))
      (rest.put buffered room) ((Fields.optional name shape rest).put buffered room)
      (fun _ _ _ => Fields.put_optional_self) (fun _ _ _ d hne => Fields.put_optional_of_ne hne d) members
      none after rest.none others'
    refine bind_eq_ok_iff.trans ?_
    rw [Fields.Named, ← hothers, bind_eq_ok_iff]
    constructor
    · rintro ⟨⟨after, others⟩, hwalked, hfinish⟩
      obtain ⟨rfl, hfinished⟩ := Fields.finish_optional_eq_ok_iff.mp hfinish
      obtain ⟨hassigned, hrestWalked⟩ := hwalk.mp hwalked
      refine ⟨?_, others, hrestWalked, hfinished⟩
      rcases hassigned with ⟨hvalues, rfl⟩ | ⟨d, y, hvalues, _, hdecode, rfl⟩
      · exact .inl ⟨hvalues, rfl⟩
      · exact .inr ⟨d, hvalues, hread.mp hdecode⟩
    · rintro ⟨⟨hvalues, rfl⟩ | ⟨d, hvalues, hholds⟩, others, hwalked, hfinished⟩
      · refine ⟨(none, others), hwalk.mpr ⟨.inl ⟨hvalues, rfl⟩, hwalked⟩, ?_⟩
        exact Fields.finish_optional_eq_ok_iff.mpr ⟨rfl, hfinished⟩
      · refine ⟨(some x, others), hwalk.mpr ⟨.inr ⟨d, x, hvalues, rfl, hread.mpr hholds, rfl⟩, hwalked⟩, ?_⟩
        exact Fields.finish_optional_eq_ok_iff.mpr ⟨rfl, hfinished⟩

theorem Fields.inOrder_eq_ok_iff : ∀ {fs : Fields}, fs.direct → ∀ (buffered : Bool) (room : Nat)
    (expected : String) (taken : Nat) {items : List Document} {x : fs.Carrier},
    fs.inOrder buffered room expected taken none items = .ok (x, []) ↔ fs.Listed items x
  | .nil, _, _, _, _, _, items, () => by
    simp [Fields.inOrder, Fields.Listed]
  | .required name shape rest, h, buffered, room, expected, taken, items, (x, xs) => by
    obtain ⟨hshape, hrest⟩ := Bool.and_eq_true_iff.mp h
    have hread {d : Document} := @Shape.decode_eq_ok_iff shape hshape buffered room d
    have hothers {left : List Document} :=
      @Fields.inOrder_eq_ok_iff rest hrest buffered room expected (taken + 1) left xs
    cases items with
    | nil => simp [Fields.inOrder, Fields.Listed, bind_eq_ok_iff]
    | cons d left =>
      simp [Fields.inOrder, Fields.Listed, bind_eq_ok_iff, hread, ← hothers, pure, Except.pure]
  | .optional name shape rest, h, buffered, room, expected, taken, items, (x, xs) => by
    obtain ⟨hshape, hrest⟩ := Bool.and_eq_true_iff.mp h
    have hread {d : Document} {y : Option shape.Carrier} :
        orNull (shape.decode buffered room) d = .ok y ↔ OrNull shape.Holds d y :=
      orNull_eq_ok_iff (@Shape.decode_eq_ok_iff shape hshape buffered room)
    have hothers {left : List Document} :=
      @Fields.inOrder_eq_ok_iff rest hrest buffered room expected (taken + 1) left xs
    cases items with
    | nil =>
      have hempty : (Fields.optional name shape rest).inOrder buffered room expected taken none [] =
          .ok ((x, xs), []) ↔ rest.inOrder buffered room expected (taken + 1) none [] = .ok (xs, []) ∧
            none = x := by
        simp [Fields.inOrder, bind_eq_ok_iff, closed_eq_ok_iff, pure, Except.pure]
      rw [hempty, hothers, and_comm, eq_comm]
      simp [Fields.Listed]
    | cons d left =>
      rw [Fields.inOrder_optional_cons]
      simp [Fields.Listed, bind_eq_ok_iff, hread, ← hothers, pure, Except.pure]

end

end BeaconApi.Wire
