import BeaconApi.Proofs.Text.Digits
import BeaconApi.Proofs.Wire.Outline

namespace BeaconApi.Wire

open Json (Document outlineItems outlineMembers)

mutual

/-- Whether a shape can read each value that it writes: its names are distinct, it has no free-form
parts, and it leaves no choice between two shapes. -/
def Shape.regular : Shape → Bool
  | .quoted | .natural _ | .bytes _ | .text | .flag => true
  | .choice first second => first ≠ second
  | .list item => item.regular
  | .record _ fields => fields.regular
  | .merged _ fields key own => fields.regular && own.regular && key ∉ fields.names
  | .free | .either _ _ _ | .tagged _ _ _ _ _ _ _ => false

/-- Whether fields have distinct names and regular shapes. -/
def Fields.regular : Fields → Bool
  | .nil => true
  | .required name shape rest | .optional name shape rest =>
    shape.regular && rest.regular && name ∉ rest.names

end

mutual

theorem Shape.fixed_of_regular : ∀ {s : Shape}, s.regular → s.fixed
  | .quoted, _ | .natural _, _ | .bytes _, _ | .text, _ | .flag, _ | .choice _ _, _ => rfl
  | .list item, h => Shape.fixed_of_regular (s := item) h
  | .record _ fields, h => @Fields.fixed_of_regular fields h
  | .merged _ fields _ own, h => by
    simp only [Shape.regular, Bool.and_eq_true] at h
    simp [Shape.fixed, Fields.fixed_of_regular h.1.1, Shape.fixed_of_regular h.1.2]

theorem Fields.fixed_of_regular : ∀ {fs : Fields}, fs.regular → fs.fixed
  | .nil, _ => rfl
  | .required _ shape rest, h | .optional _ shape rest, h => by
    simp only [Fields.regular, Bool.and_eq_true] at h
    simp [Fields.fixed, Shape.fixed_of_regular h.1.1, Fields.fixed_of_regular h.1.2]

end

/-- Nothing regular is written as null. -/
theorem Shape.outline_encode_ne_null {s : Shape} (h : s.regular) (x : s.Carrier) :
    (s.encode x).outline ≠ .null := by
  intro hnull
  cases s with
  | free | either | tagged => cases h
  | quoted | natural | bytes | text | flag | list | record | merged | choice => cases hnull

/-- The members that are written for fields have their names. -/
theorem Fields.mem_names_of_mem_members : ∀ {fs : Fields} (x : fs.Carrier),
    ∀ m ∈ fs.members x, m.1 ∈ fs.names
  | .nil, _, _, hm => absurd hm List.not_mem_nil
  | .required name shape rest, (x, xs), m, hm => by
    rcases List.mem_cons.mp hm with rfl | hm
    · exact List.mem_cons_self
    · exact List.mem_cons_of_mem _ (Fields.mem_names_of_mem_members xs m hm)
  | .optional name shape rest, (some x, xs), m, hm => by
    rcases List.mem_cons.mp hm with rfl | hm
    · exact List.mem_cons_self
    · exact List.mem_cons_of_mem _ (Fields.mem_names_of_mem_members xs m hm)
  | .optional name shape rest, (.none, xs), m, hm =>
    List.mem_cons_of_mem _ (Fields.mem_names_of_mem_members xs m hm)

/-- So a name that no field has is none of theirs. -/
theorem Fields.ne_of_mem_members {fs : Fields} {name : String} (h : name ∉ fs.names) (x : fs.Carrier) :
    ∀ m ∈ fs.members x, m.1 ≠ name := by
  intro m hm heq
  exact h (heq ▸ Fields.mem_names_of_mem_members x m hm)

/-- The fields of a record, all of them read. -/
def Fields.filled : (fs : Fields) → fs.Carrier → fs.Partial
  | .nil, () => ()
  | .required _ _ rest, (x, xs) => (some x, rest.filled xs)
  | .optional _ _ rest, (some x, xs) => (some (some x), rest.filled xs)
  | .optional _ _ rest, (.none, xs) => (Option.none, rest.filled xs)

theorem Fields.finish_filled : ∀ {fs : Fields} (x : fs.Carrier), fs.finish (fs.filled x) = .ok x
  | .nil, () => rfl
  | .required _ _ rest, (x, xs) => by
    rw [filled, finish]
    change (rest.finish (rest.filled xs)).map (x, ·) = _
    rw [Fields.finish_filled xs]
    rfl
  | .optional _ _ rest, (some x, xs) => by
    rw [filled, finish, Fields.finish_filled xs]
    rfl
  | .optional _ _ rest, (.none, xs) => by
    rw [filled, finish, Fields.finish_filled xs]
    rfl

/-- If a walk can be followed in another state, it ends there with the same outcome. -/
theorem walk_map {σ τ : Type} {take : σ → String → Document → Decoded (Option σ)}
    {take' : τ → String → Document → Decoded (Option τ)} {f : σ → τ} {members : Members}
    (h : ∀ state key d, (.ok key, d) ∈ members →
      take' (f state) key d = (take state key d).map (Option.map f)) (state : σ) :
    walk take' (f state) members = (walk take state members).map f := by
  induction members generalizing state with
  | nil => rfl
  | cons member members ih =>
    have ih := ih fun state key d hmem => h state key d (List.mem_cons_of_mem _ hmem)
    obtain ⟨key, d⟩ := member
    cases key with
    | error fault => rfl
    | ok key =>
      rw [walk, walk, h state key d List.mem_cons_self]
      generalize d.skip = skipped
      cases take state key d with
      | error e => rfl
      | ok next =>
        cases next with
        | some next => exact ih next
        | none =>
          cases skipped with
          | ok _ => exact ih state
          | error fault => rfl

/-- As far as the members have other names than a given one, it is enough that a walk can be
followed at such names. -/
theorem walk_others {σ τ : Type} {take : σ → String → Document → Decoded (Option σ)}
    {take' : τ → String → Document → Decoded (Option τ)} {f : σ → τ} {name : String}
    {members : List (String × Json)} (h : ∀ m ∈ members, m.1 ≠ name)
    (htake : ∀ state key d, key ≠ name →
      take' (f state) key d = (take state key d).map (Option.map f)) (state : σ) :
    walk take' (f state) (outlineMembers members) =
      (walk take state (outlineMembers members)).map f := by
  refine walk_map (fun state key d hmem => htake state key d ?_) state
  rw [Json.outlineMembers_eq_map] at hmem
  obtain ⟨m, hm, heq⟩ := List.mem_map.mp hmem
  cases heq
  exact h m hm

section Others

variable {name : String} {shape : Shape} {rest : Fields} {buffered : Bool} {room : Nat}
  {others : rest.Partial}

theorem Fields.put_required_of_ne {value : Option shape.Carrier} {key : String} (h : key ≠ name)
    (d : Document) :
    (Fields.required name shape rest).put buffered room (value, others) key d =
      (rest.put buffered room others key d).map (Option.map (value, ·)) := by
  rw [Fields.put.eq_def]
  exact if_neg h

theorem Fields.put_optional_of_ne {value : Option (Option shape.Carrier)} {key : String} (h : key ≠ name)
    (d : Document) :
    (Fields.optional name shape rest).put buffered room (value, others) key d =
      (rest.put buffered room others key d).map (Option.map (value, ·)) := by
  rw [Fields.put.eq_def]
  exact if_neg h

variable {members : List (String × Json)} (h : ∀ m ∈ members, m.1 ≠ name)
include h

/-- Members that belong to other fields are read as if a field were not there. -/
theorem Fields.walk_required (value : Option shape.Carrier) :
    walk ((Fields.required name shape rest).put buffered room) (value, others) (outlineMembers members) =
      (walk (rest.put buffered room) others (outlineMembers members)).map (value, ·) :=
  walk_others (f := fun others => (value, others)) h
    (fun _ _ d hne => Fields.put_required_of_ne hne d) others

theorem Fields.walk_optional (value : Option (Option shape.Carrier)) :
    walk ((Fields.optional name shape rest).put buffered room) (value, others) (outlineMembers members) =
      (walk (rest.put buffered room) others (outlineMembers members)).map (value, ·) :=
  walk_others (f := fun others => (value, others)) h
    (fun _ _ d hne => Fields.put_optional_of_ne hne d) others

end Others

/-- How the members of a merged record are set apart: its own field is read, and the others are
kept. -/
def apart (key : String) (own : Shape) (buffered : Bool) (room : Nat)
    (state : Option own.Carrier × Members) (k : String) (d : Document) :
    Decoded (Option (Option own.Carrier × Members)) :=
  if k = key then
    match state.1 with
    | some _ => .error (.duplicateField key)
    | none => do
      let y ← own.decode buffered room d
      return some (some y, state.2)
  else do
    ofFault (d.buffer room)
    return some (state.1, (.ok k, d) :: state.2)

theorem decode_merged (name : String) (fields : Fields) (key : String) (own : Shape) (buffered : Bool)
    (room : Nat) (members : Members) (stop : Option Json.Break) :
    (Shape.merged name fields key own).decode buffered (room + 1) (.object members stop) = (do
      let (own?, others) ← walk (apart key own buffered room) (none, []) members
      closed stop
      match own? with
      | none => .error (.missingField key)
      | some y => do
        let read ← walk (fields.put true room) fields.none others.reverse
        let x ← fields.finish read
        return (x, y)) :=
  rfl

/-- Nothing keeps the members of fields from being set apart from a field with a name of its own. -/
theorem Fields.members_apart (fs : Fields) {key : String} {room : Nat} (hfixed : fs.fixed)
    (hroom : fs.depth ≤ room) (hkey : key ∉ fs.names) (x : fs.Carrier) :
    ∀ m ∈ fs.members x, m.1 ≠ key ∧ m.2.outline.Fits room := fun m hm =>
  ⟨Fields.ne_of_mem_members hkey x m hm, Fields.members_fit hfixed hroom x m hm⟩

/-- The members of other fields are kept in their order. -/
theorem walk_apart {key : String} {own : Shape} {buffered : Bool} {room : Nat}
    {members : List (String × Json)} (h : ∀ m ∈ members, m.1 ≠ key ∧ m.2.outline.Fits room)
    (own? : Option own.Carrier) (kept tail : Members) :
    walk (apart key own buffered room) (own?, kept) (outlineMembers members ++ tail) =
      walk (apart key own buffered room) (own?, (outlineMembers members).reverse ++ kept) tail := by
  induction members generalizing kept with
  | nil => rfl
  | cons member members ih =>
    obtain ⟨k, value⟩ := member
    obtain ⟨hne, hfits⟩ := h (k, value) List.mem_cons_self
    rw [outlineMembers, List.cons_append, walk, apart, if_neg hne, hfits.buffer]
    change walk _ (own?, (.ok k, value.outline) :: kept) _ = _
    rw [ih (fun m hm => h m (List.mem_cons_of_mem _ hm)), List.reverse_cons, List.append_assoc]
    rfl

mutual

/-- What is written for a value of a regular shape is read as the value. -/
theorem Shape.decode_encode : ∀ {s : Shape} {room : Nat}, s.regular → s.depth ≤ room →
    ∀ (buffered : Bool) (x : s.Carrier), s.decode buffered room (s.encode x).outline = .ok x
  | .quoted, _, _, _, _, n => by
    change (readUInt64 (toString n.toNat)).mapError _ = _
    rw [readUInt64_toString]
    rfl
  | .natural _, _, _, _, _, _ => rfl
  | .bytes length, _, _, _, _, v => by
    change (Hex.readBytes length (hexText v.toList)).mapError _ = _
    rw [Hex.readBytes_hexText]
    rfl
  | .text, _, _, _, _, _ => rfl
  | .flag, _, _, _, _, _ => rfl
  | .choice first second, _, h, _, _, b => by
    have hne : first ≠ second := by simpa [Shape.regular] using h
    change branchOf first second (b.choose first second) = _
    cases b with
    | first => exact if_pos rfl
    | second => exact (if_neg hne.symm).trans (if_pos rfl)
  | .list item, room + 1, h, hroom, buffered, xs => by
    change ((outlineItems (xs.map item.encode)).mapM (item.decode buffered room) >>= _) = _
    have hitems : (outlineItems (xs.map item.encode)).mapM (item.decode buffered room) = .ok xs := by
      rw [Json.outlineItems_eq_map]
      induction xs with
      | nil => rfl
      | cons x xs ih =>
        rw [List.map_cons, List.map_cons, List.mapM_cons, ih,
          Shape.decode_encode (s := item) h (Nat.le_of_succ_le_succ hroom) buffered x]
        rfl
    rw [hitems]
    rfl
  | .record _ fields, room + 1, h, hroom, buffered, x => by
    change (walk (fields.put buffered room) fields.none (outlineMembers (fields.members x)) >>= _) = _
    rw [Fields.walk_members h (Nat.le_of_succ_le_succ hroom) buffered x]
    exact Fields.finish_filled x
  | .merged _ fields key own, room + 1, h, hroom, buffered, (x, y) => by
    simp only [Shape.regular, Bool.and_eq_true, decide_eq_true_eq] at h
    obtain ⟨⟨hfields, hown⟩, hkey⟩ := h
    obtain ⟨hfieldsRoom, hownRoom⟩ := Nat.max_le.mp (Nat.le_of_succ_le_succ hroom)
    -- The own field stands behind all the others, so they have been set apart when it is read.
    have hothers := fields.members_apart (Fields.fixed_of_regular hfields) hfieldsRoom hkey x
    have htake : apart key own buffered room (none, (outlineMembers (fields.members x)).reverse ++ []) key
        (own.encode y).outline =
        .ok (some (some y, (outlineMembers (fields.members x)).reverse ++ [])) := by
      rw [apart, if_pos rfl, Shape.decode_encode hown hownRoom buffered y]
      rfl
    rw [Shape.encode, Json.outline, decode_merged, Json.outlineMembers_append, walk_apart hothers,
      outlineMembers, walk, htake]
    change (walk (fields.put true room) fields.none
      ((outlineMembers (fields.members x)).reverse ++ []).reverse >>= _) = _
    rw [List.append_nil, List.reverse_reverse, Fields.walk_members hfields hfieldsRoom true x]
    change (fields.finish (fields.filled x) >>= _) = _
    rw [Fields.finish_filled]
    rfl

theorem Fields.walk_members : ∀ {fs : Fields} {room : Nat}, fs.regular → fs.depth ≤ room →
    ∀ (buffered : Bool) (x : fs.Carrier),
      walk (fs.put buffered room) fs.none (outlineMembers (fs.members x)) = .ok (fs.filled x)
  | .nil, _, _, _, _, _ => rfl
  | .required name shape rest, room, h, hroom, buffered, (x, xs) => by
    simp only [Fields.regular, Bool.and_eq_true, decide_eq_true_eq] at h
    obtain ⟨⟨hshape, hrest⟩, hname⟩ := h
    obtain ⟨hshapeRoom, hrestRoom⟩ := Nat.max_le.mp hroom
    have hothers := Fields.ne_of_mem_members hname xs
    rw [Fields.members, outlineMembers, walk, Fields.none, Fields.put, if_pos rfl,
      Shape.decode_encode hshape hshapeRoom buffered x]
    change walk _ (some x, rest.none) _ = _
    rw [Fields.walk_required hothers, Fields.walk_members hrest hrestRoom buffered xs]
    rfl
  | .optional name shape rest, room, h, hroom, buffered, (some x, xs) => by
    simp only [Fields.regular, Bool.and_eq_true, decide_eq_true_eq] at h
    obtain ⟨⟨hshape, hrest⟩, hname⟩ := h
    obtain ⟨hshapeRoom, hrestRoom⟩ := Nat.max_le.mp hroom
    have hothers := Fields.ne_of_mem_members hname xs
    -- What is written is not null, which would be read as a field without a value.
    have hput : (Fields.optional name shape rest).put buffered room (Option.none, rest.none) name
        (shape.encode x).outline = .ok (some (some (some x), rest.none)) := by
      rw [Fields.put, if_pos rfl]
      · rw [Shape.decode_encode hshape hshapeRoom buffered x]
        rfl
      · exact Shape.outline_encode_ne_null hshape x
    rw [Fields.members, outlineMembers, walk, Fields.none, hput]
    change walk _ (some (some x), rest.none) _ = _
    rw [Fields.walk_optional hothers, Fields.walk_members hrest hrestRoom buffered xs]
    rfl
  | .optional name shape rest, room, h, hroom, buffered, (.none, xs) => by
    simp only [Fields.regular, Bool.and_eq_true, decide_eq_true_eq] at h
    obtain ⟨⟨_, hrest⟩, hname⟩ := h
    have hothers := Fields.ne_of_mem_members hname xs
    rw [Fields.members, Fields.none, Fields.walk_optional hothers,
      Fields.walk_members hrest (Nat.max_le.mp hroom).2 buffered xs]
    rfl

end

/-- The fields of a merged record without its own field are no merged record. -/
theorem decode_merged_of_missing {name key : String} {fields : Fields} {own : Shape} {room : Nat}
    (hfields : fields.fixed) (hroom : fields.depth ≤ room) (hkey : key ∉ fields.names) (buffered : Bool)
    (x : fields.Carrier) :
    (Shape.merged name fields key own).decode buffered (room + 1)
      (.object (outlineMembers (fields.members x)) none) = .error (.missingField key) := by
  rw [decode_merged, ← List.append_nil (outlineMembers _),
    walk_apart (fields.members_apart hfields hroom hkey x)]
  rfl

end BeaconApi.Wire

namespace BeaconApi.Payload

open Wire
open Json (Document)

variable {α : Type} [Payload α]

/-- A payload whose outline is read by its shape is read from its text. -/
theorem decode_encode_of_outline (hfixed : (shape α).fixed) {x : α}
    (h : (shape α).decode false Document.maxDepth (toJson x).outline = .ok (toCarrier x)) :
    decode (encode x).toUTF8 = .ok x := by
  have hbytes : Document.ofBytes (encode x).toUTF8 = ((toJson x).outline, false) :=
    Json.ofBytes_render (Shape.encode_plain hfixed (toCarrier x))
  have hdocument : ofDocument (toJson x).outline = .ok x := by
    rw [ofDocument, h]
    exact congrArg Except.ok (ofCarrier_toCarrier x)
  rw [decode, hbytes]
  dsimp only
  rw [hdocument]
  rfl

/-- A payload of a regular shape is read from its text. -/
theorem decode_encode (hregular : (shape α).regular) (hdepth : (shape α).depth ≤ Document.maxDepth)
    (x : α) : decode (encode x).toUTF8 = .ok x :=
  decode_encode_of_outline (Shape.fixed_of_regular hregular)
    (Shape.decode_encode hregular hdepth false (toCarrier x))

end BeaconApi.Payload
