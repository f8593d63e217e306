import Mathlib.Logic.Relation
import BeaconApi.Proofs.Wire.Merged
import BeaconApi.Proofs.Wire.Replaced

namespace BeaconApi

namespace Json.Document

open Wire (Members Roomy forall_mem_mid_iff)

/-- A document becomes another one when the members of one of its objects are put in another order. -/
inductive Reordered : Document → Document → Prop
  | here {members members' : Members} (h : members.Perm members') (stop : Option Break) :
    Reordered (.object members stop) (.object members' stop)
  | item {before after : List Document} {d d' : Document} (h : Reordered d d') (stop : Option Break) :
    Reordered (.list (before ++ d :: after) stop) (.list (before ++ d' :: after) stop)
  | member {before after : Members} {key : Except Fault String} {d d' : Document} (h : Reordered d d')
    (stop : Option Break) :
    Reordered (.object (before ++ (key, d) :: after) stop) (.object (before ++ (key, d') :: after) stop)

namespace Reordered

variable {d d' : Document}

theorem symm (h : Reordered d d') : Reordered d' d := by
  induction h with
  | here h stop => exact .here h.symm stop
  | item _ stop ih => exact .item ih stop
  | member _ stop ih => exact .member ih stop

/-- The order of members makes no difference to those who pass over them. -/
theorem skip_eq (h : Reordered d d') : d'.skip = d.skip := by
  cases h with
  | here _ stop | item _ stop | member _ stop => cases stop <;> rfl

theorem ne_null (h : Reordered d d') : d ≠ .null := by
  rintro rfl
  cases h

theorem null_iff (h : Reordered d d') : d = .null ↔ d' = .null :=
  ⟨fun hd => absurd hd h.ne_null, fun hd => absurd hd h.symm.ne_null⟩

end Reordered

/-- The order of members makes no difference to whether there is room. -/
theorem Reordered.fits {d d' : Document} (h : Reordered d d') {room : Nat} (hfits : d.Fits room) :
    d'.Fits room := by
  induction h generalizing room with
  | here hperm stop =>
    obtain ⟨within, hroom, hstop, hmembers⟩ := fits_object_iff.mp hfits
    exact fits_object_iff.mpr ⟨within, hroom, hstop, fun m hm => hmembers m (hperm.mem_iff.mpr hm)⟩
  | item _ stop ih =>
    obtain ⟨within, hroom, hstop, hitems⟩ := fits_list_iff.mp hfits
    obtain ⟨hitem, hothers⟩ := forall_mem_mid_iff.mp hitems
    exact fits_list_iff.mpr ⟨within, hroom, hstop, forall_mem_mid_iff.mpr ⟨ih hitem, hothers⟩⟩
  | member _ stop ih =>
    obtain ⟨within, hroom, hstop, hmembers⟩ := fits_object_iff.mp hfits
    obtain ⟨⟨hkey, hmember⟩, hothers⟩ := forall_mem_mid_iff.mp hmembers
    exact fits_object_iff.mpr ⟨within, hroom, hstop, forall_mem_mid_iff.mpr ⟨⟨hkey, ih hmember⟩, hothers⟩⟩

end Json.Document

namespace Wire

open Json (Break Document Fault)

/-- A list holds lists and records only. -/
theorem Shape.Holds.of_list {s : Shape} {items : List Document} {stop : Option Break} {x : s.Carrier}
    (h : s.Holds (.list items stop) x) :
    (∃ item, s = .list item) ∨ ∃ name fields, s = .record name fields := by
  cases s with
  | list item => exact .inl ⟨item, rfl⟩
  | record name fields => exact .inr ⟨name, fields, rfl⟩
  | quoted | natural | bytes | text | flag | choice => cases h
  | free | merged | either | tagged => exact h.elim

/-- An object holds records and names only. -/
theorem Shape.Holds.of_object {s : Shape} {members : Members} {stop : Option Break} {x : s.Carrier}
    (h : s.Holds (.object members stop) x) :
    (∃ name fields, s = .record name fields) ∨ ∃ first second, s = .choice first second := by
  cases s with
  | record name fields => exact .inl ⟨name, fields, rfl⟩
  | choice first second => exact .inr ⟨first, second, rfl⟩
  | quoted | natural | bytes | text | flag => cases h
  | list =>
    obtain ⟨_, hitems, _⟩ := h
    cases hitems
  | free | merged | either | tagged => exact h.elim

/-- The name that an object stands for is its only key. -/
theorem eq_singleton_of_decodeBranch {first second : String} {members : Members} {stop : Option Break}
    {branch : Branch} (h : decodeBranch first second (.object members stop) = .ok branch) :
    ∃ name, members = [(.ok name, .null)] := by
  cases members with
  | nil => cases stop <;> cases h
  | cons member rest =>
    obtain ⟨key, d⟩ := member
    cases key with
    | error => cases h
    | ok name =>
      obtain ⟨_, -, h⟩ := bind_eq_ok_iff.mp h
      cases d with
      | null =>
        cases rest with
        | nil => exact ⟨name, rfl⟩
        | cons => cases h
      | _ => cases h

theorem Shape.holds_record_object_iff {name : String} {fields : Fields} {members : Members}
    {stop : Option Break} {x : fields.Carrier} :
    (Shape.record name fields).Holds (.object members stop) x ↔ stop = none ∧ fields.Named members x := by
  constructor
  · rintro (⟨_, hitems, _⟩ | ⟨_, hmembers, hnamed⟩)
    · cases hitems
    · cases hmembers
      exact ⟨rfl, hnamed⟩
  · rintro ⟨rfl, hnamed⟩
    exact .inr ⟨members, rfl, hnamed⟩

theorem Shape.holds_record_list_iff {name : String} {fields : Fields} {items : List Document}
    {stop : Option Break} {x : fields.Carrier} :
    (Shape.record name fields).Holds (.list items stop) x ↔ stop = none ∧ fields.Listed items x := by
  constructor
  · rintro (⟨_, hitems, hlisted⟩ | ⟨_, hmembers, _⟩)
    · cases hitems
      exact ⟨rfl, hlisted⟩
    · cases hmembers
  · rintro ⟨rfl, hlisted⟩
    exact .inl ⟨items, rfl, hlisted⟩

theorem Shape.holds_list_iff {item : Shape} {items : List Document} {stop : Option Break}
    {xs : List item.Carrier} :
    (Shape.list item).Holds (.list items stop) xs ↔ stop = none ∧ List.Forall₂ item.Holds items xs := by
  constructor
  · rintro ⟨_, hitems, hholds⟩
    cases hitems
    exact ⟨rfl, hholds⟩
  · rintro ⟨rfl, hholds⟩
    exact ⟨items, rfl, hholds⟩

/-- An item of a list may be replaced by one that holds the same. -/
theorem forall₂_replace {α : Type} {holds : Document → α → Prop} {d d' : Document}
    (h : ∀ {x}, holds d x → holds d' x) {before after : List Document} {xs : List α}
    (hholds : List.Forall₂ holds (before ++ d :: after) xs) : List.Forall₂ holds (before ++ d' :: after) xs := by
  induction before generalizing xs with
  | nil =>
    cases hholds with
    | cons hd hrest => exact .cons (h hd) hrest
  | cons item before ih =>
    cases hholds with
    | cons hitem hrest => exact .cons hitem (ih hrest)

theorem exists_of_forall₂ {α : Type} {holds : Document → α → Prop} {d : Document} {before after : List Document}
    {xs : List α} (hholds : List.Forall₂ holds (before ++ d :: after) xs) : ∃ x, holds d x := by
  induction before generalizing xs with
  | nil =>
    cases hholds with
    | cons hd _ => exact ⟨_, hd⟩
  | cons _ _ ih =>
    cases hholds with
    | cons _ hrest => exact ih hrest

/-- A document holds the same in whatever order the members of its objects are. -/
theorem Shape.Holds.reordered {d d' : Document} (hd : d.Reordered d') {s : Shape} {x : s.Carrier}
    (h : s.Holds d x) : s.Holds d' x := by
  induction hd generalizing s with
  | here hperm stop =>
    rcases h.of_object with ⟨name, fields, rfl⟩ | ⟨first, second, rfl⟩
    · rw [holds_record_object_iff] at h ⊢
      exact ⟨h.1, Fields.named_perm hperm h.2⟩
    · obtain ⟨name, rfl⟩ := eq_singleton_of_decodeBranch h
      obtain rfl := List.perm_singleton.mp hperm.symm
      exact h
  | item hd stop ih =>
    rcases h.of_list with ⟨item, rfl⟩ | ⟨name, fields, rfl⟩
    · rw [holds_list_iff] at h ⊢
      exact ⟨h.1, forall₂_replace ih h.2⟩
    · rw [holds_record_list_iff] at h ⊢
      exact ⟨h.1, Fields.listed_replace hd.null_iff h.2 fun _ => ih⟩
  | member hd stop ih =>
    rcases h.of_object with ⟨name, fields, rfl⟩ | ⟨first, second, rfl⟩
    · rw [holds_record_object_iff] at h ⊢
      exact ⟨h.1, Fields.named_replace hd.null_iff (fun hskip => hd.skip_eq.trans hskip) (fun _ _ => ih) h.2⟩
    · obtain ⟨name, hmembers⟩ := eq_singleton_of_decodeBranch h
      obtain ⟨-, hmid⟩ | ⟨-, hmid⟩ := List.append_eq_singleton_iff.mp hmembers
      · obtain ⟨hmember, -⟩ := List.cons.inj hmid
        exact absurd (congrArg Prod.snd hmember) hd.ne_null
      · cases hmid

/-- A member of a name that no field has stands somewhere among the members. -/
inductive Fields.Extends (fs : Fields) : Members → Members → Prop
  | mk {before after : Members} {key : String} {d : Document} (h : key ∉ fs.names) :
    Extends fs (before ++ after) (before ++ (.ok key, d) :: after)

/-- The name of a field that has been given is given once more. -/
inductive Fields.Repeats (fs : Fields) : Members → Members → Prop
  | mk {before after : Members} {key : String} {d d' : Document} (h : key ∈ fs.names)
    (hmem : (.ok key, d) ∈ before ++ after) : Repeats fs (before ++ after) (before ++ (.ok key, d') :: after)

/-- The name of a required field is not given any more. -/
inductive Fields.Omits (fs : Fields) : Members → Members → Prop
  | mk {members : Members} {key : String} (h : key ∈ fs.requiredNames) : Omits fs members (without key members)

/-- A document becomes another one when the members of one of the objects that a shape reads as records are
changed. A record within another one is found by its name, or by its place if the other one is a list. -/
inductive Shape.Changed (change : Fields → Members → Members → Prop) : Shape → Document → Document → Prop
  | here {name : String} {fields : Fields} {members members' : Members} (h : change fields members members') :
    Changed change (.record name fields) (.object members none) (.object members' none)
  | item {item : Shape} {before after : List Document} {d d' : Document} (h : Changed change item d d') :
    Changed change (.list item) (.list (before ++ d :: after) none) (.list (before ++ d' :: after) none)
  | listed {name : String} {fields : Fields} {shape : Shape} {before after : List Document} {d d' : Document}
    (hshape : fields.shapeAt? before.length = some shape) (h : Changed change shape d d') :
    Changed change (.record name fields) (.list (before ++ d :: after) none) (.list (before ++ d' :: after) none)
  | named {name key : String} {fields : Fields} {shape : Shape} {before after : Members} {d d' : Document}
    (hshape : fields.shape? key = some shape) (h : Changed change shape d d') :
    Changed change (.record name fields) (.object (before ++ (.ok key, d) :: after) none)
      (.object (before ++ (.ok key, d') :: after) none)

namespace Shape.Changed

variable {change : Fields → Members → Members → Prop} {s : Shape} {d d' : Document}

/-- A change can be taken back. -/
theorem symm (h : s.Changed change d d') :
    s.Changed (fun fields members members' => change fields members' members) d' d := by
  induction h with
  | here hmembers => exact .here hmembers
  | item _ ih => exact .item ih
  | listed hshape _ ih => exact .listed hshape ih
  | named hshape _ ih => exact .named hshape ih

theorem ne_null (h : s.Changed change d d') : d' ≠ .null := by
  rintro rfl
  cases h

theorem null_iff (h : s.Changed change d d') : d = .null ↔ d' = .null :=
  ⟨fun hd => absurd hd h.symm.ne_null, fun hd' => absurd hd' h.ne_null⟩

theorem skip_eq_ok (h : s.Changed change d d') : d'.skip = .ok () := by
  cases h <;> rfl

/-- A document has had room if it has room after a change for which members have. -/
theorem fits_of_fits
    (hchange : ∀ {fields members members' room}, change fields members members' → Roomy room members' →
      Roomy room members)
    (h : s.Changed change d d') {room : Nat} (hfits : d'.Fits room) : d.Fits room := by
  induction h generalizing room with
  | here hmembers =>
    obtain ⟨within, hroom, -, hroomy⟩ := Document.fits_object_iff.mp hfits
    exact Document.fits_object_iff.mpr ⟨within, hroom, rfl, hchange hmembers hroomy⟩
  | item _ ih | listed _ _ ih =>
    obtain ⟨within, hroom, -, hitems⟩ := Document.fits_list_iff.mp hfits
    obtain ⟨hitem, hothers⟩ := forall_mem_mid_iff.mp hitems
    exact Document.fits_list_iff.mpr ⟨within, hroom, rfl, forall_mem_mid_iff.mpr ⟨ih hitem, hothers⟩⟩
  | named _ _ ih =>
    obtain ⟨within, hroom, -, hroomy⟩ := Document.fits_object_iff.mp hfits
    obtain ⟨⟨hkey, hmember⟩, hothers⟩ := forall_mem_mid_iff.mp hroomy
    exact Document.fits_object_iff.mpr
      ⟨within, hroom, rfl, forall_mem_mid_iff.mpr ⟨⟨hkey, ih hmember⟩, hothers⟩⟩

/-- A document holds what it has held after a change for which records do. -/
theorem holds_of_holds
    (hchange : ∀ {fields : Fields} {members members' : Members} {room : Nat} {x : fields.Carrier},
      change fields members members' → Roomy room members' → fields.Named members x → fields.Named members' x)
    (h : s.Changed change d d') {room : Nat} (hfits : d'.Fits room) {x : s.Carrier} (hholds : s.Holds d x) :
    s.Holds d' x := by
  induction h generalizing room with
  | here hmembers =>
    obtain ⟨within, -, -, hroomy⟩ := Document.fits_object_iff.mp hfits
    rw [holds_record_object_iff] at hholds ⊢
    exact ⟨rfl, hchange hmembers hroomy hholds.2⟩
  | item _ ih =>
    obtain ⟨within, -, -, hitems⟩ := Document.fits_list_iff.mp hfits
    rw [holds_list_iff] at hholds ⊢
    exact ⟨rfl, forall₂_replace (ih (forall_mem_mid_iff.mp hitems).1) hholds.2⟩
  | listed hshape hd ih =>
    obtain ⟨within, -, -, hitems⟩ := Document.fits_list_iff.mp hfits
    rw [holds_record_list_iff] at hholds ⊢
    refine ⟨rfl, Fields.listed_replace hd.null_iff hholds.2 fun hfound _ => ?_⟩
    obtain rfl := Option.some.inj (hshape.symm.trans hfound)
    exact ih (forall_mem_mid_iff.mp hitems).1
  | named hshape hd ih =>
    obtain ⟨within, -, -, hroomy⟩ := Document.fits_object_iff.mp hfits
    rw [holds_record_object_iff] at hholds ⊢
    refine ⟨rfl, Fields.named_replace hd.null_iff (fun _ => hd.skip_eq_ok) (fun hkey hfound _ => ?_) hholds.2⟩
    cases hkey
    obtain rfl := Option.some.inj (hshape.symm.trans hfound)
    exact ih (forall_mem_mid_iff.mp hroomy).1.2

/-- A document holds nothing after a change for which records do not. -/
theorem not_holds
    (hchange : ∀ {fields : Fields} {members members' : Members} {x : fields.Carrier},
      change fields members members' → ¬ fields.Named members' x)
    (h : s.Changed change d d') {x : s.Carrier} : ¬ s.Holds d' x := by
  induction h with
  | here hmembers =>
    rw [holds_record_object_iff]
    exact fun hholds => hchange hmembers hholds.2
  | item _ ih =>
    rw [holds_list_iff]
    rintro ⟨-, hholds⟩
    obtain ⟨y, hy⟩ := exists_of_forall₂ hholds
    exact ih hy
  | listed hshape hd ih =>
    rw [holds_record_list_iff]
    rintro ⟨-, hlisted⟩
    obtain ⟨y, hy⟩ := hlisted.exists_holds hshape hd.ne_null
    exact ih hy
  | named hshape hd ih =>
    rw [holds_record_object_iff]
    rintro ⟨-, hnamed⟩
    obtain ⟨y, hy⟩ := hnamed.exists_holds hshape (valuesOf_mid_self ▸ List.mem_append_right _ List.mem_cons_self)
      hd.ne_null
    exact ih hy

end Shape.Changed

namespace Shape

/-- A document becomes another one when the members of one of its objects are put in another order, or when one
of the objects that a shape reads as records is given a member of a name that no field has. -/
def Edited (s : Shape) (d d' : Document) : Prop := d.Reordered d' ∨ s.Changed Fields.Extends d d'

variable {s : Shape} {d d' : Document} {room : Nat}

theorem Edited.fits_of_fits (h : s.Edited d d') (hfits : d'.Fits room) : d.Fits room := by
  rcases h with h | h
  · exact h.symm.fits hfits
  · refine h.fits_of_fits (fun hextends hroomy => ?_) hfits
    cases hextends
    exact (forall_mem_mid_iff.mp hroomy).2

/-- A document holds the same before and after an edit. -/
theorem Edited.holds_iff (h : s.Edited d d') (hfits : d'.Fits room) {x : s.Carrier} :
    s.Holds d x ↔ s.Holds d' x := by
  have hfits' := h.fits_of_fits hfits
  rcases h with h | h
  · exact ⟨.reordered h, .reordered h.symm⟩
  · constructor
    · refine h.holds_of_holds (fun hextends hroomy hnamed => ?_) hfits
      cases hextends with
      | mk hkey =>
        obtain ⟨⟨-, hmember⟩, -⟩ := forall_mem_mid_iff.mp hroomy
        exact (Fields.named_insert_iff hkey).mpr ⟨hmember.skip, hnamed⟩
    · refine h.symm.holds_of_holds (fun hextends _ hnamed => ?_) hfits'
      cases hextends with
      | mk hkey => exact ((Fields.named_insert_iff hkey).mp hnamed).2

/-- A document holds the same in any order of the members of its objects. -/
theorem holds_iff_of_reordered (h : Relation.ReflTransGen Document.Reordered d d') {x : s.Carrier} :
    s.Holds d x ↔ s.Holds d' x := by
  induction h with
  | refl => exact Iff.rfl
  | tail _ hlast ih => exact ih.trans ⟨.reordered hlast, .reordered hlast.symm⟩

/-- A document holds the same before and after any edits. -/
theorem holds_iff_of_edits (h : Relation.ReflTransGen s.Edited d d') (hfits : d'.Fits room) {x : s.Carrier} :
    s.Holds d x ↔ s.Holds d' x := by
  induction h with
  | refl => exact Iff.rfl
  | tail _ hlast ih => exact (ih (hlast.fits_of_fits hfits)).trans (hlast.holds_iff hfits)

/-- A document holds nothing once the name of a field is given twice. -/
theorem not_holds_of_repeats (h : s.Changed Fields.Repeats d d') {x : s.Carrier} : ¬ s.Holds d' x := by
  refine h.not_holds fun hrepeats hnamed => ?_
  cases hrepeats with
  | mk hkey hmem =>
    have hlength := hnamed.length_valuesOf_le hkey
    have hpos := List.length_pos_of_mem (mem_valuesOf hmem)
    rw [valuesOf_mid_self, List.length_append, List.length_cons] at hlength
    rw [valuesOf_append, List.length_append] at hpos
    omega

/-- A document holds nothing once the name of a required field is not given. -/
theorem not_holds_of_omits (h : s.Changed Fields.Omits d d') {x : s.Carrier} : ¬ s.Holds d' x := by
  refine h.not_holds fun homits hnamed => ?_
  cases homits with
  | mk hkey => exact hnamed.valuesOf_ne_nil hkey valuesOf_without_self

end Shape

end Wire

end BeaconApi
