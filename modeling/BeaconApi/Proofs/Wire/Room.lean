import BeaconApi.Proofs.Except
import BeaconApi.Wire.Decode

namespace BeaconApi

namespace Json

/-- Nothing keeps a document from being read free-form with the given room. -/
def Document.Fits (room : Nat) (d : Document) : Prop := ∃ j, d.toJson room = .ok j

end Json

/-- All members have names and room. -/
def Wire.Roomy (room : Nat) (members : Members) : Prop :=
  ∀ m ∈ members, (∃ key, m.1 = .ok key) ∧ m.2.Fits room

namespace Json.Document

open Wire (Members Roomy)

variable {room : Nat} {d : Document}

theorem buffer_eq_ok_iff {u : Unit} : d.buffer room = .ok u ↔ d.Fits room := by
  rw [buffer, map_eq_ok_iff]
  simp [Fits]

theorem Fits.buffer (h : d.Fits room) : d.buffer room = .ok () := buffer_eq_ok_iff.mpr h

theorem exists_itemsToJson_iff {items : List Document} (done : List Json) :
    (∃ values, itemsToJson room done items = .ok values) ↔ ∀ d ∈ items, d.Fits room := by
  induction items generalizing done with
  | nil => exact iff_of_true ⟨_, rfl⟩ nofun
  | cons d items ih =>
    rw [List.forall_mem_cons, itemsToJson, Fits]
    cases d.toJson room with
    | error fault => simp
    | ok value =>
      rw [ih]
      exact (and_iff_right ⟨value, rfl⟩).symm

theorem exists_membersToJson_iff {members : Members} (done : List (String × Json)) :
    (∃ values, membersToJson room done members = .ok values) ↔ Roomy room members := by
  induction members generalizing done with
  | nil => exact iff_of_true ⟨_, rfl⟩ nofun
  | cons member members ih =>
    obtain ⟨key, d⟩ := member
    rw [Roomy, List.forall_mem_cons, Fits]
    cases key with
    | error fault => simp [membersToJson]
    | ok key =>
      rw [membersToJson]
      cases d.toJson room with
      | error fault => simp
      | ok value =>
        rw [ih]
        exact (and_iff_right ⟨⟨key, rfl⟩, value, rfl⟩).symm

/-- A list has room exactly if it is whole and its items have room within it. -/
theorem fits_list_iff {items : List Document} {stop : Option Break} :
    (list items stop).Fits room ↔ ∃ within, room = within + 1 ∧ stop = none ∧ ∀ d ∈ items, d.Fits within := by
  cases room with
  | zero => simp [Fits, toJson]
  | succ within =>
    simp only [← exists_itemsToJson_iff []]
    rw [Fits, toJson, if_neg (Nat.succ_ne_zero within), Nat.add_sub_cancel]
    cases hitems : itemsToJson within [] items <;> cases stop <;> simp [close, hitems]

/-- An object has room exactly if it is whole and its members have room within it. -/
theorem fits_object_iff {members : Members} {stop : Option Break} :
    (object members stop).Fits room ↔ ∃ within, room = within + 1 ∧ stop = none ∧ Roomy within members := by
  cases room with
  | zero => simp [Fits, toJson]
  | succ within =>
    simp only [← exists_membersToJson_iff []]
    rw [Fits, toJson, if_neg (Nat.succ_ne_zero within), Nat.add_sub_cancel]
    cases hmembers : membersToJson within [] members <;> cases stop <;> simp [close, hmembers]

/-- An object of two members has room if both of them have room within it. -/
theorem fits_pair_iff {key key' : String} {d' : Document} :
    (object [(.ok key, d), (.ok key', d')] none).Fits (room + 1) ↔ d.Fits room ∧ d'.Fits room := by
  simp [fits_object_iff, Roomy]

theorem Fits.list {items : List Document} {stop : Option Break} (h : (list items stop).Fits (room + 1)) :
    stop = none ∧ ∀ d ∈ items, d.Fits room := by
  obtain ⟨_, ⟨⟩, hparts⟩ := fits_list_iff.mp h
  exact hparts

theorem Fits.object {members : Members} {stop : Option Break} (h : (object members stop).Fits (room + 1)) :
    stop = none ∧ Roomy room members := by
  obtain ⟨_, ⟨⟩, hparts⟩ := fits_object_iff.mp h
  exact hparts

/-- What can be read free-form does not break off, so it can be passed over as well. -/
theorem Fits.skip (h : d.Fits room) : d.skip = .ok () := by
  cases d with
  | cutString | absent | malformed => obtain ⟨_, ⟨⟩⟩ := h
  | null | bool | number | outOfRange | string | unreadable => rfl
  | list =>
    obtain ⟨_, -, rfl, -⟩ := fits_list_iff.mp h
    rfl
  | object =>
    obtain ⟨_, -, rfl, -⟩ := fits_object_iff.mp h
    rfl

end Json.Document

end BeaconApi
