import BeaconApi.Proofs.Wire.Buffered
import BeaconApi.Proofs.Wire.Holding

namespace BeaconApi

open Json (Document)

namespace Wire

section Roomy

variable {room : Nat} {members : Members} (h : Roomy room members)
include h

theorem Roomy.passable : Passable members := fun m hm => (h m hm).imp_right Document.Fits.skip

theorem Roomy.without (name : String) : Roomy room (without name members) :=
  fun m hm => h m (List.mem_filter.mp hm).1

/-- A value of an object with room has room within it. -/
theorem Roomy.fits {name : String} {value : Document} (hvalue : value ∈ valuesOf name members) :
    value.Fits room := by
  obtain ⟨m, hm, rfl⟩ := List.mem_map.mp hvalue
  exact (h m (List.mem_filter.mp hm).1).2

end Roomy

variable {name key : String} {fields : Fields} {own : Shape} {room : Nat}

/-- Keep a member for later. -/
def keep (room : Nat) (kept : Members) (key : String) (d : Document) : Decoded (Option Members) := do
  ofFault (d.buffer room)
  return some ((.ok key, d) :: kept)

/-- Members with room are all kept, the last one first. -/
theorem walk_keep {members kept : Members} (h : Roomy room members) :
    walk (keep room) kept members = .ok (members.reverse ++ kept) := by
  induction members generalizing kept with
  | nil => rfl
  | cons member members ih =>
    obtain ⟨key, d⟩ := member
    obtain ⟨⟨⟨k, rfl⟩, hfits⟩, hrest⟩ := List.forall_mem_cons.mp h
    have hkeep : keep room kept k d = .ok (some ((.ok k, d) :: kept)) := by
      rw [keep, hfits.buffer]
      rfl
    rw [walk, hkeep, List.reverse_cons, List.append_assoc]
    exact ih hrest

/-- The own field is read by itself, and the others are kept for later. -/
theorem walk_apart_iff {buffered : Bool} {members others : Members} (h : Roomy room members)
    {y : Option own.Carrier} :
    walk (apart key own buffered room) (none, []) members = .ok (y, others) ↔
      Assigned (own.decode buffered room) none (valuesOf key members) y ∧
        others = (without key members).reverse := by
  have hown (value : Option own.Carrier) (kept : Members) (d : Document) :
      apart key own buffered room (value, kept) key d =
        once key value ((own.decode buffered room d).map fun x => some (some x, kept)) := by
    rw [apart, if_pos rfl]
    cases value with
    | some _ => rfl
    | none => cases own.decode buffered room d <;> rfl
  have hother (value : Option own.Carrier) (kept : Members) (k : String) (d : Document) (hne : k ≠ key) :
      apart key own buffered room (value, kept) k d = (keep room kept k d).map (Option.map (value, ·)) := by
    rw [apart, if_neg hne, keep]
    cases d.buffer room <;> rfl
  rw [walk_field hown hother, walk_keep (h.without key), List.append_nil, Except.ok.injEq,
    eq_comm (a := others)]

/-- Decoding a merged record splits the members at `key`: one value there for `own`, and the others for
`fields`. `hown` and `hfields` exclude shapes that are buffered themselves, and `hfits` gives the room that the
buffer takes. -/
theorem decode_merged_eq_ok_iff (hown : own.direct) (hfields : fields.direct) {buffered : Bool} {d : Document}
    (hfits : d.Fits (room + 1)) {x : fields.Carrier} {y : own.Carrier} :
    (Shape.merged name fields key own).decode buffered (room + 1) d = .ok (x, y) ↔
      ∃ members, d = .object members none ∧ (∃ value, valuesOf key members = [value] ∧ own.Holds value y) ∧
        fields.Named (without key members) x := by
  cases d with
  | object members stop =>
    obtain ⟨rfl, hroomy⟩ := hfits.object
    have hrecord := @Fields.walk_eq_ok_iff fields hfields true room (without key members) x
    have hvalue {value : Document} : own.decode buffered room value = .ok y ↔ own.Holds value y :=
      Shape.decode_eq_ok_iff hown buffered room
    -- Once the own field has been set apart, the others stand in their order again.
    have hrest (z : own.Carrier) :
        (walk (fields.put true room) fields.none (without key members).reverse.reverse >>= fun read =>
          fields.finish read >>= fun x => Except.ok (x, z)) = .ok (x, y) ↔
        fields.Named (without key members) x ∧ z = y := by
      rw [← hrecord, List.reverse_reverse]
      simp [bind_eq_ok_iff, ← and_assoc]
    rw [decode_merged, bind_eq_ok_iff]
    constructor
    · rintro ⟨⟨own?, others⟩, hwalk, hread⟩
      obtain ⟨hassigned, rfl⟩ := (walk_apart_iff hroomy).mp hwalk
      rcases hassigned with ⟨-, rfl⟩ | ⟨value, z, hvalues, -, hz, rfl⟩
      · cases hread
      · obtain ⟨hnamed, rfl⟩ := (hrest z).mp hread
        exact ⟨members, rfl, ⟨value, hvalues, hvalue.mp hz⟩, hnamed⟩
    · rintro ⟨_, ⟨⟩, ⟨value, hvalues, hholds⟩, hnamed⟩
      refine ⟨(some y, (without key members).reverse), (walk_apart_iff hroomy).mpr ⟨?_, rfl⟩, ?_⟩
      · exact .inr ⟨value, y, hvalues, rfl, hvalue.mpr hholds, rfl⟩
      · exact (hrest y).mpr ⟨hnamed, rfl⟩
  | _ => simp [Shape.decode, mismatch_ne_ok]

end Wire

end BeaconApi
