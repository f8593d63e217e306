import BeaconApi.Proofs.Except
import BeaconApi.Proofs.Wire.RoundTrip

namespace BeaconApi

namespace Wire

open Json (Document)

theorem ofFault_eq_ok_iff {α : Type} {result : Except Json.Fault α} {x : α} :
    ofFault result = .ok x ↔ result = .ok x := by
  cases result <;> simp [ofFault]

section Either

variable {name : String} {first second : Shape} {room : Nat}

/-- One of two shapes is read by the first one, or by the second one where the first one cannot be. -/
theorem decode_either_eq_ok_iff {buffered : Bool} {d : Document} {z : first.Carrier ⊕ second.Carrier} :
    (Shape.either name first second).decode buffered room d = .ok z ↔ d.Fits room ∧
      ((∃ x, first.decode true room d = .ok x ∧ z = .inl x) ∨
        ∃ y, (∀ x, first.decode true room d ≠ .ok x) ∧ second.decode true room d = .ok y ∧ z = .inr y) := by
  rw [Shape.decode, bind_eq_ok_iff]
  simp only [ofFault_eq_ok_iff, Document.buffer_eq_ok_iff, exists_and_left, exists_const]
  refine and_congr_right fun _ => ?_
  cases hfirst : first.decode true room d with
  | ok x => simp [eq_comm, pure, Except.pure]
  | error e =>
    cases hsecond : second.decode true room d with
    | ok y => simp [eq_comm, pure, Except.pure]
    | error e' => simp

theorem decode_either_inl (h : first.regular) (hroom : first.depth ≤ room) (buffered : Bool)
    (x : first.Carrier) :
    (Shape.either name first second).decode buffered room (first.encode x).outline = .ok (.inl x) :=
  decode_either_eq_ok_iff.mpr ⟨Shape.encode_fits (Shape.fixed_of_regular h) hroom x,
    .inl ⟨x, Shape.decode_encode h hroom true x, rfl⟩⟩

/-- The second of two shapes is read where the first cannot be. -/
theorem decode_either_inr (h : second.regular) (hroom : second.depth ≤ room) (buffered : Bool)
    {y : second.Carrier} {e : DecodeError}
    (hfirst : first.decode true room (second.encode y).outline = .error e) :
    (Shape.either name first second).decode buffered room (second.encode y).outline = .ok (.inr y) := by
  refine decode_either_eq_ok_iff.mpr ⟨Shape.encode_fits (Shape.fixed_of_regular h) hroom y,
    .inr ⟨y, fun x hx => ?_, Shape.decode_encode h hroom true y, rfl⟩⟩
  cases hfirst.symm.trans hx

end Either

/-- What is read by the one of two shapes that a branch stands for. -/
theorem choose_eq_ok_iff {α β : Type} {branch : Branch} {first : Decoded α} {second : Decoded β} {z : α ⊕ β} :
    branch.choose (first.map .inl) (second.map .inr) = .ok z ↔
      (branch = .first ∧ ∃ x, first = .ok x ∧ .inl x = z) ∨
        (branch = .second ∧ ∃ y, second = .ok y ∧ .inr y = z) := by
  cases branch <;> simp [Branch.choose, map_eq_ok_iff]

section Tagged

variable {name tagKey contentKey firstTag secondTag : String} {first second : Shape} {room : Nat}

/-- A tag that stands before its content says by which shape the content is read. -/
theorem decode_tag_before_content (hkeys : tagKey ≠ contentKey) {tag : String} {branch : Branch}
    (htag : branchOf firstTag secondTag tag = .ok branch) (buffered : Bool) (content : Document) :
    (Shape.tagged name tagKey contentKey firstTag secondTag first second).decode buffered (room + 1)
        (.object [(.ok tagKey, .string tag), (.ok contentKey, content)] none) =
      branch.choose ((first.decode buffered room content).map .inl)
        ((second.decode buffered room content).map .inr) := by
  rw [Shape.decode]
  simp only [walk, decodeBranch, htag, if_pos, if_neg hkeys.symm, Nat.add_sub_cancel, pure, Except.pure, bind,
    Except.bind]
  cases branch with
  | first => cases first.decode buffered room content <;> rfl
  | second => cases second.decode buffered room content <;> rfl

/-- A value that stands before its tag is buffered, and then read by the shape that the tag names. -/
theorem decode_content_before_tag (hkeys : tagKey ≠ contentKey) {tag : String} {branch : Branch}
    (htag : branchOf firstTag secondTag tag = .ok branch) (buffered : Bool) {content : Document}
    (hfits : content.Fits room) :
    (Shape.tagged name tagKey contentKey firstTag secondTag first second).decode buffered (room + 1)
        (.object [(.ok contentKey, content), (.ok tagKey, .string tag)] none) =
      branch.choose ((first.decode true room content).map .inl) ((second.decode true room content).map .inr) := by
  rw [Shape.decode]
  simp only [walk, decodeBranch, htag, if_pos, if_neg hkeys.symm, Nat.add_sub_cancel, hfits.buffer, ofFault,
    pure, Except.pure, bind, Except.bind]
  cases branch with
  | first => cases first.decode true room content <;> rfl
  | second => cases second.decode true room content <;> rfl

end Tagged

end Wire

end BeaconApi
