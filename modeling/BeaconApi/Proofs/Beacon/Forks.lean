import BeaconApi.Beacon.Block
import BeaconApi.Proofs.Api.Contents
import BeaconApi.Proofs.Wire.Buffered
import BeaconApi.Proofs.Wire.Holding

namespace BeaconApi

open Json (Document)
open Payload (shape toCarrier)

/-- The part of a document that a field of a record is read from: the member of its name, or the item
at its place. -/
def Json.Document.part? (name : String) (place : Nat) : Document → Option Document
  | .object members _ => (Wire.valuesOf name members).head?
  | .list items _ => items[place]?
  | _ => none

/-- The part of a document that the body of a signed block is read from. -/
def Json.Document.blockBody? (d : Document) : Option Document :=
  (d.part? "message" 0).bind (part? "body" 4)

namespace Wire

/-- A block around a body. -/
abbrev blockShape (body : Shape) : Shape :=
  .record "BeaconBlock" <|
    .required "slot" .quoted <|
    .required "proposer_index" .quoted <|
    .required "parent_root" (.bytes 32) <|
    .required "state_root" (.bytes 32) <|
    .required "body" body .nil

/-- A signed block around a body. -/
abbrev signedBlockShape (body : Shape) : Shape :=
  .record "SignedBeaconBlock" <|
    .required "message" (blockShape body) <|
    .required "signature" (.bytes 96) .nil

variable {body : Shape} {d : Document}

/-- A block holds its body in one part, and holds any other body that the part holds. -/
theorem blockShape_holds {x : (blockShape body).Carrier} (h : (blockShape body).Holds d x) :
    ∃ part, d.part? "body" 4 = some part ∧ body.Holds part x.2.2.2.2.1 ∧
      ∀ (other : Shape) (y : other.Carrier), other.Holds part y →
        (blockShape other).Holds d (x.1, x.2.1, x.2.2.1, x.2.2.2.1, y, ()) := by
  obtain ⟨slot, proposer, parent, state, inner, ⟨⟩⟩ := x
  rcases h with ⟨items, rfl, hlisted⟩ | ⟨members, rfl, hnamed⟩
  · obtain ⟨_, _, rfl, hslot, _, _, rfl, hproposer, _, _, rfl, hparent, _, _, rfl, hstate, part, _, rfl,
      hbody, rfl⟩ := hlisted
    refine ⟨part, rfl, hbody, fun other y hother => .inl ⟨_, rfl, ?_⟩⟩
    exact ⟨_, _, rfl, hslot, _, _, rfl, hproposer, _, _, rfl, hparent, _, _, rfl, hstate, _, _, rfl, hother,
      rfl⟩
  · obtain ⟨hslot, hproposer, hparent, hstate, ⟨part, hvalue, hbody⟩, hrest⟩ := hnamed
    refine ⟨part, ?_, hbody, fun other y hother => .inr ⟨members, rfl, ?_⟩⟩
    · simp only [valuesOf_without, ne_eq, String.reduceEq, not_false_eq_true] at hvalue
      rw [Document.part?, hvalue, List.head?_cons]
    · exact ⟨hslot, hproposer, hparent, hstate, ⟨part, hvalue, hother⟩, hrest⟩

/-- A signed block holds its body in one part, and holds any other body that the part holds. -/
theorem signedBlockShape_holds {x : (signedBlockShape body).Carrier}
    (h : (signedBlockShape body).Holds d x) :
    ∃ part, d.blockBody? = some part ∧ body.Holds part x.1.2.2.2.2.1 ∧
      ∀ (other : Shape) (y : other.Carrier), other.Holds part y →
        (signedBlockShape other).Holds d
          ((x.1.1, x.1.2.1, x.1.2.2.1, x.1.2.2.2.1, y, ()), x.2.1, ()) := by
  obtain ⟨message, signature, ⟨⟩⟩ := x
  rcases h with ⟨items, rfl, hlisted⟩ | ⟨members, rfl, hnamed⟩
  · obtain ⟨block, _, rfl, hblock, _, _, rfl, hsignature, rfl⟩ := hlisted
    obtain ⟨part, hpart, hbody, hothers⟩ := blockShape_holds hblock
    refine ⟨part, hpart, hbody, fun other y hother => .inl ⟨_, rfl, ?_⟩⟩
    exact ⟨_, _, rfl, hothers other y hother, _, _, rfl, hsignature, rfl⟩
  · obtain ⟨⟨block, hvalue, hblock⟩, hsignature, hrest⟩ := hnamed
    obtain ⟨part, hpart, hbody, hothers⟩ := blockShape_holds hblock
    refine ⟨part, ?_, hbody, fun other y hother => .inr ⟨members, rfl, ?_⟩⟩
    · rw [Document.blockBody?, Document.part?, hvalue]
      exact hpart
    · exact ⟨⟨block, hvalue, hothers other y hother⟩, hsignature, hrest⟩

end Wire

open Wire

variable {d : Document} {members : Members} {stop : Option Json.Break}

/-- A body of the richer fork that is an object has its own field once. -/
theorem Altair.BeaconBlockBody.holds_sync {x : (shape BeaconBlockBody).Carrier}
    (h : (shape BeaconBlockBody).Holds (.object members stop) x) :
    ∃ value, valuesOf "sync_aggregate" members = [value] ∧
      (shape SyncAggregate).Holds value x.2.2.2.2.1 := by
  rcases h with ⟨items, hlist, _⟩ | ⟨others, hobject, hnamed⟩
  · cases hlist
  · cases hobject
    obtain ⟨_, _, _, _, ⟨value, hvalue, hsync⟩, _⟩ := hnamed
    refine ⟨value, ?_, hsync⟩
    simpa only [valuesOf_without, ne_eq, String.reduceEq, not_false_eq_true] using hvalue

/-- A body of the plainer fork that has the field of the richer one is a body of the richer fork. -/
theorem Phase0.BeaconBlockBody.holds_altair {x : (shape BeaconBlockBody).Carrier}
    (h : (shape BeaconBlockBody).Holds (.object members stop) x) {value : Document}
    (hvalue : valuesOf "sync_aggregate" members = [value]) {y : (shape SyncAggregate).Carrier}
    (hsync : (shape SyncAggregate).Holds value y) :
    (shape Altair.BeaconBlockBody).Holds (.object members stop)
      (x.1, x.2.1, x.2.2.1, x.2.2.2.1, y, ()) := by
  rcases h with ⟨items, hlist, _⟩ | ⟨others, hobject, hnamed⟩
  · cases hlist
  · cases hobject
    obtain ⟨hreveal, hgraffiti, hattestations, hexits, hrest⟩ := hnamed
    refine .inr ⟨members, rfl, hreveal, hgraffiti, hattestations, hexits, ⟨value, ?_, hsync⟩, ?_⟩
    · simpa only [valuesOf_without, ne_eq, String.reduceEq, not_false_eq_true] using hvalue
    · exact hrest.without

/-- No block of the plainer fork, as it is written, is read as one of the richer fork: its body has no
field for it. -/
theorem Altair.SignedBeaconBlock.decode_phase0 (buffered : Bool) (room : Nat)
    (block : Phase0.SignedBeaconBlock) :
    ∃ e, (shape SignedBeaconBlock).decode buffered room (Payload.toJson block).outline = .error e := by
  cases hdecode : (shape SignedBeaconBlock).decode buffered room (Payload.toJson block).outline with
  | error e => exact ⟨e, rfl⟩
  | ok x =>
    have hdirect : (shape SignedBeaconBlock).direct := rfl
    have hholds : (signedBlockShape (shape BeaconBlockBody)).Holds _ x :=
      (Shape.decode_eq_ok_iff hdirect buffered room).mp hdecode
    obtain ⟨part, hpart, hbody, _⟩ := signedBlockShape_holds hholds
    cases hpart
    obtain ⟨value, hvalue, _⟩ := BeaconBlockBody.holds_sync hbody
    cases hvalue

section Outlines

variable {room : Nat}

/-- An envelope is read if what has been put in it is. -/
theorem Envelope.decode_outline {α : Type} [Payload α] {buffered : Bool} {x : Envelope α}
    (h : (shape α).decode buffered room (Payload.toJson x.data).outline = .ok (toCarrier x.data)) :
    (shape (Envelope α)).decode buffered (room + 1) (Payload.toJson x).outline = .ok (toCarrier x) := by
  refine decode_record.mpr (.inr ⟨[(.ok "data", (Payload.toJson x.data).outline)], rfl, ?_⟩)
  rw [walk, Fields.none, Fields.put_required_self, Nat.add_sub_cancel, h]
  rfl

/-- A block is read from the form that does not name its fork. -/
theorem SignedBeaconBlock.decode_outline (hroom : (shape SignedBeaconBlock).depth ≤ room)
    (buffered : Bool) (block : SignedBeaconBlock) :
    (shape SignedBeaconBlock).decode buffered room (Payload.toJson block).outline =
      .ok (toCarrier block) := by
  obtain ⟨haltair, hphase0⟩ := Nat.max_le.mp hroom
  cases block with
  | altair block => exact decode_either_inl (by decide) haltair buffered (toCarrier block)
  | phase0 block =>
    obtain ⟨e, he⟩ := Altair.SignedBeaconBlock.decode_phase0 true room block
    exact decode_either_inr (by decide) hphase0 buffered he

/-- A block is read from the form that names its fork. -/
theorem VersionedSignedBeaconBlock.decode_outline
    (hroom : (shape VersionedSignedBeaconBlock).depth ≤ room + 1) (buffered : Bool)
    (block : VersionedSignedBeaconBlock) :
    (shape VersionedSignedBeaconBlock).decode buffered (room + 1) (Payload.toJson block).outline =
      .ok (toCarrier block) := by
  obtain ⟨hphase0, haltair⟩ := Nat.max_le.mp (Nat.le_of_succ_le_succ hroom)
  cases block with
  | phase0 block =>
    have hcontent : (shape Phase0.SignedBeaconBlock).decode buffered room (Payload.toJson block).outline =
        .ok (toCarrier block) := Shape.decode_encode (by decide) hphase0 buffered (toCarrier block)
    refine (decode_tag_before_content (by decide) rfl buffered (Payload.toJson block).outline).trans ?_
    rw [hcontent]
    rfl
  | altair block =>
    have hcontent : (shape Altair.SignedBeaconBlock).decode buffered room (Payload.toJson block).outline =
        .ok (toCarrier block) := Shape.decode_encode (by decide) haltair buffered (toCarrier block)
    refine (decode_tag_before_content (by decide) rfl buffered (Payload.toJson block).outline).trans ?_
    rw [hcontent]
    rfl

end Outlines

namespace SignedBeaconBlock

theorem readsBack (block : SignedBeaconBlock) : Body.ReadsBack block :=
  .of_decode (by decide)
    (Payload.decode_encode_of_outline (by decide) (decode_outline (by decide) false block))

theorem envelope_readsBack (x : Envelope SignedBeaconBlock) : Body.ReadsBack x :=
  .of_decode (by decide) (Payload.decode_encode_of_outline (by decide)
    (Envelope.decode_outline (decode_outline (by decide) false x.data)))

theorem versioned_block (block : SignedBeaconBlock) : block.versioned.block = block := by
  cases block <;> rfl

theorem version_versioned (block : SignedBeaconBlock) : block.versioned.version = block.fork := by
  cases block <;> rfl

end SignedBeaconBlock

namespace VersionedSignedBeaconBlock

theorem readsBack (block : VersionedSignedBeaconBlock) : Body.ReadsBack block :=
  .of_decode (by decide)
    (Payload.decode_encode_of_outline (by decide) (decode_outline (by decide) false block))

theorem block_versioned (block : VersionedSignedBeaconBlock) : block.block.versioned = block := by
  cases block <;> rfl

end VersionedSignedBeaconBlock

end BeaconApi
