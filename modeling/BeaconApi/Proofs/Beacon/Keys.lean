import BeaconApi.Proofs.Beacon.Forms
import BeaconApi.Proofs.Beacon.Payloads
import BeaconApi.Proofs.Wire.Edited

namespace BeaconApi

open Json (Document)
open Payload (shape)
open Wire

/-- A payload is read by its keys. What is read of a text stays the same when keys of any object change their
order, and when objects that are read as records are given other keys, as long as the text can still be read as a
free-form value. Nothing is read of a text in which such an object has a key of its record twice, or lacks a
required one. -/
structure ReadByKeys (α : Type) [Payload α] : Prop where
  reordered {text text' : ByteArray} {d d' : Document} (htext : Document.ofBytes text = (d, false))
    (htext' : Document.ofBytes text' = (d', false)) (h : Relation.ReflTransGen Document.Reordered d d') (x : α) :
    Payload.decode text = .ok x ↔ Payload.decode text' = .ok x
  edited {text text' : ByteArray} {d d' : Document} (htext : Document.ofBytes text = (d, false))
    (htext' : Document.ofBytes text' = (d', false)) (h : Relation.ReflTransGen (shape α).Edited d d')
    (hfree : FreeForm text') (x : α) : Payload.decode text = .ok x ↔ Payload.decode text' = .ok x
  repeated {text' : ByteArray} {d d' : Document} (htext' : Document.ofBytes text' = (d', false))
    (h : (shape α).Changed Fields.Repeats d d') : ∃ e, (Payload.decode text' : Decoded α) = .error e
  omitted {text' : ByteArray} {d d' : Document} (htext' : Document.ofBytes text' = (d', false))
    (h : (shape α).Changed Fields.Omits d d') : ∃ e, (Payload.decode text' : Decoded α) = .error e

section Direct

variable {α : Type} [Payload α] (hdirect : (shape α).direct) {text text' : ByteArray} {d d' : Document}
include hdirect

theorem decode_iff_of_holds_iff (htext : Document.ofBytes text = (d, false))
    (htext' : Document.ofBytes text' = (d', false)) (h : ∀ {x}, (shape α).Holds d x ↔ (shape α).Holds d' x)
    (x : α) : Payload.decode text = .ok x ↔ Payload.decode text' = .ok x := by
  simp only [Payload.decode_iff_holds hdirect htext, Payload.decode_iff_holds hdirect htext', h]

theorem decode_error_of_not_holds (htext : Document.ofBytes text = (d, false))
    (h : ∀ {x}, ¬ (shape α).Holds d x) : ∃ e, (Payload.decode text : Decoded α) = .error e := by
  cases hread : (Payload.decode text : Decoded α) with
  | error e => exact ⟨e, rfl⟩
  | ok x =>
    obtain ⟨carrier, hholds, -⟩ := (Payload.decode_iff_holds hdirect htext).mp hread
    exact absurd hholds h

/-- A payload whose shape is read in one step is read by its keys. -/
theorem ReadByKeys.of_direct : ReadByKeys α where
  reordered htext htext' h :=
    decode_iff_of_holds_iff hdirect htext htext' (Shape.holds_iff_of_reordered h)
  edited htext htext' h hfree := by
    obtain ⟨_, hd, hfits⟩ := freeForm_iff.mp hfree
    cases htext'.symm.trans hd
    exact decode_iff_of_holds_iff hdirect htext htext' (Shape.holds_iff_of_edits h hfits)
  repeated htext' h := decode_error_of_not_holds hdirect htext' (Shape.not_holds_of_repeats h)
  omitted htext' h := decode_error_of_not_holds hdirect htext' (Shape.not_holds_of_omits h)

end Direct

namespace PayloadKind

theorem shape_direct (kind : PayloadKind) : (shape kind.Value).direct := by
  cases kind with
  | quantity | bytes => rfl
  | _ => decide

/-- Every `PayloadKind` is `ReadByKeys`, also in an `Envelope`, and so is `ErrorMessage`. No premise is imposed
here; those of `ReadByKeys` name the edits, and `edited` asks for a `FreeForm` text because a new key may carry
any value. `SignedBeaconBlock` and `VersionedSignedBeaconBlock` are no kinds: there the keys also choose the
fork. -/
theorem read_by_keys :
    (∀ kind : PayloadKind, ReadByKeys kind.Value ∧ ReadByKeys (Envelope kind.Value)) ∧
      ReadByKeys ErrorMessage := by
  refine ⟨fun kind => ⟨.of_direct kind.shape_direct, .of_direct ?_⟩, .of_direct rfl⟩
  exact Bool.and_eq_true_iff.mpr ⟨kind.shape_direct, rfl⟩

/-- Keys that a checkpoint in an envelope may be given in addition, and another order of its own. -/
theorem checkpoint_edits (epoch root finalized more : Document) :
    Relation.ReflTransGen (shape (Envelope Checkpoint)).Edited
      (.object [(.ok "data", .object [(.ok "epoch", epoch), (.ok "root", root)] none)] none)
      (.object [(.ok "more", more),
        (.ok "data", .object [(.ok "root", root), (.ok "finalized", finalized), (.ok "epoch", epoch)] none)]
        none) := by
  refine .head (.inr (.here (@Fields.Extends.mk _ [] _ "more" more (by decide)))) ?_
  refine .head (.inr (@Shape.Changed.named _ _ _ _ _ [(.ok "more", more)] [] _ _ rfl
    (.here (@Fields.Extends.mk _ [(.ok "epoch", epoch)] _ "finalized" finalized (by decide))))) ?_
  refine .single (.inl (@Document.Reordered.member [(.ok "more", more)] [] _ _ _ (.here ?_ none) none))
  exact (List.reverse_perm [(Except.ok "epoch", epoch), (.ok "finalized", finalized), (.ok "root", root)]).symm

/-- A checkpoint is read beside keys that it does not have, but not if it is given twice or not at all. -/
theorem checkpoint_read_by_keys :
    let x : Envelope Checkpoint := ⟨⟨⟨5⟩, .zero⟩⟩
    let root := Payload.toJson x.data.root
    let epoch := Payload.toJson x.data.epoch
    let more := Json.object [("more", .array []),
      ("data", .object [("root", root), ("finalized", .bool true), ("epoch", epoch)])]
    let twice := Json.object [("data", Payload.toJson x.data), ("data", .null)]
    Payload.decode more.render.toUTF8 = .ok x ∧
      (∃ e, (Payload.decode twice.render.toUTF8 : Decoded (Envelope Checkpoint)) = .error e) ∧
      ∃ e, (Payload.decode (Json.object []).render.toUTF8 : Decoded (Envelope Checkpoint)) = .error e := by
  intro x root epoch more twice
  have hkeys := (read_by_keys.1 .checkpoint).2
  have hread : Payload.decode (Payload.encode x).toUTF8 = .ok x := Payload.decode_encode (by decide) (by decide) x
  have htext : Document.ofBytes (Payload.encode x).toUTF8 = ((Payload.toJson x).outline, false) :=
    Json.ofBytes_render (Shape.encode_plain (by decide) _)
  have hroot : root.Plain := Shape.encode_plain (by decide) (Payload.toCarrier x.data.root)
  have hepoch : epoch.Plain := Shape.encode_plain (by decide) (Payload.toCarrier x.data.epoch)
  have hdata : (Payload.toJson x.data).Plain := Shape.encode_plain (by decide) (Payload.toCarrier x.data)
  have hmore : Document.ofBytes more.render.toUTF8 = (more.outline, false) :=
    Json.ofBytes_render (by
      simp [more, Json.plain_object_iff, Json.plain_array_iff, Json.Plain.bool, hroot, hepoch])
  have htwice : Document.ofBytes twice.render.toUTF8 = (twice.outline, false) :=
    Json.ofBytes_render (by simp [twice, Json.plain_object_iff, Json.Plain.null, hdata])
  have hfits : more.outline.Fits Document.maxDepth := by
    have hroot : root.outline.Fits 125 :=
      Shape.encode_fits (by decide) (by decide) (Payload.toCarrier x.data.root)
    have hepoch : epoch.outline.Fits 125 :=
      Shape.encode_fits (by decide) (by decide) (Payload.toCarrier x.data.epoch)
    have hflag : (Json.bool true).outline.Fits 125 := ⟨_, rfl⟩
    have hinner : (Json.object [("root", root), ("finalized", .bool true), ("epoch", epoch)]).outline.Fits 126 :=
      Json.outline_object_fits (by simp [hroot, hepoch, hflag])
    have hempty : (Json.array []).outline.Fits 126 := Json.outline_array_fits nofun
    exact Json.outline_object_fits (by simp [hinner, hempty])
  refine ⟨?_, ?_, ?_⟩
  · refine (hkeys.edited htext hmore (checkpoint_edits _ _ _ _) ?_ x).mp hread
    exact freeForm_iff.mpr ⟨_, hmore, hfits⟩
  · exact hkeys.repeated htwice (.here (@Fields.Repeats.mk _ [_] [] "data" _ _ (by decide) List.mem_cons_self))
  · have hnone : Document.ofBytes (Json.object []).render.toUTF8 = ((Json.object []).outline, false) :=
      Json.ofBytes_render (.object nofun)
    exact hkeys.omitted hnone (.here (@Fields.Omits.mk _ [] "data" (by decide)))

end PayloadKind

end BeaconApi
