import BeaconApi.Proofs.Beacon.SyncAggregate
import BeaconApi.Proofs.Json.Within

namespace BeaconApi

open Json (Document stringBytes)
open Payload (shape toCarrier ofCarrier)
open Wire

/-- A text that can be read as a free-form value. -/
def FreeForm (text : ByteArray) : Prop := ∃ value : Json, Payload.decode text = .ok value

theorem freeForm_iff {text : ByteArray} :
    FreeForm text ↔ ∃ d, Document.ofBytes text = (d, false) ∧ d.Fits Document.maxDepth := by
  unfold FreeForm
  simp only [Payload.decode_eq_ok_iff]
  constructor
  · rintro ⟨value, hvalue, htrailing⟩
    obtain ⟨j, hj, -⟩ := map_eq_ok_iff.mp hvalue
    exact ⟨_, Prod.ext rfl htrailing, j, ofFault_eq_ok_iff.mp hj⟩
  · rintro ⟨d, hd, j, hj⟩
    rw [hd]
    exact ⟨j, map_eq_ok_iff.mpr ⟨j, ofFault_eq_ok_iff.mpr hj, rfl⟩, rfl⟩

namespace ForkName

/-- The text of an object with the name of a fork before another text. -/
def before (fork : ForkName) (text : ByteArray) : ByteArray :=
  ("\x7b\"version\":\"" ++ fork.display ++ "\",\"data\":").toUTF8 ++ text ++ "\x7d".toUTF8

/-- The text of an object with the name of a fork behind another text. -/
def behind (fork : ForkName) (text : ByteArray) : ByteArray :=
  "\x7b\"data\":".toUTF8 ++ text ++ (",\"version\":\"" ++ fork.display ++ "\"\x7d").toUTF8

/-- A text holds a block of a fork. -/
def Reads (fork : ForkName) (text : ByteArray) : VersionedSignedBeaconBlock → Prop
  | .phase0 block => fork = .phase0 ∧ Payload.decode text = .ok block
  | .altair block => fork = .altair ∧ Payload.decode text = .ok block

variable {fork : ForkName} {text : ByteArray}

theorem toList_before : (fork.before text).data.toList = 0x7b :: (stringBytes "version" ++ 0x3a ::
    (stringBytes fork.display ++ 0x2c :: (stringBytes "data" ++ 0x3a :: (text.data.toList ++ [0x7d])))) := by
  rw [before, ByteArray.data_append, ByteArray.data_append, Array.toList_append, Array.toList_append,
    List.append_assoc]
  cases fork <;> rfl

theorem toList_behind : (fork.behind text).data.toList = 0x7b :: (stringBytes "data" ++ 0x3a ::
    (text.data.toList ++ 0x2c :: (stringBytes "version" ++ 0x3a :: (stringBytes fork.display ++ [0x7d])))) := by
  rw [behind, ByteArray.data_append, ByteArray.data_append, Array.toList_append, Array.toList_append,
    List.append_assoc]
  cases fork <;> rfl

theorem branchOf_display : branchOf "phase0" "altair" fork.display = .ok (toCarrier fork) := by
  cases fork <;> rfl

end ForkName

section Direct

variable {text : ByteArray} {d : Document} (htext : Document.ofBytes text = (d, false)) (buffered : Bool)
  (room : Nat)
include htext

/-- A shape that is read in one step finds the same in the text and in what has been buffered of it. -/
theorem decode_iff_of_direct {α : Type} [Payload α] (h : (shape α).direct) {x : α} :
    Payload.decode text = .ok x ↔
      ∃ carrier, (shape α).decode buffered room d = .ok carrier ∧ ofCarrier carrier = x := by
  rw [Payload.decode_iff_holds h htext]
  simp only [Shape.decode_eq_ok_iff h]

/-- A block that is read by the shape that its fork names is a block of the fork. -/
theorem ForkName.reads_iff {fork : ForkName} {block : VersionedSignedBeaconBlock} :
    fork.Reads text block ↔ ∃ z : (shape VersionedSignedBeaconBlock).Carrier,
      (toCarrier fork : Branch).choose
        (((shape Phase0.SignedBeaconBlock).decode buffered room d).map .inl)
        (((shape Altair.SignedBeaconBlock).decode buffered room d).map .inr) = .ok z ∧
      ofCarrier z = block := by
  have hphase0 := @decode_iff_of_direct _ _ htext buffered room Phase0.SignedBeaconBlock _ rfl
  have haltair := @decode_iff_of_direct _ _ htext buffered room Altair.SignedBeaconBlock _ rfl
  constructor
  · intro h
    cases block with
    | phase0 block =>
      obtain ⟨rfl, h⟩ := h
      obtain ⟨x, hx, rfl⟩ := hphase0.mp h
      exact ⟨.inl x, choose_eq_ok_iff.mpr (.inl ⟨rfl, x, hx, rfl⟩), rfl⟩
    | altair block =>
      obtain ⟨rfl, h⟩ := h
      obtain ⟨y, hy, rfl⟩ := haltair.mp h
      exact ⟨.inr y, choose_eq_ok_iff.mpr (.inr ⟨rfl, y, hy, rfl⟩), rfl⟩
  · rintro ⟨z, hz, rfl⟩
    rcases choose_eq_ok_iff.mp hz with ⟨hfork, x, hx, rfl⟩ | ⟨hfork, y, hy, rfl⟩
    · cases fork with
      | phase0 => exact ⟨rfl, hphase0.mpr ⟨x, hx, rfl⟩⟩
      | altair => cases hfork
    · cases fork with
      | phase0 => cases hfork
      | altair => exact ⟨rfl, haltair.mpr ⟨y, hy, rfl⟩⟩

end Direct

section Wrapped

variable {text : ByteArray} {d : Document} {room : Nat} {fork : ForkName}
  (htext : Document.ofBytes text = (d, false)) (hfits : d.Fits room)
include htext hfits

theorem ForkName.ofBytes_before : Document.ofBytes (fork.before text) =
    (.object [(.ok "version", .string fork.display), (.ok "data", d)] none, false) :=
  Json.ofBytes_pair (Json.Scan.Spells.string fork.display).settles (Json.Scan.denotes_of_ofBytes htext hfits)
    toList_before

theorem ForkName.ofBytes_behind : Document.ofBytes (fork.behind text) =
    (.object [(.ok "data", d), (.ok "version", .string fork.display)] none, false) :=
  Json.ofBytes_pair (Json.Scan.denotes_of_ofBytes htext hfits) (Json.Scan.Spells.string fork.display).settles
    toList_behind

/-- The object around a text takes one level of the depth that a free-form value may have. -/
theorem ForkName.freeForm_behind_iff : FreeForm (fork.behind text) ↔ d.Fits (Document.maxDepth - 1) := by
  rw [freeForm_iff, ofBytes_behind htext hfits]
  constructor
  · rintro ⟨_, ⟨⟩, hwhole⟩
    exact (Document.fits_pair_iff.mp hwhole).1
  · intro h
    exact ⟨_, rfl, Document.fits_pair_iff.mpr ⟨h, _, rfl⟩⟩

variable {block : VersionedSignedBeaconBlock}

/-- A block with its fork before it is read in the text. -/
theorem VersionedSignedBeaconBlock.decode_before :
    Payload.decode (fork.before text) = .ok block ↔ fork.Reads text block := by
  rw [Payload.decode_eq_ok_iff, ForkName.ofBytes_before htext hfits, Payload.ofDocument, map_eq_ok_iff,
    ForkName.reads_iff htext false (Document.maxDepth - 1)]
  simp only [and_true]
  refine exists_congr fun z => and_congr_left fun _ => Eq.congr ?_ rfl
  exact decode_tag_before_content (by decide) ForkName.branchOf_display false d

/-- A block with its fork behind it is read after it has been read free-form. -/
theorem VersionedSignedBeaconBlock.decode_behind (hwrapped : FreeForm (fork.behind text)) :
    Payload.decode (fork.behind text) = .ok block ↔ fork.Reads text block := by
  -- The block can be buffered, since it has room within the object around it.
  have hcontent := (ForkName.freeForm_behind_iff htext hfits).mp hwrapped
  rw [Payload.decode_eq_ok_iff, ForkName.ofBytes_behind htext hfits, Payload.ofDocument, map_eq_ok_iff,
    ForkName.reads_iff htext true (Document.maxDepth - 1)]
  simp only [and_true]
  refine exists_congr fun z => and_congr_left fun _ => Eq.congr ?_ rfl
  exact decode_content_before_tag (by decide) ForkName.branchOf_display false hcontent

end Wrapped

namespace SignedBeaconBlock

variable {text : ByteArray}

/-- An untagged block decodes as Altair or, where that fails, as Phase0. `FreeForm` is needed because the text
is held as a free-form value before either is tried. -/
theorem decode_eq_ok_iff (h : FreeForm text) {block : SignedBeaconBlock} :
    Payload.decode text = .ok block ↔
      (∃ b, Payload.decode text = .ok b ∧ block = .altair b) ∨
        ∃ b, (∀ a : Altair.SignedBeaconBlock, Payload.decode text ≠ .ok a) ∧
          Payload.decode text = .ok b ∧ block = .phase0 b := by
  obtain ⟨d, htext, hfits⟩ := freeForm_iff.mp h
  have haltair := @decode_iff_of_direct _ _ htext true Document.maxDepth Altair.SignedBeaconBlock _ rfl
  have hphase0 := @decode_iff_of_direct _ _ htext true Document.maxDepth Phase0.SignedBeaconBlock _ rfl
  rw [Payload.decode_eq_ok_iff, htext, Payload.ofDocument, map_eq_ok_iff]
  constructor
  · rintro ⟨⟨z, hz, rfl⟩, -⟩
    obtain ⟨-, ⟨x, hx, rfl⟩ | ⟨y, hnot, hy, rfl⟩⟩ := decode_either_eq_ok_iff.mp hz
    · exact .inl ⟨_, haltair.mpr ⟨x, hx, rfl⟩, rfl⟩
    · refine .inr ⟨_, fun a ha => ?_, hphase0.mpr ⟨y, hy, rfl⟩, rfl⟩
      obtain ⟨x, hx, -⟩ := haltair.mp ha
      exact hnot x hx
  · rintro (⟨b, hb, rfl⟩ | ⟨b, hnot, hb, rfl⟩)
    · obtain ⟨x, hx, rfl⟩ := haltair.mp hb
      exact ⟨⟨.inl x, decode_either_eq_ok_iff.mpr ⟨hfits, .inl ⟨x, hx, rfl⟩⟩, rfl⟩, rfl⟩
    · obtain ⟨y, hy, rfl⟩ := hphase0.mp hb
      refine ⟨⟨.inr y, decode_either_eq_ok_iff.mpr ⟨hfits, .inr ⟨y, fun x hx => ?_, hy, rfl⟩⟩, rfl⟩, rfl⟩
      exact hnot _ (haltair.mpr ⟨x, hx, rfl⟩)

theorem decode_eq_altair_iff (h : FreeForm text) {block : Altair.SignedBeaconBlock} :
    Payload.decode text = .ok (SignedBeaconBlock.altair block) ↔ Payload.decode text = .ok block := by
  simp [decode_eq_ok_iff h]

theorem decode_eq_phase0_iff (h : FreeForm text) {block : Phase0.SignedBeaconBlock} :
    Payload.decode text = .ok (SignedBeaconBlock.phase0 block) ↔
      (∀ b : Altair.SignedBeaconBlock, Payload.decode text ≠ .ok b) ∧ Payload.decode text = .ok block := by
  simp [decode_eq_ok_iff h]

theorem decode_fails_iff (h : FreeForm text) :
    (∃ e, (Payload.decode text : Decoded SignedBeaconBlock) = .error e) ↔
      (∀ b : Altair.SignedBeaconBlock, Payload.decode text ≠ .ok b) ∧
        ∀ b : Phase0.SignedBeaconBlock, Payload.decode text ≠ .ok b := by
  have hnone : (∃ e, (Payload.decode text : Decoded SignedBeaconBlock) = .error e) ↔
      ∀ block : SignedBeaconBlock, Payload.decode text ≠ .ok block := by
    cases (Payload.decode text : Decoded SignedBeaconBlock) <;> simp
  rw [hnone]
  constructor
  · intro hfails
    have haltair (b : Altair.SignedBeaconBlock) : Payload.decode text ≠ .ok b :=
      fun hb => hfails _ ((decode_eq_altair_iff h).mpr hb)
    exact ⟨haltair, fun b hb => hfails _ ((decode_eq_phase0_iff h).mpr ⟨haltair, hb⟩)⟩
  · rintro ⟨haltair, hphase0⟩ block hblock
    cases block with
    | altair b => exact haltair b ((decode_eq_altair_iff h).mp hblock)
    | phase0 b => exact hphase0 b ((decode_eq_phase0_iff h).mp hblock).2

/-- A block decodes to the same value with the name of its fork before it, behind it or without one. A name that
stands behind and an untagged block make the decoder hold the whole text as a free-form value first, so both
texts have to be `FreeForm`: a typed decoder skips parts that no such value can hold. The name before the block
needs no buffer. -/
theorem forms_agree (h : FreeForm text) :
    (∀ fork : ForkName, FreeForm (fork.behind text) → ∀ block : VersionedSignedBeaconBlock,
      (Payload.decode (fork.before text) = .ok block ↔ fork.Reads text block) ∧
        (Payload.decode (fork.behind text) = .ok block ↔ fork.Reads text block)) ∧
    (∀ block : Altair.SignedBeaconBlock,
      Payload.decode text = .ok (SignedBeaconBlock.altair block) ↔ Payload.decode text = .ok block) ∧
    (∀ block : Phase0.SignedBeaconBlock,
      Payload.decode text = .ok (SignedBeaconBlock.phase0 block) ↔
        (∀ b : Altair.SignedBeaconBlock, Payload.decode text ≠ .ok b) ∧ Payload.decode text = .ok block) ∧
    ((∃ e, (Payload.decode text : Decoded SignedBeaconBlock) = .error e) ↔
      (∀ b : Altair.SignedBeaconBlock, Payload.decode text ≠ .ok b) ∧
        ∀ b : Phase0.SignedBeaconBlock, Payload.decode text ≠ .ok b) := by
  refine ⟨fun fork hwrapped block => ?_, fun _ => decode_eq_altair_iff h, fun _ => decode_eq_phase0_iff h,
    decode_fails_iff h⟩
  obtain ⟨d, htext, hfits⟩ := freeForm_iff.mp h
  exact ⟨VersionedSignedBeaconBlock.decode_before htext hfits,
    VersionedSignedBeaconBlock.decode_behind htext hfits hwrapped⟩

/-- The text of a block of the richer fork, read in all forms. -/
theorem altair_text_forms_agree :
    let text := (Payload.encode (default : Altair.SignedBeaconBlock)).toUTF8
    FreeForm text ∧ FreeForm (ForkName.altair.behind text) ∧
      Payload.decode (ForkName.altair.before text) = .ok (VersionedSignedBeaconBlock.altair default) ∧
      Payload.decode (ForkName.altair.behind text) = .ok (VersionedSignedBeaconBlock.altair default) ∧
      Payload.decode text = .ok (SignedBeaconBlock.altair default) := by
  intro text
  have hread : Payload.decode text = .ok (default : Altair.SignedBeaconBlock) :=
    Payload.decode_encode (by decide) (by decide) default
  have htext : Document.ofBytes text = ((Payload.toJson (default : Altair.SignedBeaconBlock)).outline, false) :=
    Json.ofBytes_render (Shape.encode_plain (by decide) _)
  have hfits : (Payload.toJson (default : Altair.SignedBeaconBlock)).outline.Fits (Document.maxDepth - 1) :=
    Shape.encode_fits (by decide) (by decide) _
  have hfree : FreeForm text := freeForm_iff.mpr ⟨_, htext, Shape.encode_fits (by decide) (by decide) _⟩
  have hwrapped : FreeForm (ForkName.altair.behind text) := (ForkName.freeForm_behind_iff htext hfits).mpr hfits
  obtain ⟨hversioned, haltair, -, -⟩ := forms_agree hfree
  obtain ⟨hbefore, hbehind⟩ := hversioned .altair hwrapped (.altair default)
  exact ⟨hfree, hwrapped, hbefore.mpr ⟨rfl, hread⟩, hbehind.mpr ⟨rfl, hread⟩, (haltair default).mpr hread⟩

end SignedBeaconBlock

end BeaconApi
