import BeaconApi.Proofs.Beacon.Forks

namespace BeaconApi

open Json (Document)
open Payload (shape ofCarrier)
open Wire

namespace Payload

variable {α : Type} [Payload α] {x : α} (hdirect : (shape α).direct)
include hdirect

theorem ofDocument_eq_ok_iff {d : Document} :
    ofDocument d = .ok x ↔ ∃ carrier, (shape α).Holds d carrier ∧ ofCarrier carrier = x := by
  rw [ofDocument, map_eq_ok_iff]
  simp only [Shape.decode_eq_ok_iff hdirect]

/-- A text is read as what its outline holds. -/
theorem decode_iff_holds {text : ByteArray} {d : Document} (htext : Document.ofBytes text = (d, false)) :
    decode text = .ok x ↔ ∃ carrier, (shape α).Holds d carrier ∧ ofCarrier carrier = x := by
  rw [decode_eq_ok_iff, htext, ofDocument_eq_ok_iff hdirect, and_iff_left rfl]

end Payload

/-- The members of a block body have a sync aggregate: one value under its key, which can be read. -/
def Wire.HasAggregate (members : Members) (aggregate : SyncAggregate) : Prop :=
  ∃ value, valuesOf "sync_aggregate" members = [value] ∧ Payload.ofDocument value = .ok aggregate

variable {d : Document} {members : Members} {stop : Option Json.Break}

/-- A document that is read as a block of the richer fork has the sync aggregate of the block. -/
theorem Altair.SignedBeaconBlock.hasAggregate (hbody : d.blockBody? = some (.object members stop))
    {x : (shape SignedBeaconBlock).Carrier} (h : (shape SignedBeaconBlock).Holds d x) :
    HasAggregate members (ofCarrier x : SignedBeaconBlock).message.body.syncAggregate := by
  have hsigned : (signedBlockShape (shape BeaconBlockBody)).Holds d x := h
  obtain ⟨part, hpart, hpartBody, _⟩ := signedBlockShape_holds hsigned
  rw [hbody] at hpart
  cases hpart
  obtain ⟨value, hvalue, hsync⟩ := BeaconBlockBody.holds_sync hpartBody
  exact ⟨value, hvalue, (Payload.ofDocument_eq_ok_iff rfl).mpr ⟨_, hsync, rfl⟩⟩

/-- A document that has a sync aggregate and is a block of the plainer fork is one of the richer fork. -/
theorem Phase0.SignedBeaconBlock.holds_altair (hbody : d.blockBody? = some (.object members stop))
    {x : (shape SignedBeaconBlock).Carrier} (h : (shape SignedBeaconBlock).Holds d x)
    {aggregate : SyncAggregate} (haggregate : HasAggregate members aggregate) :
    ∃ y, (shape Altair.SignedBeaconBlock).Holds d y := by
  have hsigned : (signedBlockShape (shape BeaconBlockBody)).Holds d x := h
  obtain ⟨part, hpart, hpartBody, hothers⟩ := signedBlockShape_holds hsigned
  rw [hbody] at hpart
  cases hpart
  obtain ⟨value, hvalue, hread⟩ := haggregate
  obtain ⟨y, hsync, _⟩ := (Payload.ofDocument_eq_ok_iff rfl).mp hread
  exact ⟨_, hothers _ _ (BeaconBlockBody.holds_altair hpartBody hvalue hsync)⟩

namespace SignedBeaconBlock

/-- A block that decodes is an Altair block with the aggregate of the text, or the Phase0 reading of a text that
has none by `HasAggregate`. `hbody` only says that the body of the block is an object. -/
theorem fork_of_decode {bytes : ByteArray}
    (hbody : (Document.ofBytes bytes).1.blockBody? = some (.object members stop))
    {block : SignedBeaconBlock} (h : Payload.decode bytes = .ok block) :
    (∃ b, block = .altair b ∧ HasAggregate members b.message.body.syncAggregate) ∨
      ∃ b, block = .phase0 b ∧ (∀ aggregate, ¬ HasAggregate members aggregate) ∧
        Payload.decode bytes = .ok b := by
  obtain ⟨hdocument, htrailing⟩ := Payload.decode_eq_ok_iff.mp h
  obtain ⟨z, hz, rfl⟩ := map_eq_ok_iff.mp hdocument
  obtain ⟨-, ⟨x, hx, rfl⟩ | ⟨y, hnot, hy, rfl⟩⟩ := decode_either_eq_ok_iff.mp hz
  · have hholds := (Shape.decode_eq_ok_iff rfl true _).mp hx
    exact .inl ⟨_, rfl, Altair.SignedBeaconBlock.hasAggregate hbody hholds⟩
  · have hholds := (Shape.decode_eq_ok_iff rfl true _).mp hy
    refine .inr ⟨_, rfl, fun aggregate haggregate => ?_, ?_⟩
    · obtain ⟨x, hx⟩ := Phase0.SignedBeaconBlock.holds_altair hbody hholds haggregate
      exact hnot x ((Shape.decode_eq_ok_iff rfl true _).mpr hx)
    · exact Payload.decode_eq_ok_iff.mpr
        ⟨(Payload.ofDocument_eq_ok_iff rfl).mpr ⟨y, hholds, rfl⟩, htrailing⟩

end SignedBeaconBlock

end BeaconApi
