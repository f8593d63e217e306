import BeaconApi.Api.Body
import BeaconApi.Proofs.Json.Items
import BeaconApi.Proofs.Wire.Holding
import BeaconApi.Proofs.Wire.RoundTrip

namespace BeaconApi

namespace Json.Scan

theorem foldl_broken (bytes : List UInt8) (d : Document) : bytes.foldl feed (.broken d) = .broken d := by
  induction bytes with
  | nil => rfl
  | cons byte bytes ih => exact ih

/-- A form feed is no blank to a scan: the text breaks off there. -/
theorem Spells.ne_formFeed {rest : List UInt8} {d : Document} : ¬ Spells (0x0c :: rest) d := by
  intro h
  have hsettles := h.settles []
  rw [List.foldl_cons] at hsettles
  change Settles (rest.foldl feed (.broken _)) d [] at hsettles
  rw [foldl_broken] at hsettles
  rcases hsettles with hdone | ⟨_, hnumeral, _⟩
  · cases hdone
  · cases hnumeral

end Json.Scan

/-- Blanks before a value leave a scan where it is. -/
theorem Json.Scan.foldl_blanks {blanks : List UInt8} (h : ∀ byte ∈ blanks, isBlank byte = true)
    (around : List Frame) : blanks.foldl feed (.value around) = .value around := by
  induction blanks with
  | nil => rfl
  | cons byte blanks ih =>
    rw [List.foldl_cons]
    change blanks.foldl feed (feedValue byte around) = _
    rw [feedValue, h byte List.mem_cons_self]
    exact ih fun other hother => h other (List.mem_cons_of_mem _ hother)

theorem StatusClass.of_success {code : UInt16} (hlow : 200 ≤ code) (hhigh : code < 300) :
    of code = .success := by
  unfold of
  rw [if_neg (UInt16.not_lt.mpr hlow), if_pos hhigh]

namespace Payload

open Json (Document)
open Wire (Decoded)

variable {α : Type} [Payload α] {bytes : ByteArray}

theorem decode_eq_ok_iff {x : α} :
    decode bytes = .ok x ↔ ofDocument (Document.ofBytes bytes).1 = .ok x ∧ (Document.ofBytes bytes).2 = false := by
  unfold decode
  obtain ⟨d, trailing⟩ := Document.ofBytes bytes
  dsimp only
  cases (ofDocument d : Decoded α) <;> cases trailing <;> simp

/-- A list that has been read from a text is hardly longer than the text. -/
theorem length_le_of_decode {xs : List α} (h : decode bytes = .ok xs) : xs.length ≤ bytes.size + 1 := by
  obtain ⟨hdocument, _⟩ := decode_eq_ok_iff.mp h
  have hcount := Document.itemCount_ofBytes_le bytes
  rw [ofDocument, map_eq_ok_iff] at hdocument
  obtain ⟨carriers, hdecode, rfl⟩ := hdocument
  obtain ⟨items, hitems, hmap⟩ := Wire.decode_list.mp hdecode
  have hlength : items.length = carriers.length := (mapM_eq_ok_iff.mp hmap).length_eq
  rw [hitems] at hcount
  change (carriers.map Payload.ofCarrier).length ≤ _
  rw [List.length_map, ← hlength]
  exact hcount

end Payload

namespace Body

open Json (Document)

theorem isBlank_render {j : Json} (h : j.Plain) : isBlank j.render.toUTF8 = false := by
  have hspells := Json.Scan.spells_render h
  obtain ⟨first, rest, hbytes, hblank, _⟩ := hspells.opens
  rw [hbytes] at hspells
  have hformFeed : first ≠ 0x0c := by
    rintro rfl
    exact hspells.ne_formFeed
  have hfirst : isBlankByte first = false := by
    simp only [Json.Scan.isBlank, Bool.or_eq_false_iff, decide_eq_false_iff_not] at hblank
    simp [isBlankByte, hblank, hformFeed]
  have hlist : (Utf8.encode j.render).all isBlankByte = false := by
    rw [hbytes, List.all_cons, hfirst, Bool.false_and]
  rw [isBlank, ← Array.all_toList]
  exact hlist

theorem size_pos_of_nonblank {bytes : ByteArray} (h : isBlank bytes = false) : 0 < bytes.size := by
  refine Nat.pos_of_ne_zero fun hempty => ?_
  have hdata : bytes.data = #[] := Array.eq_empty_of_size_eq_zero hempty
  rw [isBlank, hdata, Array.all_empty] at h
  exact absurd h (by decide)

/-- A body with spaces before it. -/
def padded (spaces : Nat) (bytes : ByteArray) : ByteArray := ⟨Array.replicate spaces 0x20⟩ ++ bytes

theorem size_padded (spaces : Nat) (bytes : ByteArray) : (padded spaces bytes).size = spaces + bytes.size := by
  rw [padded, ByteArray.size_append]
  exact congrArg (· + bytes.size) Array.size_replicate

theorem isBlank_padded (spaces : Nat) (bytes : ByteArray) :
    isBlank (padded spaces bytes) = isBlank bytes := by
  rw [isBlank, padded, ByteArray.data_append, Array.all_append, Array.all_replicate, isBlank]
  simp [isBlankByte]

theorem ofBytes_padded (spaces : Nat) (bytes : ByteArray) :
    Document.ofBytes (padded spaces bytes) = Document.ofBytes bytes := by
  have hblanks : ∀ byte ∈ List.replicate spaces 0x20, Json.Scan.isBlank byte = true := by
    intro byte hbyte
    rw [List.eq_of_mem_replicate hbyte]
    rfl
  unfold Document.ofBytes Json.Scan.run
  rw [padded, ByteArray.data_append, Array.toList_append, Array.toList_replicate, List.foldl_append,
    Json.Scan.foldl_blanks hblanks]

section Reading

variable {α : Type} [Payload α]

theorem decodeContents_empty : (decodeContents .empty : Except ApiError α) = .error .noContent :=
  if_pos (Array.all_empty : isBlank .empty = true)

/-- Spaces before a text do not change what a body holds. -/
theorem decodeContents_padded (spaces : Nat) (bytes : ByteArray) :
    (decodeContents (padded spaces bytes) : Except ApiError α) = decodeContents bytes := by
  rw [decodeContents, decodeContents, isBlank_padded, Body.decode, Body.decode, Payload.decode,
    Payload.decode, ofBytes_padded]

/-- A body with a value is not blank, and however it is read, the value is what has been written. -/
structure ReadsBack (x : α) : Prop where
  nonblank : isBlank (Payload.encode x).toUTF8 = false
  decode : Body.decode (Payload.encode x).toUTF8 = .ok x
  decodeContents : Body.decodeContents (Payload.encode x).toUTF8 = .ok x
  decodeResponse (code : UInt16) (hlow : 200 ≤ code) (hhigh : code < 300) :
    Body.decodeResponse code (Payload.encode x).toUTF8 = .ok x

/-- The text of a payload without free-form parts is not blank, so it is enough that it is read. -/
theorem ReadsBack.of_decode (hfixed : (Payload.shape α).fixed) {x : α}
    (h : Payload.decode (Payload.encode x).toUTF8 = .ok x) : ReadsBack x := by
  have hdecode : Body.decode (Payload.encode x).toUTF8 = .ok x := by
    rw [Body.decode, h]
    rfl
  have hblank : isBlank (Payload.encode x).toUTF8 = false :=
    isBlank_render (Wire.Shape.encode_plain hfixed (Payload.toCarrier x))
  have hcontents : Body.decodeContents (Payload.encode x).toUTF8 = .ok x := by
    rw [Body.decodeContents, hblank]
    exact hdecode
  refine ⟨hblank, hdecode, hcontents, fun code hlow hhigh => ?_⟩
  rw [Body.decodeResponse, StatusClass.of_success hlow hhigh]
  exact hcontents

theorem ReadsBack.of_regular (hregular : (Payload.shape α).regular)
    (hdepth : (Payload.shape α).depth ≤ Document.maxDepth) (x : α) : ReadsBack x :=
  .of_decode (Wire.Shape.fixed_of_regular hregular) (Payload.decode_encode hregular hdepth x)

/-- What a body with contents holds is what its text is read as. -/
theorem decode_of_decodeContents {bytes : ByteArray} {x : α} (h : decodeContents bytes = .ok x) :
    Payload.decode bytes = .ok x := by
  unfold decodeContents at h
  split at h
  · cases h
  · exact mapError_eq_ok_iff.mp h

section Regular

variable (hregular : (Payload.shape α).regular) (hdepth : (Payload.shape α).depth + 1 ≤ Document.maxDepth)
include hregular hdepth

/-- What is put in an envelope is read back as well as what is not. -/
theorem ReadsBack.of_envelope (x : Envelope α) : ReadsBack x := by
  refine .of_regular ?_ ?_ x
  · change ((Payload.shape α).regular && true && decide ("data" ∉ [])) = true
    rw [hregular]
    rfl
  · change max (Payload.shape α).depth 0 + 1 ≤ _
    rw [Nat.max_zero]
    exact hdepth

theorem ReadsBack.of_list (xs : List α) : ReadsBack xs :=
  .of_regular (α := List α) hregular hdepth xs

end Regular

end Reading

end Body

end BeaconApi
