import BeaconApi.Proofs.Text.Lossy
import BeaconApi.Proofs.Text.Percent
import BeaconApi.Text.Form

namespace BeaconApi

namespace Text

variable {α : Type} [DecidableEq α] {separator : α}

theorem split_append {first : List α} (h : separator ∉ first) (rest : List α) :
    split separator (first ++ separator :: rest) = first :: split separator rest := by
  induction first with
  | nil => exact if_pos rfl
  | cons x first ih =>
    simp only [List.mem_cons, not_or] at h
    rw [List.cons_append, split, if_neg (Ne.symm h.1), ih h.2]

theorem split_of_not_mem {piece : List α} (h : separator ∉ piece) : split separator piece = [piece] := by
  induction piece with
  | nil => rfl
  | cons x piece ih =>
    simp only [List.mem_cons, not_or] at h
    rw [split, if_neg (Ne.symm h.1), ih h.2]

/-- Pieces that stand between separators are found again. -/
theorem split_intercalate {pieces : List (List α)} (hne : pieces ≠ [])
    (h : ∀ piece ∈ pieces, separator ∉ piece) : split separator ([separator].intercalate pieces) = pieces := by
  induction pieces with
  | nil => exact absurd rfl hne
  | cons piece pieces ih =>
    have hpiece := h piece List.mem_cons_self
    cases pieces with
    | nil => rw [List.intercalate_singleton, split_of_not_mem hpiece]
    | cons next pieces =>
      have hrest := ih (List.cons_ne_nil next pieces) fun other hother => h other (List.mem_cons_of_mem _ hother)
      rw [List.intercalate_cons_cons, List.append_assoc, List.singleton_append, split_append hpiece, hrest]

theorem split_ne_nil (text : List α) : split separator text ≠ [] := by
  cases text with
  | nil => nofun
  | cons x text =>
    rw [split]
    split
    · nofun
    · split <;> nofun

/-- A separator cuts, whatever stands on its sides. -/
theorem split_append_cons (first rest : List α) :
    split separator (first ++ separator :: rest) = split separator first ++ split separator rest := by
  induction first with
  | nil => exact if_pos rfl
  | cons x first ih =>
    rw [List.cons_append, split, split, ih]
    split
    · rfl
    · cases hfirst : split separator first with
      | nil => exact absurd hfirst (split_ne_nil first)
      | cons piece pieces => rfl

/-- No piece has a separator in it. -/
theorem not_mem_of_mem_split {text piece : List α} (h : piece ∈ split separator text) : separator ∉ piece := by
  induction text generalizing piece with
  | nil =>
    rw [List.mem_singleton.mp h]
    exact List.not_mem_nil
  | cons x text ih =>
    rw [split] at h
    split at h
    · rcases List.mem_cons.mp h with rfl | h
      · exact List.not_mem_nil
      · exact ih h
    next hx =>
      cases hrest : split separator text with
      | nil =>
        rw [hrest] at h
        rw [List.mem_singleton.mp h, List.mem_singleton]
        exact Ne.symm hx
      | cons first pieces =>
        rw [hrest] at h ih
        rcases List.mem_cons.mp h with rfl | h
        · rw [List.mem_cons, not_or]
          exact ⟨Ne.symm hx, ih List.mem_cons_self⟩
        · exact ih (List.mem_cons_of_mem _ h)

omit [DecidableEq α] in
theorem mem_of_mem_intercalate {pieces : List (List α)} {x : α}
    (h : x ∈ [separator].intercalate pieces) : x = separator ∨ ∃ piece ∈ pieces, x ∈ piece := by
  induction pieces with
  | nil => cases h
  | cons piece pieces ih =>
    cases pieces with
    | nil =>
      rw [List.intercalate_singleton] at h
      exact .inr ⟨piece, List.mem_cons_self, h⟩
    | cons next pieces =>
      rw [List.intercalate_cons_cons, List.append_assoc] at h
      rcases List.mem_append.mp h with h | h
      · exact .inr ⟨piece, List.mem_cons_self, h⟩
      · rcases List.mem_cons.mp h with rfl | h
        · exact .inl rfl
        · refine (ih h).imp_right ?_
          rintro ⟨other, hother, hmem⟩
          exact ⟨other, List.mem_cons_of_mem _ hother, hmem⟩

end Text

namespace Utf8

theorem encode_intercalate (separator : String) (texts : List String) :
    encode (separator.intercalate texts) = (encode separator).intercalate (texts.map encode) := by
  induction texts with
  | nil => rfl
  | cons text texts ih =>
    cases texts with
    | nil => rw [String.intercalate_singleton, List.map_singleton, List.intercalate_singleton]
    | cons next texts =>
      rw [String.intercalate_cons_cons, encode_append, encode_append, ih, List.map_cons, List.map_cons,
        List.map_cons, List.intercalate_cons_cons]

end Utf8

namespace Form

open Percent (codes)

/-- Neither a hash sign nor an ampersand, a plus sign or an equals sign is written for a text. -/
theorem not_mem_codes {bytes : List UInt8} {byte : UInt8} (h : byte ∈ [0x23, 0x26, 0x2b, 0x3d]) :
    byte ∉ bytes.flatMap codes := by
  intro hmem
  have hmarks : ∀ mark ∈ ([0x23, 0x26, 0x2b, 0x3d] : List UInt8),
      mark ≠ 0x25 ∧ ¬ Percent.isUnreserved mark := by simp [Percent.isUnreserved]
  rcases Percent.mem_flatMap_codes hmem with heq | hplain
  · exact (hmarks byte h).1 heq
  · exact (hmarks byte h).2 hplain

theorem decodeText_codes (s : String) : decodeText ((Utf8.encode s).flatMap codes) = s := by
  have hplus : (0x2b : UInt8) ∉ (Utf8.encode s).flatMap codes := not_mem_codes (by simp)
  have hmap : ((Utf8.encode s).flatMap codes).map (fun byte => if byte = 0x2b then 0x20 else byte) =
      (Utf8.encode s).flatMap codes := by
    refine (List.map_congr_left fun byte hbyte => ?_).trans (List.map_id _)
    refine if_neg ?_
    rintro rfl
    exact hplus hbyte
  rw [decodeText, hmap, Percent.decode_flatMap_codes, Utf8.decodeLossy_encode]

/-- The bytes of a name and a value with an equals sign between them. -/
def pieceOf (pair : String × String) : List UInt8 :=
  (Utf8.encode pair.1).flatMap codes ++ 0x3d :: (Utf8.encode pair.2).flatMap codes

theorem decodePiece_pieceOf (pair : String × String) : decodePiece (pieceOf pair) = pair := by
  have hequals : ∀ byte ∈ (Utf8.encode pair.1).flatMap codes, (byte != 0x3d) = true := by
    intro byte hbyte
    refine bne_iff_ne.mpr ?_
    rintro rfl
    exact not_mem_codes (by simp) hbyte
  rw [decodePiece, pieceOf, List.takeWhile_append_of_pos hequals, List.dropWhile_append_of_pos hequals]
  simp [decodeText_codes]

theorem not_mem_pieceOf (pair : String × String) {byte : UInt8} (h : byte ∈ [0x23, 0x26]) :
    byte ∉ pieceOf pair := by
  have hmarks : ∀ mark ∈ ([0x23, 0x26] : List UInt8), mark ∈ [0x23, 0x26, 0x2b, 0x3d] ∧ mark ≠ 0x3d := by
    simp
  obtain ⟨hmark, hne⟩ := hmarks byte h
  simp only [pieceOf, List.mem_append, List.mem_cons, not_or]
  exact ⟨not_mem_codes hmark, hne, not_mem_codes hmark⟩

/-- Pairs that stand between ampersands are found again. -/
theorem decode_of_encode_eq {text : String} {pairs : List (String × String)}
    (h : Utf8.encode text = [0x26].intercalate (pairs.map pieceOf)) : decode text = pairs := by
  rw [decode, h]
  cases pairs with
  | nil => rfl
  | cons pair pairs =>
    have hseparate : ∀ piece ∈ (pair :: pairs).map pieceOf, (0x26 : UInt8) ∉ piece := by
      intro piece hpiece
      obtain ⟨other, _, rfl⟩ := List.mem_map.mp hpiece
      exact not_mem_pieceOf other (by simp)
    have hfull : ∀ piece ∈ (pair :: pairs).map pieceOf, (!piece.isEmpty) = true := by
      intro piece hpiece
      obtain ⟨other, _, rfl⟩ := List.mem_map.mp hpiece
      simp [pieceOf]
    rw [Text.split_intercalate (by simp) hseparate, List.filter_eq_self.mpr hfull, List.map_map]
    refine (List.map_congr_left fun other _ => decodePiece_pieceOf other).trans (List.map_id _)

end Form

end BeaconApi
