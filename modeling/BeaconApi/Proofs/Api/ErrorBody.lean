import BeaconApi.Proofs.Beacon.Forms
import BeaconApi.Proofs.Client.Refusals
import BeaconApi.Proofs.Wire.Merged

namespace BeaconApi

open Json (Document)
open Payload (shape ofCarrier)
open Wire

/-- What stands for the stack traces of an error: nothing, null, or a list of texts. -/
inductive Wire.Stacktraces : List Document → Option (List String) → Prop
  | absent : Stacktraces [] none
  | null : Stacktraces [.null] none
  | lines (lines : List String) : Stacktraces [.list (lines.map .string) none] (some lines)

namespace ErrorMessage

/-- The members of an object are those of an error in words: each of its keys is there once, but stack traces
may be missing. Other keys do not matter. -/
structure In (e : ErrorMessage) (members : Members) : Prop where
  code : valuesOf "code" members = [.number (.natural e.code)]
  message : valuesOf "message" members = [.string e.message]
  stacktraces : Stacktraces (valuesOf "stacktraces" members) e.stacktraces

/-- A document is an error in words: an object, or a list of the parts in order. -/
inductive MadeOf (e : ErrorMessage) : Document → Prop
  | object {members : Members} (h : e.In members) : e.MadeOf (.object members none)
  | list {rest : List Document} (h : Stacktraces rest e.stacktraces) :
    e.MadeOf (.list (.number (.natural e.code) :: .string e.message :: rest) none)

end ErrorMessage

/-- A document is the failure of an item: an object whose keys are there once, or a list of the two parts. -/
inductive ItemFailure.MadeOf (f : ItemFailure) : Document → Prop
  | object {members : Members} (index : valuesOf "index" members = [.number (.natural f.index)])
    (message : valuesOf "message" members = [.string f.message]) : f.MadeOf (.object members none)
  | list : f.MadeOf (.list [.number (.natural f.index), .string f.message] none)

/-- A document is a batch error: an object with the members of an error in words and one list of failures. -/
inductive BatchError.MadeOf (e : BatchError) : Document → Prop
  | object {members : Members} {items : List Document} (error : e.error.In members)
    (failures : valuesOf "failures" members = [.list items none])
    (items : List.Forall₂ (fun d f => ItemFailure.MadeOf f d) items e.failures) :
    e.MadeOf (.object members none)

/-- Two relations that agree on the items of a list relate it to the same lists. -/
theorem forall₂_congr_of_mem {α β : Type} {R S : α → β → Prop} {xs : List α} {ys : List β}
    (h : ∀ x ∈ xs, ∀ y, R x y ↔ S x y) : List.Forall₂ R xs ys ↔ List.Forall₂ S xs ys := by
  have hmem (T : α → β → Prop) : List.Forall₂ T xs ys ↔ List.Forall₂ (fun x y => x ∈ xs ∧ T x y) xs ys := by
    rw [List.forall₂_and_left]
    exact (and_iff_right fun _ => id).symm
  have heq : (fun x y => x ∈ xs ∧ R x y) = fun x y => x ∈ xs ∧ S x y :=
    funext₂ fun x y => propext (and_congr_right fun hx => h x hx y)
  rw [hmem R, hmem S, heq]

section Holds

theorem holds_natural_iff {expected : String} {d : Document} {n : UInt64} :
    (Shape.natural expected).Holds d n ↔ d = .number (.natural n) := by
  change decodeNatural expected d = .ok n ↔ _
  cases d with
  | number m => cases m <;> simp [decodeNatural, mismatch_ne_ok]
  | _ => simp [decodeNatural, mismatch_ne_ok]

theorem holds_uint64_iff {d : Document} {n : UInt64} : (shape UInt64).Holds d n ↔ d = .number (.natural n) :=
  holds_natural_iff

theorem holds_string_iff {d : Document} {s : String} : (shape String).Holds d s ↔ d = .string s := by
  change decodeText d = .ok s ↔ _
  cases d <;> simp [decodeText, mismatch_ne_ok]

theorem holds_texts_iff {d : Document} {lines : List String} :
    (shape (List String)).Holds d lines ↔ d = .list (lines.map .string) none := by
  change (∃ items, d = .list items none ∧ List.Forall₂ (shape String).Holds items lines) ↔ _
  have hitems {items : List Document} :
      List.Forall₂ (shape String).Holds items lines ↔ items = lines.map .string := by
    have hholds : (shape String).Holds = fun d s => d = .string s := by
      funext d s
      exact propext holds_string_iff
    rw [hholds]
    exact List.forall₂_map_right_iff.symm.trans (by rw [List.forall₂_eq_eq_eq])
  simp only [hitems]
  exact ⟨fun ⟨_, hd, hlines⟩ => hlines ▸ hd, fun hd => ⟨_, hd, rfl⟩⟩

/-- The stack traces of an error are read from what stands for them. -/
theorem stacktraces_iff {values : List Document} {traces : Option (List String)} :
    ((values = [] ∧ traces = none) ∨ ∃ d, values = [d] ∧ OrNull (shape (List String)).Holds d traces) ↔
      Stacktraces values traces := by
  constructor
  · rintro (⟨rfl, rfl⟩ | ⟨d, rfl, hd⟩)
    · exact .absent
    · cases traces with
      | none => exact (show d = .null from hd) ▸ .null
      | some lines => exact holds_texts_iff.mp hd.2 ▸ .lines lines
  · intro h
    cases h with
    | absent => exact .inl ⟨rfl, rfl⟩
    | null => exact .inr ⟨_, rfl, rfl⟩
    | lines lines => exact .inr ⟨_, rfl, nofun, holds_texts_iff.mpr rfl⟩

variable {members : Members}

theorem ErrorMessage.ofCarrier_eq (code : UInt64) (message : String) (traces : Option (List String)) :
    (ofCarrier (α := ErrorMessage) (code, message, traces, ())) = ⟨code, message, traces⟩ := by
  have htraces : traces.map (ofCarrier (α := List String)) = traces := by
    change traces.map (List.map id) = traces
    simp
  exact congrArg (ErrorMessage.mk code message) htraces

/-- The fields of an error in words are read from the members of an object. -/
theorem ErrorMessage.named_iff (hpassable : Passable members) {x : (shape ErrorMessage).Carrier} :
    ErrorMessage.fields.Named members x ↔ (ofCarrier x : ErrorMessage).In members := by
  obtain ⟨code, message, traces, ⟨⟩⟩ := x
  have hrest : Passable (without "stacktraces" (without "message" (without "code" members))) :=
    hpassable.without.without.without
  rw [ofCarrier_eq, Fields.Named, Fields.Named, Fields.Named, Fields.Named, stacktraces_iff,
    valuesOf_without (by decide), valuesOf_without (by decide), valuesOf_without (by decide)]
  simp only [holds_uint64_iff, holds_string_iff, exists_eq_right, hrest, and_true]
  exact ⟨fun ⟨hcode, hmessage, htraces⟩ => ⟨hcode, hmessage, htraces⟩,
    fun h => ⟨h.code, h.message, h.stacktraces⟩⟩

/-- The fields of an error in words are read from the items of a list. -/
theorem ErrorMessage.listed_iff {items : List Document} {x : (shape ErrorMessage).Carrier} :
    ErrorMessage.fields.Listed items x ↔ ∃ rest,
      items = .number (.natural (ofCarrier x : ErrorMessage).code) ::
        .string (ofCarrier x : ErrorMessage).message :: rest ∧
      Stacktraces rest (ofCarrier x : ErrorMessage).stacktraces := by
  obtain ⟨code, message, traces, ⟨⟩⟩ := x
  have htraces {rest : List Document} : (Fields.optional "stacktraces" (shape (List String)) .nil).Listed rest
      (traces, ()) ↔ Stacktraces rest traces := by
    rw [← stacktraces_iff]
    simp [Fields.Listed]
  rw [ofCarrier_eq]
  constructor
  · rintro ⟨_, _, rfl, hcode, _, rest, rfl, hmessage, hrest⟩
    rw [holds_uint64_iff.mp hcode, holds_string_iff.mp hmessage]
    exact ⟨rest, rfl, htraces.mp hrest⟩
  · rintro ⟨rest, rfl, hrest⟩
    exact ⟨_, _, rfl, holds_uint64_iff.mpr rfl, _, rest, rfl, holds_string_iff.mpr rfl, htraces.mpr hrest⟩

/-- An error in words is read from what it is made of. -/
theorem ErrorMessage.holds_iff {d : Document} {room : Nat} (hfits : d.Fits (room + 1))
    {x : (shape ErrorMessage).Carrier} :
    (shape ErrorMessage).Holds d x ↔ (ofCarrier x : ErrorMessage).MadeOf d := by
  have hshape : (shape ErrorMessage).Holds d x ↔
      (∃ items, d = .list items none ∧ ErrorMessage.fields.Listed items x) ∨
        ∃ members, d = .object members none ∧ ErrorMessage.fields.Named members x := Iff.rfl
  rw [hshape]
  constructor
  · rintro (⟨_, rfl, hlisted⟩ | ⟨members, rfl, hnamed⟩)
    · obtain ⟨rest, rfl, hrest⟩ := listed_iff.mp hlisted
      exact .list hrest
    · exact .object ((named_iff hfits.object.2.passable).mp hnamed)
  · intro h
    cases h with
    | object hmembers => exact .inr ⟨_, rfl, (named_iff hfits.object.2.passable).mpr hmembers⟩
    | list hrest => exact .inl ⟨_, rfl, listed_iff.mpr ⟨_, rfl, hrest⟩⟩

/-- The fields of the failure of an item. -/
abbrev ItemFailure.fields : Fields :=
  .required "index" (.natural "usize") <|
  .required "message" (shape String) .nil

/-- The fields of the failure of an item are read from the members of an object. -/
theorem ItemFailure.named_iff (hpassable : Passable members) {index : UInt64} {message : String} :
    ItemFailure.fields.Named members (index, message, ()) ↔
      valuesOf "index" members = [.number (.natural index)] ∧
        valuesOf "message" members = [.string message] := by
  have hrest : Passable (without "message" (without "index" members)) := hpassable.without.without
  rw [Fields.Named, Fields.Named, Fields.Named, valuesOf_without (by decide)]
  simp only [holds_natural_iff, holds_string_iff, exists_eq_right, hrest, and_true]

/-- The failure of an item is read from what it is made of. -/
theorem ItemFailure.holds_iff {d : Document} {room : Nat} (hfits : d.Fits (room + 1))
    {x : (shape ItemFailure).Carrier} :
    (shape ItemFailure).Holds d x ↔ (ofCarrier x : ItemFailure).MadeOf d := by
  obtain ⟨index, message, ⟨⟩⟩ := x
  constructor
  · rintro (⟨_, rfl, _, _, rfl, hindex, _, _, rfl, hmessage, rfl⟩ | ⟨members, rfl, hnamed⟩)
    · rw [holds_natural_iff.mp hindex, holds_string_iff.mp hmessage]
      exact .list
    · obtain ⟨hindex, hmessage⟩ := (named_iff hfits.object.2.passable).mp hnamed
      exact .object hindex hmessage
  · intro h
    cases h with
    | object hindex hmessage =>
      exact .inr ⟨_, rfl, (named_iff hfits.object.2.passable).mpr ⟨hindex, hmessage⟩⟩
    | list =>
      exact .inl ⟨_, rfl, _, _, rfl, holds_natural_iff.mpr rfl, _, _, rfl, holds_string_iff.mpr rfl, rfl⟩

/-- A list of failures is read from what the failures are made of. -/
theorem holds_failures_iff {d : Document} {room : Nat} (hfits : d.Fits (room + 2))
    {xs : (shape (List ItemFailure)).Carrier} :
    (shape (List ItemFailure)).Holds d xs ↔ ∃ items, d = .list items none ∧
      List.Forall₂ (fun d f => ItemFailure.MadeOf f d) items (ofCarrier xs : List ItemFailure) := by
  refine exists_congr fun items => and_congr_right ?_
  rintro rfl
  refine (forall₂_congr_of_mem fun d hd x => ?_).trans List.forall₂_map_right_iff.symm
  exact ItemFailure.holds_iff (hfits.list.2 d hd)

/-- The failures of a batch are no part of its message. -/
theorem ErrorMessage.in_without_failures_iff {e : ErrorMessage} :
    e.In (without "failures" members) ↔ e.In members := by
  constructor <;> rintro ⟨hcode, hmessage, hstacktraces⟩
  · rw [valuesOf_without (by decide)] at hcode hmessage hstacktraces
    exact ⟨hcode, hmessage, hstacktraces⟩
  · refine ⟨?_, ?_, ?_⟩ <;> rw [valuesOf_without (by decide)] <;> assumption

/-- A batch error is read from what it is made of. -/
theorem BatchError.decode_eq_ok_iff {buffered : Bool} {d : Document} {room : Nat} (hfits : d.Fits (room + 3))
    {x : (shape BatchError).Carrier} :
    (shape BatchError).decode buffered (room + 3) d = .ok x ↔ (ofCarrier x : BatchError).MadeOf d := by
  obtain ⟨error, failures⟩ := x
  refine (decode_merged_eq_ok_iff rfl rfl hfits).trans ?_
  constructor
  · rintro ⟨members, rfl, ⟨value, hvalues, hfailures⟩, hnamed⟩
    have hroomy := hfits.object.2
    have hvalue := hroomy.fits (hvalues ▸ List.mem_cons_self)
    obtain ⟨items, rfl, hitems⟩ := (holds_failures_iff hvalue).mp hfailures
    have herror := (ErrorMessage.named_iff hroomy.passable.without).mp hnamed
    exact .object (ErrorMessage.in_without_failures_iff.mp herror) hvalues hitems
  · intro h
    cases h with
    | object herror hvalues hitems =>
      have hroomy := hfits.object.2
      have hnamed := (ErrorMessage.named_iff hroomy.passable.without).mpr
        (ErrorMessage.in_without_failures_iff.mpr herror)
      refine ⟨_, rfl, ⟨_, hvalues, ?_⟩, hnamed⟩
      exact (holds_failures_iff (hroomy.fits (hvalues ▸ List.mem_cons_self))).mpr ⟨_, rfl, hitems⟩

end Holds

section Reading

variable {text : ByteArray} {d : Document} (htext : Document.ofBytes text = (d, false))
  (hfits : d.Fits Document.maxDepth)
include htext hfits

theorem ErrorMessage.decode_eq_ok_iff {e : ErrorMessage} : Payload.decode text = .ok e ↔ e.MadeOf d := by
  rw [decode_iff_of_direct htext true Document.maxDepth rfl]
  simp only [Shape.decode_eq_ok_iff (s := shape ErrorMessage) rfl, ErrorMessage.holds_iff hfits]
  constructor
  · rintro ⟨x, hx, rfl⟩
    exact hx
  · intro h
    have hsame := Payload.ofCarrier_toCarrier e
    exact ⟨Payload.toCarrier e, hsame.symm ▸ h, hsame⟩

/-- An error body is first tried as that of a batch error, and then as a plain one. -/
theorem ErrorBody.decode_eq_ok_iff {body : ErrorBody} :
    Payload.decode text = .ok body ↔ (∃ e, body = .indexed e ∧ e.MadeOf d) ∨
      ∃ e, body = .plain e ∧ (∀ batch : BatchError, ¬ batch.MadeOf d) ∧ Payload.decode text = .ok e := by
  have hbatch {x : (shape BatchError).Carrier} :
      (shape BatchError).decode true Document.maxDepth d = .ok x ↔ (ofCarrier x : BatchError).MadeOf d :=
    BatchError.decode_eq_ok_iff hfits
  have hplain := @decode_iff_of_direct _ _ htext true Document.maxDepth ErrorMessage _ rfl
  rw [Payload.decode_eq_ok_iff, htext, Payload.ofDocument, map_eq_ok_iff]
  constructor
  · rintro ⟨⟨z, hz, rfl⟩, -⟩
    obtain ⟨-, ⟨x, hx, rfl⟩ | ⟨y, hnot, hy, rfl⟩⟩ := decode_either_eq_ok_iff.mp hz
    · exact .inl ⟨_, rfl, hbatch.mp hx⟩
    · refine .inr ⟨_, rfl, fun batch h => ?_, hplain.mpr ⟨y, hy, rfl⟩⟩
      exact hnot _ (hbatch.mpr ((Payload.ofCarrier_toCarrier batch).symm ▸ h))
  · rintro (⟨e, rfl, h⟩ | ⟨e, rfl, hnot, h⟩)
    · have hx := hbatch.mpr ((Payload.ofCarrier_toCarrier e).symm ▸ h)
      exact ⟨⟨.inl _, decode_either_eq_ok_iff.mpr ⟨hfits, .inl ⟨_, hx, rfl⟩⟩,
        congrArg ErrorBody.indexed (Payload.ofCarrier_toCarrier e)⟩, rfl⟩
    · obtain ⟨y, hy, rfl⟩ := hplain.mp h
      exact ⟨⟨.inr y, decode_either_eq_ok_iff.mpr
        ⟨hfits, .inr ⟨y, fun x hx => hnot _ (hbatch.mp hx), hy, rfl⟩⟩, rfl⟩, rfl⟩

end Reading

/-- The message of a batch error is made of the same object. -/
theorem BatchError.MadeOf.error {e : BatchError} {d : Document} (h : e.MadeOf d) : e.error.MadeOf d := by
  cases h with
  | object herror => exact .object herror

/-- An `ErrorBody` is untagged and tries the batch error first, so a text is `indexed` exactly if it is `MadeOf`
a `BatchError`, and `plain` only if it is not. `FreeForm` is needed for the converse directions: the text is
held as a free-form value before either kind is tried. What is written is read back without any premise. -/
theorem ErrorBody.kept_and_told_apart :
    (∀ body : ErrorBody, Payload.decode (Payload.encode body).toUTF8 = .ok body) ∧
    ∀ text, FreeForm text → ∃ d, Document.ofBytes text = (d, false) ∧
      (∀ e : BatchError, Payload.decode text = .ok (ErrorBody.indexed e) ↔ e.MadeOf d) ∧
      (∀ e : ErrorMessage, Payload.decode text = .ok (ErrorBody.plain e) ↔
        (∀ batch : BatchError, ¬ batch.MadeOf d) ∧ Payload.decode text = .ok e) ∧
      (∀ e : ErrorMessage, Payload.decode text = .ok e ↔ e.MadeOf d) ∧
      ∀ body : ErrorBody, Payload.decode text = .ok body → body.message.MadeOf d := by
  refine ⟨decode_encode, fun text hfree => ?_⟩
  obtain ⟨d, htext, hfits⟩ := freeForm_iff.mp hfree
  have hmessage {e : ErrorMessage} := ErrorMessage.decode_eq_ok_iff htext hfits (e := e)
  refine ⟨d, htext, ?_, ?_, fun e => hmessage, ?_⟩
  · simp [decode_eq_ok_iff htext hfits]
  · simp [decode_eq_ok_iff htext hfits]
  · intro body hbody
    rcases (decode_eq_ok_iff htext hfits).mp hbody with ⟨e, rfl, h⟩ | ⟨e, rfl, -, h⟩
    · exact h.error
    · exact hmessage.mp h

/-- The body of a batch error whose failures are given twice. -/
def ambiguousBody : Json :=
  .object [("code", .number (.natural 400)), ("message", .string "bad items"), ("failures", .array []),
    ("failures", .array [])]

/-- Failures that are given twice are passed over, and the message alone is read. -/
theorem ambiguous_body_is_plain :
    FreeForm ambiguousBody.render.toUTF8 ∧
      Payload.decode ambiguousBody.render.toUTF8 = .ok (ErrorBody.plain (.plain 400 "bad items")) := by
  have hbytes : Document.ofBytes ambiguousBody.render.toUTF8 = (ambiguousBody.outline, false) := by
    refine Json.ofBytes_render (.object ?_)
    simp only [List.forall_mem_cons]
    exact ⟨.natural 400, .string _, .array nofun, .array nofun, nofun⟩
  have hfree : FreeForm ambiguousBody.render.toUTF8 := freeForm_iff.mpr ⟨_, hbytes, _, rfl⟩
  obtain ⟨_, hd, -, hplain, hmessage, -⟩ := ErrorBody.kept_and_told_apart.2 _ hfree
  obtain rfl := (Prod.mk.inj (hbytes.symm.trans hd)).1
  refine ⟨hfree, (hplain _).mpr ⟨fun batch h => ?_, (hmessage _).mpr ?_⟩⟩
  · cases h with
    | object _ hfailures _ => cases hfailures
  · exact .object ⟨rfl, rfl, .absent⟩

end BeaconApi
