import BeaconApi.Json.Scan

namespace BeaconApi.Json

/-- The number of items of a document that is a list. -/
def Document.itemCount : Document → Nat
  | .list items _ => items.length
  | _ => 0

theorem Document.itemCount_reverse_le {items : List Document} {bound : Nat} (h : items.length ≤ bound)
    (stop : Option Break) : (Document.list items.reverse stop).itemCount ≤ bound :=
  Nat.le_trans (Nat.le_of_eq List.length_reverse) h

/-- No open list has more items than the bound. -/
def Frame.Fits (bound : Nat) : Frame → Prop
  | .list items => items.length ≤ bound
  | .object _ _ => True

/-- No list that is open around a place has more items than the bound. -/
def Fit (bound : Nat) (around : List Frame) : Prop := ∀ frame ∈ around, frame.Fits bound

theorem Fit.of_cons {bound : Nat} {frame : Frame} {around : List Frame} (h : Fit bound (frame :: around)) :
    frame.Fits bound ∧ Fit bound around :=
  List.forall_mem_cons.mp h

theorem Fit.cons {bound : Nat} {frame : Frame} {around : List Frame} (hframe : frame.Fits bound)
    (h : Fit bound around) : Fit bound (frame :: around) :=
  List.forall_mem_cons.mpr ⟨hframe, h⟩

theorem Fit.succ {bound : Nat} {around : List Frame} (h : Fit bound around) : Fit (bound + 1) around := by
  intro frame hframe
  have hfits := h frame hframe
  cases frame with
  | list items => exact Nat.le_succ_of_le hfits
  | object => trivial

namespace Scan

/-- No list that has been read or is open has more items than the bound. -/
def Fits (bound : Nat) : Scan → Prop
  | .value around | .listOpen around | .objectOpen around | .objectNext _ around | .objectMore _ around
  | .key _ _ around | .colon _ _ around | .string _ around | .numeral _ around => Fit bound around
  | .listNext items around | .listMore items around => items.length ≤ bound ∧ Fit bound around
  | .word _ meaning around => meaning.itemCount = 0 ∧ Fit bound around
  | .done d | .trailing d | .broken d => d.itemCount ≤ bound

variable {bound : Nat} {around : List Frame}

/-- Where a text breaks off, the innermost open list may gain the document that breaks off. -/
theorem enclose_itemCount_le (h : Fit bound around) (stop : Break) {d : Document}
    (hd : d.itemCount ≤ bound + 1) : (enclose stop d around).itemCount ≤ bound + 1 := by
  induction around generalizing d with
  | nil => exact hd
  | cons frame around ih =>
    obtain ⟨hframe, hrest⟩ := h.of_cons
    cases frame with
    | list items =>
      have hitems : items.length ≤ bound := hframe
      refine ih hrest ?_
      simp only [Document.itemCount, List.length_reverse, List.length_cons]
      omega
    | object members name => exact ih hrest (Nat.zero_le _)

theorem cutAt_fits (h : Fit bound around) {make : Break → Document} (stop : Break)
    (hmake : (make stop).itemCount = 0) : (cutAt make stop around).Fits (bound + 1) :=
  enclose_itemCount_le h stop (hmake ▸ Nat.zero_le _)

theorem cutList_fits (h : Fit bound around) (stop : Break) {items : List Document}
    (hitems : items.length ≤ bound + 1) : (cutList stop items around).Fits (bound + 1) :=
  enclose_itemCount_le h stop (Document.itemCount_reverse_le hitems _)

theorem cutObject_fits (h : Fit bound around) (stop : Break)
    (members : List (Except Fault String × Document)) :
    (cutObject stop members around).Fits (bound + 1) :=
  enclose_itemCount_le h stop (Nat.zero_le _)

/-- A whole value is one more item of the list around it. -/
theorem complete_fits (h : Fit bound around) {d : Document} (hd : d.itemCount ≤ bound + 1) :
    (complete d around).Fits (bound + 1) := by
  cases around with
  | nil => exact hd
  | cons frame around =>
    obtain ⟨hframe, hrest⟩ := h.of_cons
    cases frame with
    | list items => exact ⟨Nat.succ_le_succ hframe, hrest.succ⟩
    | object members name => exact hrest.succ

theorem begin_fits (h : Fit bound around) (byte : UInt8) : (begin byte around).Fits (bound + 1) := by
  unfold begin
  repeat' split
  all_goals first
    | exact h.succ
    | exact ⟨rfl, h.succ⟩
    | exact cutAt_fits h _ rfl

theorem feedListNext_fits (h : Fit bound around) (byte : UInt8) {items : List Document}
    (hitems : items.length ≤ bound + 1) : (feedListNext byte items around).Fits (bound + 1) := by
  unfold feedListNext
  split
  · exact ⟨hitems, h.succ⟩
  split
  · exact complete_fits h (Document.itemCount_reverse_le hitems _)
  split
  · exact ⟨hitems, h.succ⟩
  · exact cutList_fits h _ hitems

theorem feedObjectNext_fits (h : Fit bound around) (byte : UInt8)
    (members : List (Except Fault String × Document)) :
    (feedObjectNext byte members around).Fits (bound + 1) := by
  unfold feedObjectNext
  split
  · exact h.succ
  split
  · exact complete_fits h (Nat.zero_le _)
  split
  · exact h.succ
  · exact cutObject_fits h _ _

theorem feedDone_fits {d : Document} (hd : d.itemCount ≤ bound) (byte : UInt8) :
    (feedDone byte d).Fits bound := by
  unfold feedDone
  split <;> exact hd

/-- The byte that ends a numeral may close the list around it as well. -/
theorem feedAfter_complete_fits (h : Fit bound around) (byte : UInt8) {d : Document}
    (hd : d.itemCount = 0) : (feedAfter byte (complete d around)).Fits (bound + 1) := by
  cases around with
  | nil => exact feedDone_fits (hd ▸ Nat.zero_le _) byte
  | cons frame around =>
    obtain ⟨hframe, hrest⟩ := h.of_cons
    cases frame with
    | list items => exact feedListNext_fits hrest byte (Nat.succ_le_succ hframe)
    | object members name => exact feedObjectNext_fits hrest byte _

theorem document_itemCount (reader : NumeralReader) : reader.document.itemCount = 0 := by
  unfold NumeralReader.document
  split <;> rfl

section Feed

variable (h : Fit bound around) (byte : UInt8)
include h

theorem feedValue_fits : (feedValue byte around).Fits (bound + 1) := by
  unfold feedValue
  split
  · exact h.succ
  · exact begin_fits h byte

theorem feedListOpen_fits : (feedListOpen byte around).Fits (bound + 1) := by
  have hframe : Frame.Fits bound (.list []) := Nat.zero_le _
  unfold feedListOpen
  split
  · exact h.succ
  split
  · exact complete_fits h (Nat.zero_le _)
  · exact begin_fits (.cons hframe h) byte

theorem feedListMore_fits {items : List Document} (hitems : items.length ≤ bound) :
    (feedListMore byte items around).Fits (bound + 1) := by
  have hframe : Frame.Fits bound (.list items) := hitems
  unfold feedListMore
  split
  · exact ⟨Nat.le_succ_of_le hitems, h.succ⟩
  split
  · exact cutList_fits h _ (Nat.le_succ_of_le hitems)
  · exact begin_fits (.cons hframe h) byte

theorem feedObjectOpen_fits : (feedObjectOpen byte around).Fits (bound + 1) := by
  unfold feedObjectOpen
  split
  · exact h.succ
  split
  · exact complete_fits h (Nat.zero_le _)
  split
  · exact h.succ
  · exact cutObject_fits h _ _

variable (members : List (Except Fault String × Document))

theorem feedObjectMore_fits : (feedObjectMore byte members around).Fits (bound + 1) := by
  unfold feedObjectMore
  split
  · exact h.succ
  split
  · exact h.succ
  split <;> exact cutObject_fits h _ _

theorem feedKey_fits (reader : StringReader) : (feedKey byte reader members around).Fits (bound + 1) := by
  unfold feedKey
  split
  · exact h.succ
  · exact h.succ
  · exact cutObject_fits h _ _

theorem feedColon_fits (name : Except Fault String) :
    (feedColon byte name members around).Fits (bound + 1) := by
  have hopen : Fit bound (.object members name :: around) := .cons trivial h
  unfold feedColon
  split
  · exact h.succ
  split
  · exact hopen.succ
  · exact cutAt_fits hopen _ rfl

theorem feedString_fits (reader : StringReader) : (feedString byte reader around).Fits (bound + 1) := by
  unfold feedString
  split
  · exact h.succ
  · exact complete_fits h (Nat.zero_le _)
  · exact complete_fits h (Nat.zero_le _)
  · exact cutAt_fits h _ rfl

theorem feedNumeral_fits (reader : NumeralReader) :
    (feedNumeral byte reader around).Fits (bound + 1) := by
  unfold feedNumeral
  split
  · exact h.succ
  · exact feedAfter_complete_fits h byte (document_itemCount reader)
  · exact cutAt_fits h _ rfl

theorem feedWord_fits (rest : List UInt8) {meaning : Document} (hmeaning : meaning.itemCount = 0) :
    (feedWord byte rest meaning around).Fits (bound + 1) := by
  have hwhole := complete_fits h (hmeaning ▸ Nat.zero_le (bound + 1))
  unfold feedWord
  split
  · exact hwhole
  split
  · exact cutAt_fits h _ rfl
  split
  · exact hwhole
  · exact ⟨hmeaning, h.succ⟩

end Feed

/-- A byte adds at most one item to any list. -/
theorem feed_fits {s : Scan} (h : s.Fits bound) (byte : UInt8) : (s.feed byte).Fits (bound + 1) := by
  cases s with
  | value => exact feedValue_fits h byte
  | listOpen => exact feedListOpen_fits h byte
  | listNext => exact feedListNext_fits h.2 byte (Nat.le_succ_of_le h.1)
  | listMore => exact feedListMore_fits h.2 byte h.1
  | objectOpen => exact feedObjectOpen_fits h byte
  | objectNext => exact feedObjectNext_fits h byte _
  | objectMore => exact feedObjectMore_fits h byte _
  | key reader => exact feedKey_fits h byte _ reader
  | colon name => exact feedColon_fits h byte _ name
  | string reader => exact feedString_fits h byte reader
  | numeral reader => exact feedNumeral_fits h byte reader
  | word rest => exact feedWord_fits h.2 byte rest h.1
  | done => exact feedDone_fits (Nat.le_succ_of_le h) byte
  | trailing | broken => exact Nat.le_succ_of_le h

/-- What has been read of some bytes has at most as many more items in a list as there are bytes. -/
theorem foldl_feed_fits {s : Scan} (h : s.Fits bound) (bytes : List UInt8) :
    (bytes.foldl feed s).Fits (bound + bytes.length) := by
  induction bytes generalizing s bound with
  | nil => exact h
  | cons byte bytes ih =>
    have hrest := ih (feed_fits h byte)
    rwa [Nat.add_assoc, Nat.add_comm 1] at hrest

/-- The end of a text completes a numeral, and cuts the list around it. -/
theorem finish_complete_fits (h : Fit bound around) {d : Document} (hd : d.itemCount = 0) :
    Fits (bound + 1) (match complete d around with
      | .listNext items around => cutList (.same .endInList) items around
      | .objectNext members around => cutObject (.same .endInObject) members around
      | s => s) := by
  cases around with
  | nil =>
    have hdone : d.itemCount ≤ bound + 1 := hd ▸ Nat.zero_le _
    exact hdone
  | cons frame around =>
    obtain ⟨hframe, hrest⟩ := h.of_cons
    cases frame with
    | list items => exact cutList_fits hrest _ (Nat.succ_le_succ hframe)
    | object members name => exact cutObject_fits hrest _ _

/-- The end of a text adds at most one item to any list: the document that the text breaks off in. -/
theorem finish_fits {s : Scan} (h : s.Fits bound) : s.finish.Fits (bound + 1) := by
  cases s with
  | value => exact cutAt_fits h _ rfl
  | string => exact cutAt_fits h _ rfl
  | key => exact cutObject_fits h _ _
  | listOpen => exact cutList_fits h _ (Nat.zero_le _)
  | listNext => exact cutList_fits h.2 _ (Nat.le_succ_of_le h.1)
  | listMore items around =>
    have hframe : Frame.Fits bound (.list items) := h.1
    exact cutAt_fits (.cons hframe h.2) _ rfl
  | objectOpen | objectNext | objectMore => exact cutObject_fits h _ _
  | colon name members around =>
    have hopen : Fit bound (.object members name :: around) := .cons trivial h
    exact cutAt_fits hopen _ rfl
  | numeral reader around =>
    rw [finish]
    by_cases hends : reader.phase.mayEnd
    · rw [if_pos hends]
      exact finish_complete_fits h (document_itemCount reader)
    · rw [if_neg hends]
      exact cutAt_fits h _ rfl
  | word => exact cutAt_fits h.2 _ rfl
  | done | trailing | broken => exact Nat.le_succ_of_le h

theorem result_itemCount_le {s : Scan} (h : s.Fits bound) : s.result.1.itemCount ≤ bound := by
  cases s with
  | done | trailing | broken => exact h
  | _ => exact Nat.zero_le _

end Scan

/-- A text has at least as many bytes as it has items, but for one where it breaks off. -/
theorem Document.itemCount_ofBytes_le (bytes : ByteArray) :
    (Document.ofBytes bytes).1.itemCount ≤ bytes.size + 1 := by
  have hstart : Scan.Fits 0 (.value []) := fun _ hnone => nomatch hnone
  have hread := Scan.foldl_feed_fits hstart bytes.data.toList
  have hresult := Scan.result_itemCount_le (Scan.finish_fits hread)
  rwa [Nat.zero_add, Array.length_toList] at hresult

end BeaconApi.Json
