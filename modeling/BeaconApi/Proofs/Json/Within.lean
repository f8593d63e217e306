import BeaconApi.Proofs.Wire.Outline

namespace BeaconApi.Json

/-- A document breaks off somewhere, so that it cannot even be passed over. -/
def Document.Breaks (d : Document) : Prop := ∃ fault, d.skip = .error fault

theorem NumeralReader.feed_of_mayEnd {r : NumeralReader} (h : r.phase.mayEnd) {byte : UInt8}
    (hbyte : byte ∈ [0x2c, 0x5d, 0x7d]) : r.feed byte = .ended := by
  obtain ⟨phase, numeral⟩ := r
  simp only [List.mem_cons, List.not_mem_nil, or_false] at hbyte
  rcases hbyte with rfl | rfl | rfl <;> cases phase <;> first | rfl | cases h

namespace Scan

/-- The text has broken off within its value. -/
def Cut (s : Scan) : Prop := ∃ d, s = .broken d ∧ d.Breaks

/-- A scan as it stands if further lists and objects are open around it. -/
def within (outer : List Frame) : Scan → Scan
  | .value around => .value (around ++ outer)
  | .listOpen around => .listOpen (around ++ outer)
  | .listNext items around => .listNext items (around ++ outer)
  | .listMore items around => .listMore items (around ++ outer)
  | .objectOpen around => .objectOpen (around ++ outer)
  | .objectNext members around => .objectNext members (around ++ outer)
  | .objectMore members around => .objectMore members (around ++ outer)
  | .key reader members around => .key reader members (around ++ outer)
  | .colon name members around => .colon name members (around ++ outer)
  | .string reader around => .string reader (around ++ outer)
  | .numeral reader around => .numeral reader (around ++ outer)
  | .word rest meaning around => .word rest meaning (around ++ outer)
  | .done d => complete d outer
  | .trailing d => .trailing d
  | .broken d => .broken d

/-- A scan goes as another one with further lists and objects around it, unless the other has come to
the end of its value already, in whatever way. -/
def Follows (outer : List Frame) : Scan → Scan → Prop
  | .trailing _, _ => True
  | .broken d, _ => d.Breaks
  | s, s' => s' = s.within outer

variable {outer around : List Frame}

theorem enclose_breaks {d : Document} (h : d.Breaks) (stop : Break) (around : List Frame) :
    (enclose stop d around).Breaks := by
  induction around generalizing d with
  | nil => exact h
  | cons frame around ih =>
    cases frame with
    | list items => exact ih ⟨_, rfl⟩
    | object members name => exact ih ⟨_, rfl⟩

theorem cutAt_cut {make : Break → Document} {stop : Break} (h : (make stop).Breaks) :
    (cutAt make stop around).Cut :=
  ⟨_, rfl, enclose_breaks h stop around⟩

theorem cutList_cut (stop : Break) (items : List Document) : (cutList stop items around).Cut :=
  ⟨_, rfl, enclose_breaks ⟨_, rfl⟩ stop around⟩

theorem cutObject_cut (stop : Break) (members : List (Except Fault String × Document)) :
    (cutObject stop members around).Cut :=
  ⟨_, rfl, enclose_breaks ⟨_, rfl⟩ stop around⟩

theorem Cut.breaks {s : Scan} (h : s.Cut) {d : Document} {trailing : Bool}
    (hresult : s.result = (d, trailing)) : d.Breaks := by
  obtain ⟨d', rfl, hbreaks⟩ := h
  obtain rfl : d' = d := congrArg Prod.fst hresult
  exact hbreaks

theorem Cut.follows {s : Scan} (h : s.Cut) (s' : Scan) : Follows outer s s' := by
  obtain ⟨d, rfl, hbreaks⟩ := h
  exact hbreaks

theorem follows_ite {c : Prop} [Decidable c] {a b a' b' : Scan} (h : c → Follows outer a a')
    (h' : ¬ c → Follows outer b b') : Follows outer (if c then a else b) (if c then a' else b') := by
  split
  next hc => exact h hc
  next hc => exact h' hc

theorem complete_follows (d : Document) (around : List Frame) :
    Follows outer (complete d around) (complete d (around ++ outer)) := by
  cases around with
  | nil => rfl
  | cons frame around => cases frame <;> rfl

theorem begin_follows (byte : UInt8) (around : List Frame) :
    Follows outer (begin byte around) (begin byte (around ++ outer)) := by
  unfold begin
  iterate 7 refine follows_ite (fun _ => rfl) fun _ => ?_
  cases byteDigit? byte with
  | some digit => rfl
  | none => exact (cutAt_cut ⟨_, rfl⟩).follows _

section Feed

variable (byte : UInt8)

theorem feedValue_follows : Follows outer (feedValue byte around) (feedValue byte (around ++ outer)) :=
  follows_ite (fun _ => rfl) fun _ => begin_follows byte around

theorem feedListOpen_follows :
    Follows outer (feedListOpen byte around) (feedListOpen byte (around ++ outer)) := by
  refine follows_ite (fun _ => rfl) fun _ => follows_ite (fun _ => complete_follows _ around) fun _ => ?_
  exact begin_follows byte (.list [] :: around)

theorem feedListNext_follows (items : List Document) :
    Follows outer (feedListNext byte items around) (feedListNext byte items (around ++ outer)) := by
  refine follows_ite (fun _ => rfl) fun _ => follows_ite (fun _ => complete_follows _ around) fun _ => ?_
  exact follows_ite (fun _ => rfl) fun _ => (cutList_cut _ items).follows _

theorem feedListMore_follows (items : List Document) :
    Follows outer (feedListMore byte items around) (feedListMore byte items (around ++ outer)) := by
  refine follows_ite (fun _ => rfl) fun _ => follows_ite (fun _ => (cutList_cut _ items).follows _) fun _ => ?_
  exact begin_follows byte (.list items :: around)

theorem feedObjectOpen_follows :
    Follows outer (feedObjectOpen byte around) (feedObjectOpen byte (around ++ outer)) := by
  refine follows_ite (fun _ => rfl) fun _ => follows_ite (fun _ => complete_follows _ around) fun _ => ?_
  exact follows_ite (fun _ => rfl) fun _ => (cutObject_cut _ []).follows _

variable (members : List (Except Fault String × Document))

theorem feedObjectNext_follows :
    Follows outer (feedObjectNext byte members around) (feedObjectNext byte members (around ++ outer)) := by
  refine follows_ite (fun _ => rfl) fun _ => follows_ite (fun _ => complete_follows _ around) fun _ => ?_
  exact follows_ite (fun _ => rfl) fun _ => (cutObject_cut _ members).follows _

theorem feedObjectMore_follows :
    Follows outer (feedObjectMore byte members around) (feedObjectMore byte members (around ++ outer)) := by
  refine follows_ite (fun _ => rfl) fun _ => follows_ite (fun _ => rfl) fun _ => ?_
  exact follows_ite (fun _ => (cutObject_cut _ members).follows _) fun _ => (cutObject_cut _ members).follows _

theorem feedKey_follows (reader : StringReader) :
    Follows outer (feedKey byte reader members around) (feedKey byte reader members (around ++ outer)) := by
  unfold feedKey
  cases reader.feed byte with
  | more reader => rfl
  | whole name => rfl
  | cut stop => exact (cutObject_cut stop members).follows _

theorem feedColon_follows (name : Except Fault String) :
    Follows outer (feedColon byte name members around) (feedColon byte name members (around ++ outer)) := by
  refine follows_ite (fun _ => rfl) fun _ => follows_ite (fun _ => rfl) fun _ => ?_
  exact (cutAt_cut ⟨_, rfl⟩).follows _

theorem feedString_follows (reader : StringReader) :
    Follows outer (feedString byte reader around) (feedString byte reader (around ++ outer)) := by
  unfold feedString
  cases reader.feed byte with
  | more reader => rfl
  | whole value => cases value <;> exact complete_follows _ around
  | cut stop => exact (cutAt_cut ⟨_, rfl⟩).follows _

/-- Blanks behind a value change nothing, whatever is open around it. -/
theorem feedDone_follows (d : Document) : Follows outer (feedDone byte d) ((complete d outer).feed byte) := by
  unfold feedDone
  split
  next hblank =>
    cases outer with
    | nil => exact if_pos hblank
    | cons frame outer => cases frame <;> exact if_pos hblank
  · trivial

theorem feedAfter_complete (d : Document) (around : List Frame) :
    feedAfter byte (complete d around) = (complete d around).feed byte := by
  cases around with
  | nil => rfl
  | cons frame around => cases frame <;> rfl

theorem feedAfter_follows (d : Document) :
    Follows outer (feedAfter byte (complete d around)) (feedAfter byte (complete d (around ++ outer))) := by
  cases around with
  | nil =>
    rw [List.nil_append, feedAfter_complete byte d outer]
    exact feedDone_follows byte d
  | cons frame around =>
    cases frame with
    | list items => exact feedListNext_follows byte (d :: items)
    | object members name => exact feedObjectNext_follows byte ((name, d) :: members)

theorem feedNumeral_follows (reader : NumeralReader) :
    Follows outer (feedNumeral byte reader around) (feedNumeral byte reader (around ++ outer)) := by
  unfold feedNumeral
  cases reader.feed byte with
  | more reader => rfl
  | ended => exact feedAfter_follows byte reader.document
  | cut => exact (cutAt_cut ⟨_, rfl⟩).follows _

theorem feedWord_follows (rest : List UInt8) (meaning : Document) :
    Follows outer (feedWord byte rest meaning around) (feedWord byte rest meaning (around ++ outer)) := by
  cases rest with
  | nil => exact complete_follows meaning around
  | cons next rest =>
    refine follows_ite (fun _ => (cutAt_cut ⟨_, rfl⟩).follows _) fun _ => ?_
    exact follows_ite (fun _ => complete_follows meaning around) fun _ => rfl

end Feed

/-- One byte keeps a scan behind the one that it follows. -/
theorem Follows.feed {s s' : Scan} (h : Follows outer s s') (byte : UInt8) :
    Follows outer (s.feed byte) (s'.feed byte) := by
  cases s with
  | trailing d => trivial
  | broken d => exact h
  | value => cases h; exact feedValue_follows byte
  | listOpen => cases h; exact feedListOpen_follows byte
  | listNext items => cases h; exact feedListNext_follows byte items
  | listMore items => cases h; exact feedListMore_follows byte items
  | objectOpen => cases h; exact feedObjectOpen_follows byte
  | objectNext members => cases h; exact feedObjectNext_follows byte members
  | objectMore members => cases h; exact feedObjectMore_follows byte members
  | key reader members => cases h; exact feedKey_follows byte members reader
  | colon name members => cases h; exact feedColon_follows byte members name
  | string reader => cases h; exact feedString_follows byte reader
  | numeral reader => cases h; exact feedNumeral_follows byte reader
  | word rest meaning => cases h; exact feedWord_follows byte rest meaning
  | done d => cases h; exact feedDone_follows byte d

theorem Follows.foldl {s s' : Scan} (h : Follows outer s s') (bytes : List UInt8) :
    Follows outer (bytes.foldl Scan.feed s) (bytes.foldl Scan.feed s') := by
  induction bytes generalizing s s' with
  | nil => exact h
  | cons byte bytes ih => exact ih (h.feed byte)

/-- The end of a text cuts whatever is still open. -/
theorem finish_numeral_cut (reader : NumeralReader) (frame : Frame) (around : List Frame) :
    (finish (.numeral reader (frame :: around))).Cut := by
  rw [finish]
  split
  · cases frame with
    | list items => exact cutList_cut _ _
    | object members name => exact cutObject_cut _ _
  · exact cutAt_cut ⟨_, rfl⟩

/-- Where the text of a value ends, a scan that follows it has the value as well. -/
theorem Follows.settles {s s' : Scan} (h : Follows outer s s') {d : Document}
    (hresult : s.finish.result = (d, false)) (hskip : d.skip = .ok ()) : Settles s' d outer := by
  have hwhole (hcut : s.finish.Cut) : False := by
    obtain ⟨fault, hfault⟩ := hcut.breaks hresult
    cases hfault.symm.trans hskip
  cases s with
  | done d' =>
    cases h
    obtain rfl : d' = d := congrArg Prod.fst hresult
    exact .inl rfl
  | trailing d' => cases congrArg Prod.snd hresult
  | broken d' => exact (hwhole ⟨d', rfl, h⟩).elim
  | numeral reader around =>
    cases around with
    | cons frame around => exact (hwhole (finish_numeral_cut reader frame around)).elim
    | nil =>
      cases h
      by_cases hends : reader.phase.mayEnd
      · rw [finish, if_pos hends] at hresult
        obtain rfl : reader.document = d := congrArg Prod.fst hresult
        exact .inr ⟨reader, rfl, rfl, hends, fun _ hbyte => reader.feed_of_mayEnd hends hbyte⟩
      · rw [finish, if_neg hends] at hwhole
        exact (hwhole (cutAt_cut ⟨_, rfl⟩)).elim
  | value | string | word => exact (hwhole (cutAt_cut ⟨_, rfl⟩)).elim
  | listMore | colon => exact (hwhole (cutAt_cut ⟨_, rfl⟩)).elim
  | listOpen | listNext => exact (hwhole (cutList_cut _ _)).elim
  | objectOpen | objectNext | objectMore | key => exact (hwhole (cutObject_cut _ _)).elim

/-- Wherever a value has to come, the bytes are read as a document. -/
def Denotes (bytes : List UInt8) (d : Document) : Prop :=
  ∀ around, Settles (bytes.foldl Scan.feed (.value around)) d around

/-- A text that can be read free-form by itself is read as the same document anywhere. -/
theorem denotes_of_ofBytes {bytes : ByteArray} {d : Document} (h : Document.ofBytes bytes = (d, false))
    {room : Nat} (hfits : d.Fits room) : Denotes bytes.data.toList d := by
  intro around
  have hstart : Follows around (.value []) (.value around) := rfl
  exact (hstart.foldl bytes.data.toList).settles h hfits.skip

end Scan

open Scan (Denotes)

/-- The outline of an object of two members, from the outlines of their values. -/
theorem ofBytes_pair {bytes : ByteArray} {key key' : String} {first second : List UInt8} {d d' : Document}
    (hfirst : Denotes first d) (hsecond : Denotes second d')
    (hbytes : bytes.data.toList = 0x7b :: (stringBytes key ++ 0x3a ::
      (first ++ 0x2c :: (stringBytes key' ++ 0x3a :: (second ++ [0x7d]))))) :
    Document.ofBytes bytes = (.object [(.ok key, d), (.ok key', d')] none, false) := by
  unfold Document.ofBytes Scan.run
  rw [hbytes, List.foldl_cons]
  change (List.foldl Scan.feed (.objectOpen []) _).finish.result = _
  rw [Scan.foldl_named rfl, List.foldl_append, List.foldl_cons, (hfirst _).feed (by simp)]
  change (List.foldl Scan.feed (.objectMore [(.ok key, d)] []) _).finish.result = _
  rw [Scan.foldl_named rfl, List.foldl_append]
  change (Scan.feed _ 0x7d).finish.result = _
  rw [(hsecond _).feed (by simp)]
  rfl

end BeaconApi.Json
