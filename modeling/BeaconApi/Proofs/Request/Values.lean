import BeaconApi.Proofs.Request.Arrival

namespace BeaconApi

namespace Json

/-- A string, a number or a truth value. -/
def IsScalar : Json → Prop
  | .string _ | .number _ | .bool _ => True
  | .null | .array _ | .object _ => False

/-- A scalar, or an array of scalars. -/
def IsFlat (v : Json) : Prop := v.IsScalar ∨ ∃ items, v = .array items ∧ ∀ item ∈ items, item.IsScalar

/-- A null or an object stands somewhere in a value, however deep in its arrays. -/
inductive Foreign : Json → Prop
  | null : Foreign .null
  | object (members : List (String × Json)) : Foreign (.object members)
  | item {items : List Json} {item : Json} (hmem : item ∈ items) (h : Foreign item) : Foreign (.array items)

/-- An array stands in an array. -/
def Nested (v : Json) : Prop := ∃ items inner, v = .array items ∧ .array inner ∈ items

/-- The text of a scalar: a string stands for itself, the others for their JSON text. -/
def scalarText? : Json → Option String
  | .string s => some s
  | .number n => some (number n).render
  | .bool b => some (bool b).render
  | .null | .array _ | .object _ => none

/-- The texts in a flat value. -/
def flatTexts? : Json → Option (List String)
  | .array items => items.mapM scalarText?
  | v => v.scalarText?.map fun text => [text]

theorem exists_scalarText?_iff {v : Json} : (∃ text, v.scalarText? = some text) ↔ v.IsScalar := by
  cases v <;> simp [scalarText?, IsScalar]

theorem not_isScalar_array (items : List Json) : ¬ (array items).IsScalar := id

theorem exists_flatTexts?_iff {v : Json} : (∃ texts, v.flatTexts? = some texts) ↔ v.IsFlat := by
  cases v with
  | array items =>
    have hitems : (∃ texts, items.mapM scalarText? = some texts) ↔ ∀ item ∈ items, item.IsScalar := by
      induction items with
      | nil => simp
      | cons item items ih =>
        rw [List.forall_mem_cons, ← ih, ← exists_scalarText?_iff, List.mapM_cons]
        cases item.scalarText? <;> cases items.mapM scalarText? <;> simp
    refine hitems.trans ⟨fun h => .inr ⟨items, rfl, h⟩, ?_⟩
    rintro (h | ⟨_, ⟨⟩, h⟩)
    · exact (not_isScalar_array items h).elim
    · exact h
  | _ => simp [flatTexts?, scalarText?, IsFlat, IsScalar]

/-- A value is not flat if a null, an object or an array stands where a scalar has to. -/
theorem not_isFlat_iff {v : Json} : ¬ v.IsFlat ↔ v.Foreign ∨ v.Nested := by
  constructor
  · intro h
    cases v with
    | string | number | bool => exact absurd (.inl trivial) h
    | null => exact .inl .null
    | object members => exact .inl (.object members)
    | array items =>
      obtain ⟨item, hmem, hitem⟩ : ∃ item ∈ items, ¬ item.IsScalar := by
        by_contra hall
        push Not at hall
        exact h (.inr ⟨items, rfl, hall⟩)
      cases item with
      | string | number | bool => exact absurd trivial hitem
      | null => exact .inl (.item hmem .null)
      | object members => exact .inl (.item hmem (.object members))
      | array inner => exact .inr ⟨items, inner, rfl, hmem⟩
  · rintro hbad (hscalar | ⟨items, rfl, hscalars⟩)
    · rcases hbad with hforeign | ⟨items, inner, rfl, -⟩
      · cases hforeign <;> exact hscalar
      · exact hscalar
    · rcases hbad with hforeign | ⟨_, inner, ⟨⟩, hmem⟩
      · cases hforeign with
        | item hmem hitem => cases hitem <;> exact hscalars _ hmem
      · exact hscalars _ hmem

end Json

namespace QueryValue

open Json (Foreign IsFlat Nested)

theorem ofJsonItems?_eq_some_iff {items : List Json} {values : List QueryValue} :
    ofJsonItems? items = some values ↔ List.Forall₂ (fun item value => ofJson? item = some value) items values := by
  induction items generalizing values with
  | nil => simp [ofJsonItems?, eq_comm]
  | cons item items ih =>
    rw [ofJsonItems?]
    cases hitem : ofJson? item with
    | none => cases values <;> simp [hitem]
    | some value =>
      cases hitems : ofJsonItems? items with
      | none => cases values <;> simp [← ih, hitems]
      | some values' => cases values <;> simp [← ih, hitem, hitems]

mutual

/-- Exactly the values with a null or an object in them cannot be turned into query values. -/
theorem ofJson?_eq_none_iff : ∀ {v : Json}, ofJson? v = none ↔ v.Foreign
  | .null => iff_of_true rfl .null
  | .object members => iff_of_true rfl (.object members)
  | .string _ | .number _ | .bool _ => iff_of_false nofun nofun
  | .array items => by
    rw [ofJson?, Option.map_eq_none_iff, ofJsonItems?_eq_none_iff]
    exact ⟨fun ⟨_, hmem, h⟩ => .item hmem h, fun | .item hmem h => ⟨_, hmem, h⟩⟩

theorem ofJsonItems?_eq_none_iff : ∀ {items : List Json},
    ofJsonItems? items = none ↔ ∃ item ∈ items, item.Foreign
  | [] => iff_of_false nofun (by simp)
  | item :: items => by
    have hitem := @ofJson?_eq_none_iff item
    have hitems := @ofJsonItems?_eq_none_iff items
    rw [ofJsonItems?, List.exists_mem_cons_iff, ← hitem, ← hitems]
    cases ofJson? item <;> cases ofJsonItems? items <;> simp

end

theorem ofWritten_eq_ok_iff {v : Json} {value : QueryValue} :
    ofWritten (.ok v) = .ok value ↔ ofJson? v = some value := by
  rw [ofWritten]
  cases ofJson? v <;> simp

theorem ofWritten_of_foreign {v : Json} (h : v.Foreign) :
    ofWritten (.ok v) = .error (.clientUsage "failed to encode query value: unknown type") := by
  rw [ofWritten, ofJson?_eq_none_iff.mpr h]

theorem exists_ofJson? {v : Json} (h : ¬ v.Foreign) : ∃ value, ofJson? v = some value :=
  Option.ne_none_iff_exists'.mp (mt ofJson?_eq_none_iff.mp h)

theorem scalarText?_of_ofJson? {v : Json} {value : QueryValue} (h : ofJson? v = some value) :
    value.scalarText? = v.scalarText? := by
  cases v with
  | null | object => cases h
  | string s => cases h; rfl
  | number n => cases h; exact congrArg some String.empty_append.symm
  | bool b => cases h; cases b <;> rfl
  | array items =>
    obtain ⟨values, -, rfl⟩ := Option.map_eq_some_iff.mp h
    rfl

/-- What is turned into a query value has a text exactly if it is flat. -/
theorem text?_of_ofJson? {v : Json} {value : QueryValue} (h : ofJson? v = some value) :
    value.text? = v.flatTexts?.map ",".intercalate := by
  cases v with
  | array items =>
    obtain ⟨values, hvalues, rfl⟩ := Option.map_eq_some_iff.mp h
    have hscalars : values.mapM scalarText? = items.mapM Json.scalarText? := by
      have hitems := ofJsonItems?_eq_some_iff.mp hvalues
      clear h hvalues
      induction hitems with
      | nil => rfl
      | cons hitem _ ih => rw [List.mapM_cons, List.mapM_cons, scalarText?_of_ofJson? hitem, ih]
    exact congrArg (Option.map ",".intercalate) hscalars
  | null | object => cases h
  | string | number =>
    cases h
    exact congrArg some String.intercalate_singleton.symm
  | bool b =>
    cases h
    cases b <;> exact congrArg some String.intercalate_singleton.symm

theorem nested_of_ofJson?_iff {v : Json} {value : QueryValue} (h : ofJson? v = some value) :
    value.Nested ↔ ¬ v.IsFlat := by
  rw [← Json.exists_flatTexts?_iff]
  have htext := text?_of_ofJson? h
  constructor
  · rintro hnested ⟨texts, htexts⟩
    rw [text?_of_nested hnested, htexts] at htext
    cases htext
  · intro hflat
    by_contra hplain
    rw [text?_of_not_nested hplain] at htext
    obtain ⟨texts, htexts, -⟩ := Option.map_eq_some_iff.mp htext.symm
    exact hflat ⟨texts, htexts⟩

end QueryValue

namespace Query

/-- The text of a query in which a key has a JSON value. -/
def encodeWith (query : Query) (key : String) (v : Json) : Except ApiError String :=
  QueryValue.ofWritten (.ok v) >>= fun value => encode (SortedMap.insert query key value)

variable {query : Query} {key : String} {v : Json}

theorem encodeWith_of_ofJson? {value : QueryValue} (h : QueryValue.ofJson? v = some value) :
    query.encodeWith key v = encode (SortedMap.insert query key value) := by
  rw [encodeWith, QueryValue.ofWritten_eq_ok_iff.mpr h]
  rfl

section Insert

variable {value : QueryValue} (hquery : ∃ text, query.encode = .ok text)
include hquery

/-- Beside values that can be sent, only the one that is set decides. -/
theorem exists_encode_insert_iff :
    (∃ text, encode (SortedMap.insert query key value) = .ok text) ↔ ¬ value.Nested := by
  have hothers := exists_encode_iff.mp hquery
  rw [exists_encode_iff]
  constructor
  · intro h
    exact h key value ((SortedMap.get?_insert ..).trans (if_pos rfl))
  · intro hvalue other found hfound
    rw [SortedMap.get?_insert] at hfound
    split at hfound
    · cases hfound
      exact hvalue
    · exact hothers other found hfound

theorem encode_insert_of_nested (hvalue : value.Nested) :
    encode (SortedMap.insert query key value) = .error (refusal key) := by
  have hothers := exists_encode_iff.mp hquery
  have hset : SortedMap.get? (SortedMap.insert query key value) key = some value :=
    (SortedMap.get?_insert ..).trans (if_pos rfl)
  refine encode_eq_error_iff.mpr ⟨key, value, hset, hvalue, rfl, fun other found hfound hnested => ?_⟩
  rw [SortedMap.get?_insert] at hfound
  split at hfound
  next heq => rw [heq]; exact List.le_refl _
  next => exact absurd hnested (hothers other found hfound)

end Insert

/-- The text of a single parameter. -/
theorem encode_insert_empty {text : String} {value : QueryValue} (h : value.text? = some text) :
    encode (SortedMap.insert .empty key value) = .ok (Percent.encode key ++ "=" ++ Percent.encode text) := by
  have hentry : encodeEntry (key, value) = .ok (Percent.encode key ++ "=" ++ Percent.encode text) := by
    rw [encodeEntry, h]
  have hencode : encode (SortedMap.insert .empty key value) =
      ([(key, value)].mapM encodeEntry).map "&".intercalate := rfl
  rw [hencode, List.mapM_cons, hentry]
  exact congrArg Except.ok (String.intercalate_singleton ..)

/-- Exactly the flat JSON values are sent by `encodeWith`, as their texts with commas between them.
`QueryValue.ofWritten` refuses `Foreign` values; an array in an array passes it, and `encode` refuses it with
the key. `hquery` says that the other values can be sent, since `encode` would fail for their sake otherwise.
The empty query satisfies it. -/
theorem json_value_sent (v : Json) (key : String) (query : Query) (hquery : ∃ text, query.encode = .ok text) :
    ((∃ text, query.encodeWith key v = .ok text) ↔ v.IsFlat) ∧
    (∀ texts, v.flatTexts? = some texts →
      encodeWith .empty key v =
        .ok (Percent.encode key ++ "=" ++ Percent.encode (",".intercalate texts)) ∧
      ∃ text, query.encodeWith key v = .ok text ∧
        ∀ joined, (key, joined) ∈ Form.decode text ↔ joined = ",".intercalate texts) ∧
    (v.Foreign →
      QueryValue.ofWritten (.ok v) = .error (.clientUsage "failed to encode query value: unknown type")) ∧
    (¬ v.Foreign → v.Nested → ∃ value, QueryValue.ofWritten (.ok v) = .ok value ∧
      encode (SortedMap.insert query key value) =
        .error (.clientUsage ("failed to encode query key '" ++ key ++ "': unknown type"))) := by
  refine ⟨?_, fun texts htexts => ?_, QueryValue.ofWritten_of_foreign, fun hforeign hnested => ?_⟩
  · by_cases hforeign : v.Foreign
    · refine iff_of_false ?_ (Json.not_isFlat_iff.mpr (.inl hforeign))
      rw [encodeWith, QueryValue.ofWritten_of_foreign hforeign]
      nofun
    · obtain ⟨value, hvalue⟩ := QueryValue.exists_ofJson? hforeign
      rw [encodeWith_of_ofJson? hvalue, exists_encode_insert_iff hquery,
        QueryValue.nested_of_ofJson?_iff hvalue, not_not]
  · have hflat : v.IsFlat := Json.exists_flatTexts?_iff.mp ⟨texts, htexts⟩
    have hforeign : ¬ v.Foreign := fun hforeign => Json.not_isFlat_iff.mpr (.inl hforeign) hflat
    obtain ⟨value, hvalue⟩ := QueryValue.exists_ofJson? hforeign
    have hplain : ¬ value.Nested := fun h => (QueryValue.nested_of_ofJson?_iff hvalue).mp h hflat
    have htext : value.text? = some (",".intercalate texts) := by
      rw [QueryValue.text?_of_ofJson? hvalue, htexts]
      rfl
    have hjoined : value.joined = ",".intercalate texts :=
      Option.some.inj ((QueryValue.text?_of_not_nested hplain).symm.trans htext)
    rw [encodeWith_of_ofJson? hvalue, encodeWith_of_ofJson? hvalue]
    obtain ⟨text, hencode⟩ : ∃ text, encode (SortedMap.insert query key value) = .ok text :=
      (exists_encode_insert_iff hquery).mpr hplain
    refine ⟨encode_insert_empty htext, text, hencode, fun joined => ?_⟩
    rw [mem_decode_iff hencode, SortedMap.get?_insert, if_pos rfl, ← hjoined]
    simp [eq_comm]
  · obtain ⟨value, hvalue⟩ := QueryValue.exists_ofJson? hforeign
    have hflat : ¬ v.IsFlat := Json.not_isFlat_iff.mpr (.inr hnested)
    exact ⟨value, QueryValue.ofWritten_eq_ok_iff.mpr hvalue,
      encode_insert_of_nested hquery ((QueryValue.nested_of_ofJson?_iff hvalue).mpr hflat)⟩

/-- Beside a slot, a list of scalars is sent and a list in a list is not. -/
theorem mixed_list_sent :
    let slot : Query := SortedMap.insert .empty "slot" (.text "3")
    (∃ text, slot.encode = .ok text) ∧
    encodeWith .empty "id" (.array [.string "a", .bool true, .number (.natural 7)]) = .ok "id=a%2Ctrue%2C7" ∧
    (∃ text, slot.encodeWith "id" (.array [.string "a", .bool true, .number (.natural 7)]) = .ok text ∧
      ∀ joined, ("id", joined) ∈ Form.decode text ↔ joined = "a,true,7") ∧
    ¬ ∃ text, slot.encodeWith "id" (.array [.string "a", .array []]) = .ok text := by
  intro slot
  have hslot : ∃ text, slot.encode = .ok text := ⟨"slot=3", by decide +kernel⟩
  obtain ⟨-, hsent, -, -⟩ :=
    json_value_sent (.array [.string "a", .bool true, .number (.natural 7)]) "id" slot hslot
  obtain ⟨halone, hbeside⟩ := hsent ["a", "true", "7"] (by decide +kernel)
  obtain ⟨hflat, -⟩ := json_value_sent (.array [.string "a", .array []]) "id" slot hslot
  refine ⟨hslot, halone.trans (by decide +kernel), hbeside, fun hsome => ?_⟩
  refine Json.not_isFlat_iff.mpr (.inr ⟨_, [], rfl, ?_⟩) (hflat.mp hsome)
  exact List.mem_cons_of_mem _ List.mem_cons_self

end Query

end BeaconApi
