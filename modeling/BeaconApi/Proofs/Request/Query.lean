import BeaconApi.Proofs.Except
import BeaconApi.Proofs.Text.Pieces
import BeaconApi.Request.Query
import BeaconApi.Server.Incoming

namespace BeaconApi

/-- The pair that an entry of a query is sent as. -/
def Query.pairOf (entry : String × QueryValue) : String × String := (entry.1, entry.2.text?.getD "")

namespace Query

theorem encodeEntry_eq_ok {entry : String × QueryValue} {text : String}
    (h : encodeEntry entry = .ok text) : Utf8.encode text = Form.pieceOf (pairOf entry) := by
  unfold encodeEntry at h
  split at h
  next value hvalue =>
    cases h
    rw [Utf8.encode_append, Utf8.encode_append, Percent.encode_codes, Percent.encode_codes, pairOf, hvalue,
      List.append_assoc]
    rfl
  · cases h

variable {query : Query} {text : String}

theorem encode_eq_ok (h : query.encode = .ok text) :
    Utf8.encode text = [0x26].intercalate ((query.entries.map pairOf).map Form.pieceOf) := by
  obtain ⟨texts, htexts, rfl⟩ := map_eq_ok_iff.mp h
  have hpieces : texts.map Utf8.encode = (query.entries.map pairOf).map Form.pieceOf := by
    have hentries := mapM_eq_ok_iff.mp htexts
    clear h htexts
    generalize query.entries = entries at hentries
    induction hentries with
    | nil => rfl
    | cons hentry _ ih => rw [List.map_cons, encodeEntry_eq_ok hentry, ih, List.map_cons, List.map_cons]
  rw [Utf8.encode_intercalate, hpieces]
  rfl

/-- The pairs that a server finds in the text of a query. -/
theorem decode_of_encode (h : query.encode = .ok text) : Form.decode text = query.entries.map pairOf :=
  Form.decode_of_encode_eq (encode_eq_ok h)

/-- A query without lists. -/
structure Flat (query : Query) : Prop where
  texts : ∀ entry ∈ query.entries, ∃ s, entry.2 = .text s

theorem flat_empty : Flat .empty := ⟨fun _ hnone => nomatch hnone⟩

theorem Flat.insert {query : Query} (h : query.Flat) (key s : String) :
    Flat (SortedMap.insert query key (.text s)) := by
  refine ⟨fun entry hentry => ?_⟩
  rcases SortedMap.mem_of_mem_place hentry with rfl | hold
  · exact ⟨s, rfl⟩
  · exact h.texts entry hold

theorem Flat.insertSome {query : Query} (h : query.Flat) (key : String) {α : Type} (x? : Option α)
    (display : α → String) : Flat (SortedMap.insertSome query key (x?.map fun x => .text (display x))) := by
  cases x? with
  | none => exact h
  | some x => exact h.insert key (display x)

/-- A query without lists can be written. -/
theorem Flat.exists_encode {query : Query} (h : query.Flat) : ∃ text, query.encode = .ok text := by
  have hentries : ∃ texts, query.entries.mapM encodeEntry = .ok texts := by
    refine exists_mapM_eq_ok fun entry hentry => ?_
    obtain ⟨s, hs⟩ := h.texts entry hentry
    rw [encodeEntry, hs]
    exact ⟨_, rfl⟩
  obtain ⟨texts, htexts⟩ := hentries
  exact ⟨_, map_eq_ok_iff.mpr ⟨texts, htexts, rfl⟩⟩

/-- A hash sign, which would end the query, is not written. -/
theorem hash_not_mem (h : query.encode = .ok text) : '#' ∉ text.toList := by
  intro hmem
  have hbyte : (0x23 : UInt8) ∈ Utf8.encode text := by
    rw [Utf8.encode_eq_flatMap]
    exact List.mem_flatMap.mpr ⟨'#', hmem, by decide⟩
  rw [encode_eq_ok h] at hbyte
  rcases Text.mem_of_mem_intercalate hbyte with heq | ⟨piece, hpiece, hmem⟩
  · exact absurd heq (by decide)
  · obtain ⟨pair, _, rfl⟩ := List.mem_map.mp hpiece
    exact Form.not_mem_pieceOf pair (by simp) hmem

end Query

theorem SortedMap.lookup_map {α β : Type} (f : α → β) (entries : List (String × α)) (key : String) :
    (((entries.map fun e => (e.1, f e.2)).filter (·.1 = key)).map Prod.snd).head? =
      (entries.lookup key).map f := by
  induction entries with
  | nil => rfl
  | cons entry entries ih =>
    obtain ⟨k, v⟩ := entry
    rw [lookup_cons]
    by_cases hkey : key = k
    · simp [hkey]
    · simpa [hkey, Ne.symm hkey] using ih

theorem SortedMap.get?_insertSome {α : Type} (map : SortedMap α) (key other : String) (value? : Option α) :
    (map.insertSome key value?).get? other =
      if other = key then value?.or (map.get? other) else map.get? other := by
  cases value? with
  | none => simp [insertSome]
  | some value => exact get?_insert ..

/-- A handler finds the text of each value of the query under the key of the value. -/
theorem IncomingRequest.queryFirst?_of_encode {query : Query} {text : String}
    (h : query.encode = .ok text) {r : IncomingRequest} (hr : r.queryValues = .group (Form.decode text))
    (name : String) : r.queryFirst? name = (query.get? name).map fun value => value.text?.getD "" := by
  have hfirst (values : Option (List String)) : values.bind List.head? = (values.getD []).head? := by
    cases values <;> rfl
  rw [queryFirst?, query?, hr, hfirst, SortedMap.getD_get?_group, Query.decode_of_encode h]
  exact SortedMap.lookup_map (fun value : QueryValue => value.text?.getD "") query.entries name

end BeaconApi
