import BeaconApi.Client.Transport
import BeaconApi.Proofs.Map.Sorted
import BeaconApi.Proofs.Node.Loopback
import BeaconApi.Proofs.Text.Order

namespace BeaconApi

namespace QueryValue

/-- A list with a list among its items. -/
def Nested : QueryValue → Prop
  | .str _ | .text _ => False
  | .list items => ∃ inner, .list inner ∈ items

/-- The texts in a value: those of its items, if it is a list. -/
def parts : QueryValue → List String
  | .str s | .text s => [s]
  | .list items => items.filterMap scalarText?

/-- The text that a value is sent as. -/
def joined (value : QueryValue) : String := ",".intercalate value.parts

theorem mapM_scalarText?_of_nested {items : List QueryValue} {inner : List QueryValue} (h : .list inner ∈ items) :
    items.mapM scalarText? = none := by
  induction items with
  | nil => cases h
  | cons item items ih =>
    rw [List.mapM_cons]
    rcases List.mem_cons.mp h with rfl | h
    · rfl
    · rw [ih h]
      cases item.scalarText? <;> rfl

theorem mapM_scalarText? {items : List QueryValue} (h : ∀ inner, .list inner ∉ items) :
    items.mapM scalarText? = some (items.filterMap scalarText?) := by
  induction items with
  | nil => rfl
  | cons item items ih =>
    have hrest := ih fun inner hmem => h inner (List.mem_cons_of_mem _ hmem)
    rw [List.mapM_cons, hrest]
    cases item with
    | str s | text s => rfl
    | list inner => exact absurd List.mem_cons_self (h inner)

theorem text?_of_nested {value : QueryValue} (h : value.Nested) : value.text? = none := by
  cases value with
  | str s | text s => exact h.elim
  | list items =>
    obtain ⟨inner, hinner⟩ := h
    rw [text?, mapM_scalarText?_of_nested hinner]
    rfl

theorem text?_of_not_nested {value : QueryValue} (h : ¬ value.Nested) : value.text? = some value.joined := by
  cases value with
  | str s | text s => rfl
  | list items =>
    rw [text?, mapM_scalarText? fun inner hinner => h ⟨inner, hinner⟩]
    rfl

end QueryValue

namespace Query

/-- The refusal to send a list in a list under a key. -/
def refusal (key : String) : ApiError :=
  .clientUsage ("failed to encode query key '" ++ key ++ "': unknown type")

theorem encodeEntry_of_nested {entry : String × QueryValue} (h : entry.2.Nested) :
    encodeEntry entry = .error (refusal entry.1) := by
  rw [encodeEntry, QueryValue.text?_of_nested h]
  rfl

theorem exists_encodeEntry_iff {entry : String × QueryValue} :
    (∃ text, encodeEntry entry = .ok text) ↔ ¬ entry.2.Nested := by
  constructor
  · rintro ⟨text, htext⟩ h
    cases htext.symm.trans (encodeEntry_of_nested h)
  · intro h
    rw [encodeEntry, QueryValue.text?_of_not_nested h]
    exact ⟨_, rfl⟩

theorem encodeEntry_eq_error_iff {entry : String × QueryValue} {e : ApiError} :
    encodeEntry entry = .error e ↔ entry.2.Nested ∧ refusal entry.1 = e := by
  constructor
  · intro he
    have hnested : entry.2.Nested := by
      by_contra hnot
      obtain ⟨text, htext⟩ := exists_encodeEntry_iff.mpr hnot
      cases htext.symm.trans he
    exact ⟨hnested, Except.error.inj ((encodeEntry_of_nested hnested).symm.trans he)⟩
  · rintro ⟨hnested, rfl⟩
    exact encodeEntry_of_nested hnested

variable {query : Query}

/-- A query is refused for the first of its keys that has a list in a list. -/
theorem encode_eq_error_iff {e : ApiError} :
    query.encode = .error e ↔ ∃ key value, query.get? key = some value ∧ value.Nested ∧ refusal key = e ∧
      ∀ other value, query.get? other = some value → value.Nested → Utf8.encode key ≤ Utf8.encode other := by
  have hentries : query.encode = .error e ↔ query.entries.mapM encodeEntry = .error e := by
    rw [encode]
    cases query.entries.mapM encodeEntry <;> simp [Except.map]
  rw [hentries, mapM_eq_error_iff]
  constructor
  · rintro ⟨before, ⟨key, value⟩, after, hsplit, hbefore, hfails⟩
    obtain ⟨hnested, he⟩ := encodeEntry_eq_error_iff.mp hfails
    have hmem : (key, value) ∈ query.entries := by simp [hsplit]
    refine ⟨key, value, SortedMap.mem_entries_iff.mp hmem, hnested, he, fun other value' hother hnested' => ?_⟩
    rw [Utf8.encode_le_encode_iff]
    rcases SortedMap.mem_before_or_le hsplit hother with hmem' | hle
    · exact absurd hnested' (exists_encodeEntry_iff.mp (hbefore _ hmem'))
    · exact hle
  · rintro ⟨key, value, hvalue, hnested, he, hfirst⟩
    obtain ⟨before, after, hsplit⟩ := List.append_of_mem (SortedMap.mem_entries_iff.mpr hvalue)
    refine ⟨before, (key, value), after, hsplit, fun entry hentry => ?_,
      encodeEntry_eq_error_iff.mpr ⟨hnested, he⟩⟩
    rw [exists_encodeEntry_iff]
    intro hother
    have hlt := SortedMap.lt_of_mem_before hsplit hentry
    have hmem : (entry.1, entry.2) ∈ query.entries := hsplit ▸ List.mem_append_left _ hentry
    have hle := hfirst entry.1 entry.2 (SortedMap.mem_entries_iff.mp hmem) hother
    exact Std.not_lt.mpr (Utf8.encode_le_encode_iff.mp hle) hlt

/-- A query can be sent if no value has a list in a list. -/
theorem exists_encode_iff :
    (∃ text, query.encode = .ok text) ↔ ∀ key value, query.get? key = some value → ¬ value.Nested := by
  have hok : (∃ text, query.encode = .ok text) ↔ ∃ texts, query.entries.mapM encodeEntry = .ok texts := by
    rw [encode]
    cases query.entries.mapM encodeEntry <;> simp [Except.map]
  rw [hok]
  constructor
  · rintro ⟨texts, htexts⟩ key value hvalue
    exact exists_encodeEntry_iff.mp (exists_of_mapM_eq_ok htexts (SortedMap.mem_entries_iff.mpr hvalue))
  · intro h
    refine exists_mapM_eq_ok fun entry hentry => exists_encodeEntry_iff.mpr ?_
    exact h entry.1 entry.2 (SortedMap.mem_entries_iff.mp hentry)

/-- The pairs that a server finds are the values of the query, joined and with their keys. -/
theorem mem_decode_iff {text : String} (h : query.encode = .ok text) {key joined : String} :
    (key, joined) ∈ Form.decode text ↔ ∃ value, query.get? key = some value ∧ value.joined = joined := by
  have hplain := exists_encode_iff.mp ⟨text, h⟩
  have hpair {key : String} {value : QueryValue} (hvalue : query.get? key = some value) :
      pairOf (key, value) = (key, value.joined) := by
    rw [pairOf, QueryValue.text?_of_not_nested (hplain key value hvalue)]
    rfl
  rw [decode_of_encode h, List.mem_map]
  constructor
  · rintro ⟨⟨k, value⟩, hmem, heq⟩
    have hvalue := SortedMap.mem_entries_iff.mp hmem
    rw [hpair hvalue] at heq
    obtain ⟨rfl, rfl⟩ := Prod.mk.inj heq
    exact ⟨value, hvalue, rfl⟩
  · rintro ⟨value, hvalue, rfl⟩
    exact ⟨(key, value), SortedMap.mem_entries_iff.mpr hvalue, hpair hvalue⟩

theorem ascending_decode {text : String} (h : query.encode = .ok text) :
    (Form.decode text).Pairwise fun a b => Utf8.encode a.1 < Utf8.encode b.1 := by
  rw [decode_of_encode h, List.pairwise_map]
  exact query.ascending.imp fun hlt => Utf8.encode_lt_encode_iff.mpr hlt

end Query

/-- The pieces of a text between its commas, without the empty ones. -/
def commaPieces (s : String) : List String :=
  ((Text.split ',' s.toList).filter (!·.isEmpty)).map String.ofList

theorem commaPieces_intercalate (texts : List String) :
    commaPieces (",".intercalate texts) = texts.flatMap commaPieces := by
  induction texts with
  | nil => rfl
  | cons text texts ih =>
    cases texts with
    | nil => rw [String.intercalate_singleton, List.flatMap_singleton]
    | cons next texts =>
      have hlist : (text ++ "," ++ ",".intercalate (next :: texts)).toList =
          text.toList ++ ',' :: (",".intercalate (next :: texts)).toList := by simp
      rw [String.intercalate_cons_cons, commaPieces, hlist, Text.split_append_cons, List.filter_append,
        List.map_append, ← commaPieces, ← commaPieces, ih]
      exact List.flatMap_cons.symm

theorem mem_commaPieces {s piece : String} (h : piece ∈ commaPieces s) : piece ≠ "" ∧ ',' ∉ piece.toList := by
  obtain ⟨text, htext, rfl⟩ := List.mem_map.mp h
  obtain ⟨hsplit, hfull⟩ := List.mem_filter.mp htext
  rw [String.toList_ofList]
  refine ⟨fun hempty => ?_, Text.not_mem_of_mem_split hsplit⟩
  have hnil : text = [] := String.ofList_inj.mp hempty
  rw [hnil] at hfull
  exact absurd hfull (by decide)

theorem commaPieces_of_plain {s : String} (hne : s ≠ "") (hcomma : ',' ∉ s.toList) : commaPieces s = [s] := by
  have hfull : s.toList ≠ [] := fun hnil => hne (String.toList_inj.mp hnil)
  rw [commaPieces, Text.split_of_not_mem hcomma]
  simp [hfull]

/-- Texts are told from each other between commas if none is empty or has a comma in it. -/
theorem flatMap_commaPieces_eq_self_iff {texts : List String} :
    texts.flatMap commaPieces = texts ↔ ∀ text ∈ texts, text ≠ "" ∧ ',' ∉ text.toList := by
  constructor
  · intro h text htext
    rw [← h] at htext
    obtain ⟨_, _, hpiece⟩ := List.mem_flatMap.mp htext
    exact mem_commaPieces hpiece
  · intro h
    induction texts with
    | nil => rfl
    | cons text texts ih =>
      obtain ⟨⟨hne, hcomma⟩, hrest⟩ := List.forall_mem_cons.mp h
      rw [List.flatMap_cons, commaPieces_of_plain hne hcomma, ih hrest]
      rfl

namespace Router

/-- A handler gets the pairs of the query string in groups. -/
theorem queryValues_of_receive {captures : List (String × List Char)} {text : String} {body : ByteArray}
    {r : IncomingRequest} (h : receive captures text body = .ok r) :
    r.queryValues = .group (Form.decode text) := by
  cases hbind : bindParams captures .empty with
  | error refusal =>
    unfold receive at h
    rw [hbind] at h
    cases h
  | ok bound =>
    rw [receive_of_bindParams_eq_ok text body hbind] at h
    split at h
    · cases h
    · cases h
      rfl

end Router

namespace IncomingRequest

variable {query : Query} {text : String} (h : query.encode = .ok text) {r : IncomingRequest}
  (hr : r.queryValues = .group (Form.decode text)) (key : String)
include h hr

theorem query?_of_encode : r.query? key = (query.get? key).map fun value => [value.joined] := by
  have hplain := Query.exists_encode_iff.mp ⟨text, h⟩
  have hpairs : (Form.decode text).filter (·.1 = key) =
      (query.get? key).toList.map fun value => (key, value.joined) := by
    have hkeys : (query.entries.map Query.pairOf).filter (·.1 = key) =
        (query.entries.filter (·.1 = key)).map Query.pairOf := List.filter_map ..
    rw [Query.decode_of_encode h, hkeys, SortedMap.filter_entries, List.map_map]
    refine List.map_congr_left fun value hvalue => ?_
    have hvalue : query.get? key = some value := Option.mem_toList.mp hvalue
    change Query.pairOf (key, value) = _
    rw [Query.pairOf, QueryValue.text?_of_not_nested (hplain key value hvalue)]
    rfl
  rw [query?, hr, SortedMap.get?_group, hpairs]
  cases query.get? key with
  | none => rfl
  | some value => rfl

/-- A handler that takes the values of a key apart finds the items that were sent, each of them taken
apart at the commas in it. -/
theorem queryList_of_encode :
    r.queryList key = ((query.get? key).elim [] QueryValue.parts).flatMap commaPieces := by
  change ((r.query? key).getD []).flatMap commaPieces = _
  rw [query?_of_encode h hr]
  cases query.get? key with
  | none => rfl
  | some value =>
    change [value.joined].flatMap commaPieces = value.parts.flatMap commaPieces
    rw [List.flatMap_singleton, QueryValue.joined, commaPieces_intercalate]

end IncomingRequest

namespace Query

/-- A query that is refused: the error names the first key with a list in a list, nothing is sent, and
the outcome of the request is that error. -/
structure Refused (query : Query) (e : ApiError) : Prop where
  names_first : ∃ key value, query.get? key = some value ∧ value.Nested ∧
    (∀ other value, query.get? other = some value → value.Nested → Utf8.encode key ≤ Utf8.encode other) ∧
    e = .clientUsage ("failed to encode query key '" ++ key ++ "': unknown type")
  unsent {m : Type → Type} [Monad m] (client : HttpClient) (transport : Transport m) (action : Action)
    (path : String) : (client.connect transport).request ⟨action, path, query⟩ = pure (.failed e)
  decode (α : Type) [Payload α] : (Outcome.failed e).decode = (.error e : Except ApiError (UInt16 × α))
  discard : (Outcome.failed e).discard = .error e

/-- A query that arrives: in the URL it is a text that a server takes apart into one pair for each key,
in the order of the bytes of the keys, and so a handler finds its values and nothing else. -/
structure Arrives (query : Query) (text : String) : Prop where
  carried {r : Request} {base : String} (hquery : r.query = query) (hpath : IsPath r.path)
    (hbase : dropTrailingSlashes base = base) :
    ∃ target, r.url base = .ok (base ++ target) ∧ Http.Target.ofString target = ⟨r.path, text⟩
  ascending : (Form.decode text).Pairwise fun a b => Utf8.encode a.1 < Utf8.encode b.1
  pairs (key joined : String) :
    (key, joined) ∈ Form.decode text ↔ ∃ value, query.get? key = some value ∧ value.joined = joined
  received {captures : List (String × List Char)} {body : ByteArray} (hbody : body.size ≤ Router.maxBodySize)
    {bound : IncomingRequest} (hcaptures : Router.bindParams captures .empty = .ok bound) :
    ∃ r, Router.receive captures text body = .ok r
  query? {captures : List (String × List Char)} {body : ByteArray} {r : IncomingRequest}
    (h : Router.receive captures text body = .ok r) (key : String) :
    r.query? key = (query.get? key).map fun value => [value.joined]
  queryList {captures : List (String × List Char)} {body : ByteArray} {r : IncomingRequest}
    (h : Router.receive captures text body = .ok r) (key : String) :
    r.queryList key = ((query.get? key).elim [] QueryValue.parts).flatMap commaPieces
  queryList_eq_parts_iff {captures : List (String × List Char)} {body : ByteArray} {r : IncomingRequest}
    (h : Router.receive captures text body = .ok r) {key : String} {value : QueryValue}
    (hvalue : query.get? key = some value) :
    r.queryList key = value.parts ↔ ∀ part ∈ value.parts, part ≠ "" ∧ ',' ∉ part.toList

theorem refused {query : Query} {e : ApiError} (h : query.encode = .error e) : query.Refused e := by
  obtain ⟨key, value, hvalue, hnested, he, hfirst⟩ := encode_eq_error_iff.mp h
  refine ⟨⟨key, value, hvalue, hnested, hfirst, he.symm⟩, fun client transport action path => ?_,
    fun α _ => rfl, rfl⟩
  have hnonempty : query.isEmpty = false := by
    have hmem := SortedMap.mem_entries_iff.mpr hvalue
    rw [SortedMap.isEmpty, List.isEmpty_eq_false_iff]
    exact List.ne_nil_of_mem hmem
  have hurl : Request.url ⟨action, path, query⟩ client.address = .error e := by
    rw [Request.url, hnonempty, h]
    rfl
  rw [HttpClient.connect]
  dsimp only
  rw [hurl]

theorem arrives {query : Query} {text : String} (h : query.encode = .ok text) : query.Arrives text := by
  refine ⟨fun hquery hpath hbase => Request.exists_url hpath (hquery ▸ h) hbase, ascending_decode h,
    fun key joined => mem_decode_iff h, fun {_ _} hbody {_} hcaptures => ?_, fun {_ _ _} hr key => ?_,
    fun {_ _ _} hr key => ?_, fun {_ _ _} hr {key value} hvalue => ?_⟩
  · rw [Router.receive_of_bindParams_eq_ok text _ hcaptures, if_neg (Nat.not_lt.mpr hbody)]
    exact ⟨_, rfl⟩
  · exact IncomingRequest.query?_of_encode h (Router.queryValues_of_receive hr) key
  · exact IncomingRequest.queryList_of_encode h (Router.queryValues_of_receive hr) key
  · rw [IncomingRequest.queryList_of_encode h (Router.queryValues_of_receive hr), hvalue]
    exact flatMap_commaPieces_eq_self_iff

theorem exists_encode_eq_error_iff {query : Query} :
    (∃ e, query.encode = .error e) ↔ ∃ key value, query.get? key = some value ∧ value.Nested := by
  have hsplit : (∃ e, query.encode = .error e) ↔ ¬ ∃ text, query.encode = .ok text := by
    cases query.encode <;> simp
  rw [hsplit, exists_encode_iff]
  push Not
  rfl

/-- Queries with the same text have the same values, joined. -/
theorem joined_eq_of_encode_eq {query other : Query} {text : String} (h : query.encode = .ok text)
    (hother : other.encode = .ok text) (key : String) :
    (query.get? key).map QueryValue.joined = (other.get? key).map QueryValue.joined := by
  ext joined
  rw [Option.map_eq_some_iff, Option.map_eq_some_iff, ← mem_decode_iff h, ← mem_decode_iff hother]

/-- A query is refused by `Query.encode` exactly if a list stands in a list, and a text that it gives `Arrives`:
each key is found with its value and no other. Queries with one text agree on `QueryValue.joined` only, since a
list and a text with commas are sent alike. `SortedMap.ofList` depends on the order within each key alone. No
premise on the query is needed. -/
theorem arrives_as_sent (query : Query) :
    ((∃ e, query.encode = .error e) ↔ ∃ key value, query.get? key = some value ∧ value.Nested) ∧
    (∀ e, query.encode = .error e → query.Refused e) ∧
    (∀ text, query.encode = .ok text → query.Arrives text) ∧
    (∀ (other : Query) (text : String), query.encode = .ok text → other.encode = .ok text →
      ∀ key, (query.get? key).map QueryValue.joined = (other.get? key).map QueryValue.joined) ∧
    ∀ entries other : List (String × QueryValue),
      (∀ key, entries.filter (·.1 = key) = other.filter (·.1 = key)) →
      (SortedMap.ofList entries : Query) = SortedMap.ofList other :=
  ⟨exists_encode_eq_error_iff, fun _ => refused, fun _ => arrives, fun _ _ => joined_eq_of_encode_eq,
    fun _ _ => SortedMap.ofList_congr⟩

end Query

end BeaconApi
