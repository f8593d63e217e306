import BeaconApi.Proofs.Http.Header
import BeaconApi.Proofs.Map.Sorted
import BeaconApi.Proofs.Server.Sending
import BeaconApi.Proofs.Text.Order

namespace BeaconApi

/-- The last entry that passes a test is the one with the largest key. -/
theorem SortedMap.getLast?_filter_eq_some_iff {α : Type} {map : SortedMap α} {p : String × α → Bool}
    {key : String} {value : α} :
    (map.entries.filter p).getLast? = some (key, value) ↔ map.get? key = some value ∧ p (key, value) = true ∧
      ∀ other found, map.get? other = some found → p (other, found) = true →
        Utf8.encode other ≤ Utf8.encode key := by
  have hascending := map.ascending.filter p
  have hmem {key : String} {value : α} :
      (key, value) ∈ map.entries.filter p ↔ map.get? key = some value ∧ p (key, value) = true := by
    rw [List.mem_filter, mem_entries_iff]
  constructor
  · intro hlast
    obtain ⟨before, hsplit⟩ := List.getLast?_eq_some_iff.mp hlast
    rw [hsplit] at hascending hmem
    obtain ⟨hvalue, hpasses⟩ := hmem.mp (List.mem_append_right _ List.mem_cons_self)
    refine ⟨hvalue, hpasses, fun other found hfound hother => Utf8.encode_le_encode_iff.mpr ?_⟩
    rcases List.mem_append.mp (hmem.mpr ⟨hfound, hother⟩) with hbefore | hself
    · exact Std.le_of_lt ((List.pairwise_append.mp hascending).2.2 _ hbefore _ List.mem_cons_self)
    · obtain ⟨rfl, -⟩ := Prod.mk.inj (List.mem_singleton.mp hself)
      exact Std.le_refl _
  · rintro ⟨hvalue, hpasses, hlargest⟩
    have hself := hmem.mpr ⟨hvalue, hpasses⟩
    obtain ⟨⟨last, found⟩, hlast⟩ := Option.ne_none_iff_exists'.mp
      (mt List.getLast?_eq_none_iff.mp (List.ne_nil_of_mem hself))
    obtain ⟨before, hsplit⟩ := List.getLast?_eq_some_iff.mp hlast
    rw [hsplit] at hascending hself hmem
    obtain ⟨hfound, hlastPasses⟩ := hmem.mp (List.mem_append_right _ List.mem_cons_self)
    rcases List.mem_append.mp hself with hbefore | hself
    · have hlt : key < last := (List.pairwise_append.mp hascending).2.2 _ hbefore _ List.mem_cons_self
      exact absurd hlt (Std.not_lt.mpr (Utf8.encode_le_encode_iff.mp (hlargest last found hfound hlastPasses)))
    · rw [hlast, List.mem_singleton.mp hself]

namespace Http

/-- Whether a header can be sent. -/
def canSend (header : String × String) : Bool := (headerName? header.1).isSome && isHeaderValue header.2

theorem canSend_iff {name value : String} : canSend (name, value) = true ↔ IsHeader name value := by
  have hname : (headerName? name).isSome = true ↔ IsHeaderName name := by
    rw [Option.isSome_iff_exists]
    simp only [headerName?_eq_some_iff, exists_and_left, exists_eq', and_true]
  rw [canSend, Bool.and_eq_true, hname, isHeaderValue_iff]
  exact ⟨fun ⟨hname, hvalue⟩ => ⟨hname, hvalue⟩, fun h => ⟨h.name, h.value⟩⟩

end Http

/-- Of the headers whose names differ only in case and that can be sent, the one that stands: the last one
in the order of the bytes. -/
structure SortedMap.Stands (headers : SortedMap String) (name value : String) : Prop where
  set : headers.get? name = some value
  header : Http.IsHeader name value
  last {other found : String} : headers.get? other = some found → Http.IsHeader other found →
    other.toLower = name.toLower → Utf8.encode other ≤ Utf8.encode name

/-- For every header that can be sent there is one that stands. -/
theorem SortedMap.exists_stands {headers : SortedMap String} {name value : String}
    (hset : headers.get? name = some value) (hheader : Http.IsHeader name value) :
    ∃ other found, other.toLower = name.toLower ∧ headers.Stands other found := by
  have hpasses {other found : String} : (Http.canSend (other, found) && other.toLower = name.toLower) = true ↔
      Http.IsHeader other found ∧ other.toLower = name.toLower := by
    rw [Bool.and_eq_true, decide_eq_true_eq, Http.canSend_iff]
  have hself : (name, value) ∈
      headers.entries.filter fun header => Http.canSend header && header.1.toLower = name.toLower :=
    List.mem_filter.mpr ⟨mem_entries_iff.mpr hset, hpasses.mpr ⟨hheader, rfl⟩⟩
  obtain ⟨⟨other, found⟩, hlast⟩ := Option.ne_none_iff_exists'.mp
    (mt List.getLast?_eq_none_iff.mp (List.ne_nil_of_mem hself))
  obtain ⟨hother, hstands, hlargest⟩ := getLast?_filter_eq_some_iff.mp hlast
  obtain ⟨hheader, hname⟩ := hpasses.mp hstands
  refine ⟨other, found, hname, hother, hheader, fun hfound hsendable hsame => hlargest _ _ hfound ?_⟩
  exact hpasses.mpr ⟨hsendable, hsame.trans hname⟩

namespace PreparedResponse

/-- The failure to send a code. -/
def invalidCode (code : UInt16) : ApiError := .encoding ("invalid status code " ++ codeText code)

/-- The failure to send a header. -/
def invalidHeader (name : String) : ApiError := .encoding ("invalid response header " ++ Text.quote name)

/-- The failure to write a body that has no text. -/
def bodyFailures : Option Written → List ApiError
  | some (.error reason) => [.encoding reason]
  | some (.ok _) | none => []

/-- Send one more header, if it can be sent. -/
def writeHeader (state : SortedMap String × List ApiError) (header : String × String) :
    SortedMap String × List ApiError :=
  if Http.canSend header then (state.1.insert header.1.toLower header.2, state.2)
  else (state.1, state.2 ++ [invalidHeader header.1])

theorem writeHeaders_eq_foldl (headers : SortedMap String) :
    writeHeaders headers = headers.entries.foldl writeHeader (.empty, []) := by
  rw [writeHeaders]
  congr 1
  funext state header
  obtain ⟨sent, failures⟩ := state
  obtain ⟨name, value⟩ := header
  rw [writeHeader, Http.canSend]
  dsimp only
  cases hname : Http.headerName? name with
  | none => rfl
  | some key =>
    obtain ⟨-, rfl⟩ := Http.headerName?_eq_some_iff.mp hname
    cases Http.isHeaderValue value <;> rfl

/-- The headers that can be sent are sent and the others are reported, each kind in its order. -/
theorem foldl_writeHeader (headers : List (String × String)) (sent : SortedMap String)
    (failures : List ApiError) :
    headers.foldl writeHeader (sent, failures) =
      (((headers.filter Http.canSend).map fun header => (header.1.toLower, header.2)).foldl
          (fun sent (header : String × String) => sent.insert header.1 header.2) sent,
        failures ++ (headers.filter (!Http.canSend ·)).map fun header => invalidHeader header.1) := by
  induction headers generalizing sent failures with
  | nil => simp
  | cons header headers ih =>
    by_cases h : Http.canSend header = true
    · rw [List.foldl_cons, writeHeader, if_pos h, ih]
      simp [h]
    · rw [List.foldl_cons, writeHeader, if_neg h, ih]
      simp [h]

theorem writeHeaders_fst (headers : SortedMap String) :
    (writeHeaders headers).1 =
      .ofList ((headers.entries.filter Http.canSend).map fun header => (header.1.toLower, header.2)) := by
  rw [writeHeaders_eq_foldl, foldl_writeHeader]
  rfl

theorem writeHeaders_snd (headers : SortedMap String) :
    (writeHeaders headers).2 =
      (headers.entries.filter (!Http.canSend ·)).map fun header => invalidHeader header.1 := by
  rw [writeHeaders_eq_foldl, foldl_writeHeader]
  rfl

/-- Under each name stands the last of the headers with it that can be sent. -/
theorem get?_writeHeaders {headers : SortedMap String} {key value : String} :
    (writeHeaders headers).1.get? key = some value ↔ ∃ name, name.toLower = key ∧ headers.Stands name value := by
  have hfilter : ((headers.entries.filter Http.canSend).map fun header => (header.1.toLower, header.2)).filter
      (·.1 = key) =
      (headers.entries.filter fun header => Http.canSend header && header.1.toLower = key).map
        fun header => (header.1.toLower, header.2) := by
    rw [List.filter_map, List.filter_filter]
    simp only [Function.comp_def, Bool.and_comm]
  rw [writeHeaders_fst, SortedMap.get?_ofList, hfilter, List.getLast?_map, Option.map_map, Option.map_eq_some_iff]
  constructor
  · rintro ⟨⟨name, value⟩, hlast, rfl⟩
    obtain ⟨hset, hpasses, hlargest⟩ := SortedMap.getLast?_filter_eq_some_iff.mp hlast
    rw [Bool.and_eq_true, decide_eq_true_eq, Http.canSend_iff] at hpasses
    refine ⟨name, hpasses.2, hset, hpasses.1, fun hother hheader hname => hlargest _ _ hother ?_⟩
    rw [Bool.and_eq_true, decide_eq_true_eq, Http.canSend_iff]
    exact ⟨hheader, hname.trans hpasses.2⟩
  · rintro ⟨name, rfl, hstands⟩
    refine ⟨(name, value), SortedMap.getLast?_filter_eq_some_iff.mpr ⟨hstands.set, ?_, ?_⟩, rfl⟩
    · rw [Bool.and_eq_true, decide_eq_true_eq, Http.canSend_iff]
      exact ⟨hstands.header, rfl⟩
    · intro other found hfound hpasses
      rw [Bool.and_eq_true, decide_eq_true_eq, Http.canSend_iff] at hpasses
      exact hstands.last hfound hpasses.1 hpasses.2

/-- The names of the headers that cannot be sent, in the order of their bytes. -/
theorem exists_invalid (headers : SortedMap String) :
    ∃ bad : List String, (bad.Pairwise fun a b => Utf8.encode a < Utf8.encode b) ∧
      (∀ name, name ∈ bad ↔ ∃ value, headers.get? name = some value ∧ ¬ Http.IsHeader name value) ∧
      (writeHeaders headers).2 = bad.map invalidHeader := by
  refine ⟨(headers.entries.filter (!Http.canSend ·)).map Prod.fst, ?_, fun name => ?_, ?_⟩
  · exact List.pairwise_map.mpr ((headers.ascending.filter _).imp Utf8.encode_lt_encode_iff.mpr)
  · have hbad {value : String} : (!Http.canSend (name, value)) = true ↔ ¬ Http.IsHeader name value := by
      rw [Bool.not_eq_true', ← Bool.not_eq_true, Http.canSend_iff]
    simp only [List.mem_map, List.mem_filter, Prod.exists, exists_and_right, exists_eq_right,
      SortedMap.mem_entries_iff, hbad]
  · rw [writeHeaders_snd, List.map_map]
    rfl

/-- How a prepared response is sent and reported. -/
structure Accounts (r : PreparedResponse) (sent : Http.Response) (failures : List ApiError) : Prop where
  status : sent.status = if 100 ≤ r.code ∧ r.code ≤ 999 then r.code else 500
  failures : ∃ bad : List String, (bad.Pairwise fun a b => Utf8.encode a < Utf8.encode b) ∧
    (∀ name, name ∈ bad ↔ ∃ value, r.headers.get? name = some value ∧ ¬ Http.IsHeader name value) ∧
    failures = (if 100 ≤ r.code ∧ r.code ≤ 999 then [] else [invalidCode r.code]) ++ bad.map invalidHeader ++
      bodyFailures r.body
  kept {name value : String} : r.headers.get? name = some value → Http.IsHeader name value →
    ∃ found, sent.headers.get? name.toLower = some found
  encoded {j : Json} : r.body = some (.ok j) → sent.body = j.render.toUTF8 ∧
    sent.headers.get? "content-type" = some Body.contentType ∧
    ∀ key value, key ≠ "content-type" →
      (sent.headers.get? key = some value ↔ ∃ name, name.toLower = key ∧ r.headers.Stands name value)
  unencoded : (∀ j, r.body ≠ some (.ok j)) → sent.body = .empty ∧
    ∀ key value, sent.headers.get? key = some value ↔ ∃ name, name.toLower = key ∧ r.headers.Stands name value

theorem isStatus_iff {code : UInt16} : Http.isStatus code = true ↔ 100 ≤ code ∧ code ≤ 999 := by
  simp [Http.isStatus]

theorem writeStatus_eq (code : UInt16) :
    writeStatus code = if 100 ≤ code ∧ code ≤ 999 then (code, []) else (500, [invalidCode code]) := by
  rw [writeStatus]
  simp only [isStatus_iff]
  rfl

/-- The code is reported first, then the headers, then the body. -/
theorem write_snd (r : PreparedResponse) :
    r.write.2 = (writeStatus r.code).2 ++ (writeHeaders r.headers).2 ++ bodyFailures r.body := by
  obtain ⟨code, body, headers⟩ := r
  match body with
  | none | some (.ok _) => exact (List.append_nil _).symm
  | some (.error _) => rfl

/-- Every prepared response is sent and reported by `write` as `Accounts` says, with no premise on its code,
headers or body. Names that differ in case share a key of the sent map, where the last in the order of `Utf8.encode`
stands. The map is unbounded here, while the header map of the HTTP library has a documented maximum size, beyond
which an insertion fails. -/
theorem write_accounts (r : PreparedResponse) : r.Accounts r.write.1 r.write.2 := by
  have hstatus : r.write.1.status = if 100 ≤ r.code ∧ r.code ≤ 999 then r.code else 500 := by
    rw [write_status, writeStatus_eq]
    split <;> rfl
  have hfailures : ∃ bad : List String, (bad.Pairwise fun a b => Utf8.encode a < Utf8.encode b) ∧
      (∀ name, name ∈ bad ↔ ∃ value, r.headers.get? name = some value ∧ ¬ Http.IsHeader name value) ∧
      r.write.2 = (if 100 ≤ r.code ∧ r.code ≤ 999 then [] else [invalidCode r.code]) ++
        bad.map invalidHeader ++ bodyFailures r.body := by
    obtain ⟨bad, hascending, hbad, hheaders⟩ := exists_invalid r.headers
    refine ⟨bad, hascending, hbad, ?_⟩
    rw [write_snd, hheaders, writeStatus_eq]
    split <;> rfl
  have hkept {name value : String} (hset : r.headers.get? name = some value)
      (hheader : Http.IsHeader name value) :
      ∃ found, (writeHeaders r.headers).1.get? name.toLower = some found := by
    obtain ⟨other, found, hname, hstands⟩ := SortedMap.exists_stands hset hheader
    exact ⟨found, get?_writeHeaders.mpr ⟨other, hname, hstands⟩⟩
  obtain ⟨code, body, headers⟩ := r
  match body with
  | none | some (.error _) =>
    exact ⟨hstatus, hfailures, hkept, nofun, fun _ => ⟨rfl, fun _ _ => get?_writeHeaders⟩⟩
  | some (.ok j) =>
    have hget (key : String) : (write ⟨code, some (.ok j), headers⟩).1.headers.get? key =
        if key = "content-type" then some Body.contentType else (writeHeaders headers).1.get? key :=
      SortedMap.get?_insert ..
    refine ⟨hstatus, hfailures, fun {name value} hset hheader => ?_, ?_, fun hnone => absurd rfl (hnone j)⟩
    · rw [hget]
      split
      · exact ⟨_, rfl⟩
      · exact hkept hset hheader
    · rintro _ ⟨⟩
      refine ⟨rfl, (hget _).trans (if_pos rfl), fun key value hkey => ?_⟩
      rw [hget, if_neg hkey]
      exact get?_writeHeaders

end PreparedResponse

end BeaconApi
