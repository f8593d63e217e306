import BeaconApi.Proofs.Beacon.SyncAggregate
import BeaconApi.Proofs.Node.Posting

namespace BeaconApi

open Json (Document)
open Wire (HasAggregate Members)

namespace Memory

variable {bytes : ByteArray} {s : Memory}

theorem publishBlock_route (version : String) :
    Node.PlainRoute version .post "/eth/v1/beacon/blocks" Endpoint.publishBlock :=
  ⟨by simp [Node.routes], rfl, by decide⟩

/-- A body that does not decode as a block is refused with 400, or with 413 if it is too large, and the memory
stays. This holds in every state, since the chain is not looked at. -/
theorem answer_unreadable_block {e : Wire.DecodeError}
    (h : (Payload.decode bytes : Wire.Decoded SignedBeaconBlock) = .error e) (version : String)
    (s : Memory) :
    ∃ response, (Node.answer backend version ⟨"POST", "/eth/v1/beacon/blocks", bytes⟩).run s =
        (response, s) ∧
      response.status = if bytes.size ≤ Router.maxBodySize then 400 else 413 := by
  have hroute := publishBlock_route version
  have hposts := hroute.isPath.posts bytes
  by_cases hsize : bytes.size ≤ Router.maxBodySize
  · obtain ⟨e', hcontents⟩ : ∃ e', (Body.decodeContents bytes : Except ApiError SignedBeaconBlock) =
        .error e' := by
      unfold Body.decodeContents Body.decode
      rw [h]
      split
      · exact ⟨_, rfl⟩
      · exact ⟨_, rfl⟩
    refine ⟨_, hroute.post_unreadable hposts (fun _ => rfl) hsize hcontents s, ?_⟩
    rw [if_pos hsize]
    exact PreparedResponse.write_status_of_isStatus (by decide : Http.isStatus 400 = true)
  · rw [if_neg hsize]
    exact hroute.post_oversized hposts (Nat.not_le.mp hsize) s

end Memory

namespace SignedBeaconBlock

variable {bytes : ByteArray} {members : Members} {stop : Option Json.Break}

/-- An untagged `SignedBeaconBlock` is an Altair block exactly if its body `HasAggregate`, that is, has one
`sync_aggregate` which can be read. A missing, repeated or unreadable one leaves the Phase0 reading, which skips
unknown keys. The premise `hbody` only says that there is a block body and that it is an object. What neither
reading accepts is refused by `Node.answer` in any state. -/
theorem sync_aggregate_decides_fork
    (hbody : (Document.ofBytes bytes).1.blockBody? = some (.object members stop)) :
    (∀ block : SignedBeaconBlock, Payload.decode bytes = .ok block →
      (∃ b, block = .altair b ∧ HasAggregate members b.message.body.syncAggregate) ∨
        ∃ b, block = .phase0 b ∧ (∀ aggregate, ¬ HasAggregate members aggregate) ∧
          Payload.decode bytes = .ok b) ∧
    ∀ e, (∀ aggregate, ¬ HasAggregate members aggregate) →
      (Payload.decode bytes : Wire.Decoded Phase0.SignedBeaconBlock) = .error e →
      (∃ e', (Payload.decode bytes : Wire.Decoded SignedBeaconBlock) = .error e') ∧
        ∀ (version : String) (s : Memory), ∃ response,
          (Node.answer Memory.backend version ⟨"POST", "/eth/v1/beacon/blocks", bytes⟩).run s =
            (response, s) ∧
          response.status = if bytes.size ≤ Router.maxBodySize then 400 else 413 := by
  refine ⟨fun block h => fork_of_decode hbody h, fun e hnone herror => ?_⟩
  have hunreadable : ∃ e', (Payload.decode bytes : Wire.Decoded SignedBeaconBlock) = .error e' := by
    cases hdecode : (Payload.decode bytes : Wire.Decoded SignedBeaconBlock) with
    | error e' => exact ⟨e', rfl⟩
    | ok block =>
      rcases fork_of_decode hbody hdecode with ⟨b, _, hhas⟩ | ⟨b, _, _, hok⟩
      · exact absurd hhas (hnone _)
      · rw [herror] at hok
        cases hok
  obtain ⟨e', he'⟩ := hunreadable
  exact ⟨⟨e', he'⟩, fun version s => Memory.answer_unreadable_block he' version s⟩

/-- A block of the plainer fork with more members in its body. -/
def plainerWith (members : List (String × Json)) : Json :=
  let zeros (length : Nat) : Json := .string (Wire.hexText (List.replicate length 0))
  .object
    [("message", .object
        [("slot", .string "0"), ("proposer_index", .string "0"), ("parent_root", zeros 32),
          ("state_root", zeros 32),
          ("body", .object
            ([("randao_reveal", zeros 96), ("graffiti", zeros 32), ("attestations", .array []),
               ("voluntary_exits", .array []) ] ++ members)) ]),
      ("signature", zeros 96)]

/-- A block of the plainer fork with a null in place of a sync aggregate. -/
def nullAggregate : Json := plainerWith [("sync_aggregate", .null)]

/-- A block of the plainer fork with two sync aggregates. -/
def twoAggregates : Json :=
  plainerWith [("sync_aggregate", Payload.toJson (default : SyncAggregate)),
    ("sync_aggregate", Payload.toJson (default : SyncAggregate))]

/-- A null in place of a sync aggregate, and nothing else. -/
def nullBody : Json := .object [("message", .object [("body", .object [("sync_aggregate", .null)])])]

theorem plainerWith_plain {members : List (String × Json)} (h : ∀ m ∈ members, m.2.Plain) :
    (plainerWith members).Plain := by
  simpa [plainerWith, Json.plain_object_iff, Json.plain_array_iff, Json.Plain.string] using h

theorem ofBytes_nullAggregate :
    Document.ofBytes nullAggregate.render.toUTF8 = (nullAggregate.outline, false) :=
  Json.ofBytes_render (plainerWith_plain (by simp [Json.Plain.null]))

theorem ofBytes_twoAggregates :
    Document.ofBytes twoAggregates.render.toUTF8 = (twoAggregates.outline, false) := by
  have hplain : (Payload.toJson (default : SyncAggregate)).Plain :=
    Wire.Shape.encode_plain (by decide) (Payload.toCarrier (default : SyncAggregate))
  exact Json.ofBytes_render (plainerWith_plain (by simp [hplain]))

theorem ofBytes_nullBody : Document.ofBytes nullBody.render.toUTF8 = (nullBody.outline, false) :=
  Json.ofBytes_render (by simp [nullBody, Json.plain_object_iff, Json.Plain.null])

theorem decode_nullAggregate :
    Payload.decode nullAggregate.render.toUTF8 = .ok (SignedBeaconBlock.phase0 default) := by
  refine Payload.decode_eq_ok_iff.mpr ?_
  rw [ofBytes_nullAggregate]
  exact ⟨by decide +kernel, rfl⟩

theorem decode_twoAggregates :
    Payload.decode twoAggregates.render.toUTF8 = .ok (SignedBeaconBlock.phase0 default) := by
  refine Payload.decode_eq_ok_iff.mpr ?_
  rw [ofBytes_twoAggregates]
  exact ⟨by decide +kernel, rfl⟩

/-- A sync aggregate that cannot be read, or that stands twice, is passed over if there is a block of
the plainer fork around it. -/
theorem sync_aggregate_passed_over :
    (∃ members, (Document.ofBytes nullAggregate.render.toUTF8).1.blockBody? = some (.object members none) ∧
      Wire.valuesOf "sync_aggregate" members = [.null] ∧
      Payload.decode nullAggregate.render.toUTF8 = .ok (SignedBeaconBlock.phase0 default)) ∧
    ∃ members, (Document.ofBytes twoAggregates.render.toUTF8).1.blockBody? = some (.object members none) ∧
      Wire.valuesOf "sync_aggregate" members = [(Payload.toJson (default : SyncAggregate)).outline,
        (Payload.toJson (default : SyncAggregate)).outline] ∧
      Payload.decode twoAggregates.render.toUTF8 = .ok (SignedBeaconBlock.phase0 default) := by
  rw [ofBytes_nullAggregate, ofBytes_twoAggregates]
  exact ⟨⟨_, rfl, rfl, decode_nullAggregate⟩, ⟨_, rfl, rfl, decode_twoAggregates⟩⟩

/-- Around a null in place of a sync aggregate, a block of the plainer fork is read as such. Without a
block around it the null is refused. -/
theorem null_aggregate_decides_fork :
    Payload.decode nullAggregate.render.toUTF8 = .ok (default : Phase0.SignedBeaconBlock) ∧
      ∃ response, (Node.answer Memory.backend "" ⟨"POST", "/eth/v1/beacon/blocks",
          nullBody.render.toUTF8⟩).run Memory.Chronicle.forked.memory =
            (response, Memory.Chronicle.forked.memory) ∧ response.status = 400 := by
  constructor
  · have hbody := congrArg (fun read => read.1.blockBody?) ofBytes_nullAggregate
    obtain ⟨hreads, _⟩ := sync_aggregate_decides_fork hbody
    rcases hreads _ decode_nullAggregate with ⟨b, hb, _⟩ | ⟨b, hb, _, hok⟩
    · cases hb
    · cases hb
      exact hok
  · have hbody := congrArg (fun read => read.1.blockBody?) ofBytes_nullBody
    obtain ⟨_, hrefused⟩ := sync_aggregate_decides_fork hbody
    have hnone (aggregate : SyncAggregate) :
        ¬ HasAggregate [(.ok "sync_aggregate", .null)] aggregate := by
      rintro ⟨value, hvalue, hread⟩
      cases hvalue
      cases hread
    have herror : (Payload.decode nullBody.render.toUTF8 : Wire.Decoded Phase0.SignedBeaconBlock) =
        .error (.missingField "randao_reveal") := by
      rw [Payload.decode, ofBytes_nullBody]
      rfl
    obtain ⟨_, hsubmitted⟩ := hrefused _ hnone herror
    obtain ⟨response, hrun, hstatus⟩ := hsubmitted "" Memory.Chronicle.forked.memory
    rw [if_pos (by decide +kernel)] at hstatus
    exact ⟨response, hrun, hstatus⟩

end SignedBeaconBlock

end BeaconApi
