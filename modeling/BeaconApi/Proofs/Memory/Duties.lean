import Mathlib.Data.List.Nodup
import BeaconApi.Proofs.Memory.Run

namespace BeaconApi

/-- The last slot that can be counted. -/
def lastSlot : Slot := ⟨18446744073709551615⟩

/-- The epoch of the last slot. -/
def lastEpoch : Epoch := ⟨576460752303423487⟩

/-- The number of the first slot of an epoch, if it can be counted. -/
def firstSlotOf (epoch : Epoch) : Nat := epoch.val.toNat * slotsPerEpoch

/-- How many slots of an epoch have a duty. -/
def dutyCount (epoch : Epoch) : Nat := if epoch = lastEpoch then slotsPerEpoch - 1 else slotsPerEpoch

section Epochs

variable {slot : Slot} {epoch : Epoch}

theorem toNat_epochOf (slot : Slot) : (epochOf slot).val.toNat = slot.val.toNat / slotsPerEpoch := by
  refine UInt64.toNat_ofNat_of_lt' ?_
  have hslot := slot.val.toNat_lt_size
  unfold slotsPerEpoch
  omega

theorem toNat_proposerAt (slot : Slot) :
    (proposerAt slot).val.toNat = slot.val.toNat % validatorCount := by
  refine UInt64.toNat_ofNat_of_lt' ?_
  have hslot := slot.val.toNat_lt_size
  unfold validatorCount
  omega

theorem epochOf_eq_iff : epochOf slot = epoch ↔
    firstSlotOf epoch ≤ slot.val.toNat ∧ slot.val.toNat < firstSlotOf epoch + slotsPerEpoch := by
  have hdiv : epochOf slot = epoch ↔ slot.val.toNat / slotsPerEpoch = epoch.val.toNat := by
    rw [← toNat_epochOf, UInt64.toNat_inj]
    cases epoch
    simp [epochOf]
  rw [hdiv, firstSlotOf]
  unfold slotsPerEpoch
  omega

theorem firstSlotOf_epochOf_lt (slot : Slot) : firstSlotOf (epochOf slot) < UInt64.size := by
  have hslot := slot.val.toNat_lt_size
  have hfirst := (epochOf_eq_iff.mp (rfl : epochOf slot = epochOf slot)).1
  omega

theorem epoch_eq_last_iff : epoch = lastEpoch ↔ epoch.val.toNat = 576460752303423487 := by
  constructor
  · rintro rfl
    rfl
  · intro h
    exact congrArg Quantity.mk (UInt64.toNat_inj.mp h)

/-- Only the last epoch, of which the end cannot be counted, lacks a duty. -/
theorem dutyCount_eq (h : firstSlotOf epoch < UInt64.size) :
    min (firstSlotOf epoch + slotsPerEpoch) (UInt64.size - 1) - firstSlotOf epoch = dutyCount epoch := by
  unfold firstSlotOf slotsPerEpoch at *
  unfold UInt64.size at *
  unfold dutyCount slotsPerEpoch
  split
  next hlast =>
    -- the minimum is the last number of all, one short of the end of the epoch
    have hval := epoch_eq_last_iff.mp hlast
    omega
  next hlast =>
    have hval := mt epoch_eq_last_iff.mpr hlast
    omega

/-- The slots of an epoch that have a duty, in order. -/
def dutySlots (epoch : Epoch) : List Slot :=
  (List.range' (firstSlotOf epoch) (dutyCount epoch)).map fun n => ⟨UInt64.ofNat n⟩

theorem length_dutySlots : (dutySlots epoch).length = dutyCount epoch := by
  rw [dutySlots, List.length_map, List.length_range']

theorem firstSlotOf_add_dutyCount_lt (h : firstSlotOf epoch < UInt64.size) :
    firstSlotOf epoch + dutyCount epoch < UInt64.size := by
  have hcount := dutyCount_eq h
  unfold UInt64.size at *
  omega

theorem numbers_dutySlots (h : firstSlotOf epoch < UInt64.size) :
    (dutySlots epoch).map (·.val.toNat) = List.range' (firstSlotOf epoch) (dutyCount epoch) := by
  have hend := firstSlotOf_add_dutyCount_lt h
  rw [dutySlots, List.map_map]
  refine (List.map_congr_left fun n hn => ?_).trans (List.map_id' _)
  obtain ⟨-, hlt⟩ := List.mem_range'_1.mp hn
  exact UInt64.toNat_ofNat_of_lt' (Nat.lt_trans hlt hend)

theorem nodup_dutySlots (h : firstSlotOf epoch < UInt64.size) : (dutySlots epoch).Nodup := by
  refine List.Nodup.of_map (·.val.toNat) ?_
  rw [numbers_dutySlots h]
  exact List.nodup_range'

theorem toNat_slot_injective : Function.Injective fun slot : Slot => slot.val.toNat := by
  rintro ⟨slot⟩ ⟨other⟩ h
  exact congrArg Quantity.mk (UInt64.toNat_inj.mp h)

/-- The slots of an epoch have a duty, apart from the last slot of all. -/
theorem mem_dutySlots_iff (h : firstSlotOf epoch < UInt64.size) :
    slot ∈ dutySlots epoch ↔ epochOf slot = epoch ∧ slot ≠ lastSlot := by
  have hlast : slot = lastSlot ↔ slot.val.toNat = 18446744073709551615 := toNat_slot_injective.eq_iff.symm
  have hcount := dutyCount_eq h
  rw [← List.mem_map_of_injective toNat_slot_injective, numbers_dutySlots h, List.mem_range'_1, epochOf_eq_iff,
    ne_eq, hlast, ← hcount]
  have hslot := slot.val.toNat_lt_size
  unfold UInt64.size at *
  omega

end Epochs

namespace Memory

variable (s : Memory) {epoch : Epoch}

/-- The duties of an epoch are those of its slots. -/
theorem proposerDuties_eq (h : firstSlotOf epoch < UInt64.size) :
    s.proposerDuties epoch = .ok ⟨s.dependentRoot (firstSlotOf epoch), (dutySlots epoch).map dutyAt⟩ := by
  refine (if_neg (Nat.not_le.mpr h)).trans ?_
  rw [dutySlots, List.map_map, ← dutyCount_eq h]
  rfl

theorem proposerDuties_out_of_range (h : UInt64.size ≤ firstSlotOf epoch) :
    s.proposerDuties epoch = .error (.invalid ("epoch " ++ epoch.display ++ " is out of range")) :=
  if_pos h

/-- A list of duties covers an epoch: its slots stand in order from the first one on, and each names the
validator whose turn it is, under the key of the validator. -/
structure Covers (epoch : Epoch) (duties : List ProposerDuty) : Prop where
  numbers : duties.map (·.slot.val.toNat) = List.range' (firstSlotOf epoch) (dutyCount epoch)
  epoch {duty : ProposerDuty} : duty ∈ duties → epochOf duty.slot = epoch
  proposer {duty : ProposerDuty} : duty ∈ duties →
    duty.validatorIndex.val.toNat = duty.slot.val.toNat % validatorCount
  pubkey {duty : ProposerDuty} : duty ∈ duties → duty.pubkey = pubkeyOf duty.validatorIndex

theorem covers_duties (h : firstSlotOf epoch < UInt64.size) : Covers epoch ((dutySlots epoch).map dutyAt) where
  numbers := by
    rw [List.map_map]
    exact numbers_dutySlots h
  epoch hduty := by
    obtain ⟨slot, hslot, rfl⟩ := List.mem_map.mp hduty
    exact ((mem_dutySlots_iff h).mp hslot).1
  proposer hduty := by
    obtain ⟨slot, -, rfl⟩ := List.mem_map.mp hduty
    exact toNat_proposerAt slot
  pubkey hduty := by
    obtain ⟨slot, -, rfl⟩ := List.mem_map.mp hduty
    rfl

/-- A slot of an epoch has one duty, unless it is the last slot of all. -/
theorem duties_at (h : firstSlotOf epoch < UInt64.size) {slot : Slot} (hepoch : epochOf slot = epoch)
    (hslot : slot ≠ lastSlot) :
    ((dutySlots epoch).map dutyAt).filter (fun duty => duty.slot = slot) = [dutyAt slot] := by
  have hmem : slot ∈ dutySlots epoch := (mem_dutySlots_iff h).mpr ⟨hepoch, hslot⟩
  have hcount := List.count_eq_one_of_mem (nodup_dutySlots h) hmem
  rw [List.filter_map]
  change ((dutySlots epoch).filter fun other => decide (other = slot)).map dutyAt = _
  rw [List.filter_eq, hcount]
  rfl

/-- No epoch has a duty for the last slot of all. -/
theorem no_duty_at_last (h : firstSlotOf epoch < UInt64.size) :
    ((dutySlots epoch).map dutyAt).filter (fun duty => duty.slot = lastSlot) = [] := by
  rw [List.filter_eq_nil_iff]
  intro duty hduty
  obtain ⟨slot, hslot, rfl⟩ := List.mem_map.mp hduty
  intro hlast
  exact ((mem_dutySlots_iff h).mp hslot).2 (of_decide_eq_true hlast)

/-- A block is produced by the validator whose turn it is. -/
theorem proposerIndex_produceBlock {slot : Slot} {randaoReveal : BlsSignature} {graffiti : Root}
    {block : Phase0.BeaconBlock} (h : s.produceBlock slot randaoReveal graffiti = .ok block) :
    block.proposerIndex = proposerAt slot := by
  unfold produceBlock at h
  split at h
  · cases h
  · split at h
    · cases h
    · cases h
      rfl

/-- Exactly the epochs whose first slot is out of range are refused by `proposerDuties`, and the others are
covered (`Covers`). Only `lastSlot` has no duty, although `produceBlock` accepts it: the end of the last epoch
is capped at the largest number, and the range of slots excludes its end. The state is arbitrary, as it decides
about the dependent root alone. -/
theorem duties_cover_epoch (s : Memory) :
    (∀ epoch : Epoch, UInt64.size ≤ epoch.val.toNat * slotsPerEpoch →
      s.proposerDuties epoch = .error (.invalid ("epoch " ++ epoch.display ++ " is out of range"))) ∧
    (∀ epoch : Epoch, epoch.val.toNat * slotsPerEpoch < UInt64.size →
      ∃ duties, s.proposerDuties epoch = .ok duties ∧ Covers epoch duties.data) ∧
    ∀ slot : Slot, slot ≠ lastSlot → ∃ duties duty, s.proposerDuties (epochOf slot) = .ok duties ∧
      duties.data.filter (fun duty => duty.slot = slot) = [duty] ∧
      ∀ randaoReveal graffiti block, s.produceBlock slot randaoReveal graffiti = .ok block →
        block.proposerIndex = duty.validatorIndex := by
  refine ⟨fun epoch h => s.proposerDuties_out_of_range h, fun epoch h => ?_, fun slot hslot => ?_⟩
  · exact ⟨_, s.proposerDuties_eq h, covers_duties h⟩
  · have h := firstSlotOf_epochOf_lt slot
    refine ⟨_, dutyAt slot, s.proposerDuties_eq h, duties_at h rfl hslot, fun _ _ block hblock => ?_⟩
    exact s.proposerIndex_produceBlock hblock

/-- A new node has one duty for slot 70, that of validator 6. -/
theorem new_duty_at_seventy :
    (⟨70⟩ : Slot) ≠ lastSlot ∧ UInt64.size ≤ lastSlot.val.toNat * slotsPerEpoch ∧
      (∃ e, (new ⟨0⟩).proposerDuties ⟨lastSlot.val⟩ = .error e) ∧
      ∃ duties duty, (new ⟨0⟩).proposerDuties ⟨2⟩ = .ok duties ∧ Covers ⟨2⟩ duties.data ∧
        duties.data.filter (fun duty => duty.slot = ⟨70⟩) = [duty] ∧ duty.validatorIndex = ⟨6⟩ := by
  obtain ⟨hrefused, hcovers, hone⟩ := duties_cover_epoch (new ⟨0⟩)
  obtain ⟨duties, duty, hduties, hduty, hproposer⟩ := hone ⟨70⟩ (by decide)
  obtain ⟨covering, hcovering, hcover⟩ := hcovers ⟨2⟩ (by decide)
  obtain rfl : covering = duties := Except.ok.inj (hcovering.symm.trans hduties)
  obtain ⟨block, hblock⟩ : ∃ block, (new ⟨0⟩).produceBlock ⟨70⟩ default default = .ok block := ⟨_, rfl⟩
  refine ⟨by decide, by decide, ⟨_, hrefused ⟨lastSlot.val⟩ (by decide)⟩, covering, duty, hduties, hcover,
    hduty, ?_⟩
  rw [← hproposer default default block hblock, (new ⟨0⟩).proposerIndex_produceBlock hblock]
  rfl

/-- A new node produces a block for the last slot, and yet its epoch has no duty for it. -/
theorem last_slot_without_duty :
    Chronicle.Reachable ⟨0⟩ (.initial ⟨0⟩) ∧ epochOf lastSlot = lastEpoch ∧
      lastEpoch.val.toNat * slotsPerEpoch < UInt64.size ∧
      (∃ block, (Chronicle.initial ⟨0⟩).memory.produceBlock lastSlot default default = .ok block) ∧
      ∃ duties, (Chronicle.initial ⟨0⟩).memory.proposerDuties lastEpoch = .ok duties ∧
        duties.data.length = 31 ∧ duties.data.filter (fun duty => duty.slot = lastSlot) = [] := by
  have h : firstSlotOf lastEpoch < UInt64.size := by decide
  refine ⟨.refl, rfl, h, ⟨_, rfl⟩, _, proposerDuties_eq _ h, ?_, no_duty_at_last h⟩
  rw [List.length_map, length_dutySlots]
  rfl

end Memory

end BeaconApi
