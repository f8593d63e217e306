import BeaconApi.Node.Memory.Basic

namespace BeaconApi

/-- Numbers of a fixed number of bytes that agree in every byte are equal. -/
theorem eq_of_bytes_eq {n m : Nat} (count : Nat) (hn : n < Nat.pow 256 count)
    (hm : m < Nat.pow 256 count)
    (hbytes : ∀ i < count, n / Nat.pow 256 i % 256 = m / Nat.pow 256 i % 256) : n = m := by
  induction count generalizing n m with
  | zero =>
    simp only [Nat.pow_eq, Nat.pow_zero] at hn hm
    omega
  | succ count ih =>
    have hlow : n % 256 = m % 256 := by simpa using hbytes 0 (Nat.succ_pos _)
    have hpow : ∀ k, Nat.pow 256 (k + 1) = 256 * Nat.pow 256 k := fun k => Nat.pow_succ'
    rw [hpow] at hn hm
    have hhigh : n / 256 = m / 256 := by
      refine ih (Nat.div_lt_of_lt_mul hn) (Nat.div_lt_of_lt_mul hm) fun i hi => ?_
      have hbyte := hbytes (i + 1) (Nat.succ_lt_succ hi)
      rwa [hpow, ← Nat.div_div_eq_div_mul, ← Nat.div_div_eq_div_mul] at hbyte
    omega

theorem bigEndian_injective {n m : UInt64} (h : bigEndian n = bigEndian m) : n = m := by
  refine UInt64.toNat_inj.mp (eq_of_bytes_eq 8 n.toNat_lt m.toNat_lt fun i hi => ?_)
  have hbyte := congrArg (fun v : Vector UInt8 8 => (getElem v (7 - i) (by omega)).toNat) h
  have hplace : 7 - (7 - i) = i := by omega
  simpa [bigEndian, hplace] using hbyte

/-- A derived root tells the running number that it was derived from. -/
theorem derivedRoot_sequence {n m : UInt64} {slot slot' : Slot} {kind kind' : RootKind}
    (h : derivedRoot n slot kind = derivedRoot m slot' kind') : n = m := by
  have hval := congrArg Bytes.val h
  have hfront := Vector.append_inj_left (Vector.append_inj_left hval)
  exact bigEndian_injective (Vector.append_inj_left hfront)

/-- The bytes of a number, the most significant one first. -/
def bytesOf : Nat → Nat → List UInt8
  | 0, _ => []
  | count + 1, n => UInt8.ofNat (n / Nat.pow 256 count) :: bytesOf count n

theorem toList_bigEndian (n : UInt64) : (bigEndian n).toList = bytesOf 8 n.toNat := by
  simp [bigEndian, bytesOf, Vector.toList_ofFn, List.ofFn_succ]

/-- Numbers of two digits are compared by the higher digit first. -/
theorem two_digits_lt_iff {base low low' high high' : Nat} (h : low < base) (h' : low' < base) :
    low + base * high < low' + base * high' ↔ high < high' ∨ high = high' ∧ low < low' := by
  rcases Nat.lt_trichotomy high high' with hlt | rfl | hgt
  · have hstep : base * (high + 1) ≤ base * high' := Nat.mul_le_mul_left base hlt
    rw [Nat.mul_succ] at hstep
    omega
  · omega
  · have hstep : base * (high' + 1) ≤ base * high := Nat.mul_le_mul_left base hgt
    rw [Nat.mul_succ] at hstep
    omega

/-- Numbers are compared as their bytes are, the most significant byte first. -/
theorem bytesOf_lt_bytesOf_iff (count n m : Nat) :
    bytesOf count n < bytesOf count m ↔ n % Nat.pow 256 count < m % Nat.pow 256 count := by
  induction count with
  | zero => simp [bytesOf, Nat.mod_one]
  | succ count ih =>
    have hsplit (k : Nat) : k % Nat.pow 256 (count + 1) =
        k % Nat.pow 256 count + Nat.pow 256 count * (k / Nat.pow 256 count % 256) := Nat.mod_pow_succ
    have hhigh (k : Nat) : (UInt8.ofNat (k / Nat.pow 256 count)).toNat = k / Nat.pow 256 count % 256 := rfl
    have hlow (k : Nat) : k % Nat.pow 256 count < Nat.pow 256 count :=
      Nat.mod_lt k (Nat.pow_pos (by decide))
    rw [bytesOf, bytesOf, List.cons_lt_cons_iff, ih, UInt8.lt_iff_toNat_lt, ← UInt8.toNat_inj, hhigh, hhigh,
      hsplit n, hsplit m, two_digits_lt_iff (hlow n) (hlow m)]

theorem bigEndian_lt_iff {n m : UInt64} : (bigEndian n).toList < (bigEndian m).toList ↔ n < m := by
  rw [toList_bigEndian, toList_bigEndian, bytesOf_lt_bytesOf_iff, UInt64.lt_iff_toNat_lt,
    Nat.mod_eq_of_lt n.toNat_lt, Nat.mod_eq_of_lt m.toNat_lt]

/-- What follows two lists of one length does not matter if they differ. -/
theorem append_lt_append_of_lt {front front' : List UInt8} (hlength : front.length = front'.length)
    (h : front < front') (rest rest' : List UInt8) : front ++ rest < front' ++ rest' := by
  induction front generalizing front' with
  | nil =>
    obtain rfl := List.length_eq_zero_iff.mp hlength.symm
    exact absurd h (List.lt_irrefl [])
  | cons byte front ih =>
    cases front' with
    | nil => cases hlength
    | cons byte' front' =>
      rw [List.cons_append, List.cons_append, List.cons_lt_cons_iff]
      rcases List.cons_lt_cons_iff.mp h with hlt | ⟨heq, hlt⟩
      · exact .inl hlt
      · exact .inr ⟨heq, ih (Nat.succ.inj hlength) hlt⟩

/-- Of two derived roots the one with the lower running number comes first. -/
theorem derivedRoot_lt {n m : UInt64} (h : n < m) (slot slot' : Slot) (kind kind' : RootKind) :
    (derivedRoot n slot kind).toList < (derivedRoot m slot' kind').toList := by
  have hlist (n : UInt64) (slot : Slot) (kind : RootKind) : (derivedRoot n slot kind).toList =
      (bigEndian n).toList ++ ((bigEndian slot.val).toList ++ (List.replicate 15 0 ++ [kind.tag])) := by
    rw [Bytes.toList, derivedRoot, Vector.toList_append, Vector.toList_append, Vector.toList_append,
      Vector.toList_replicate, List.append_assoc, List.append_assoc]
    rfl
  rw [hlist, hlist]
  exact append_lt_append_of_lt (by simp) (bigEndian_lt_iff.mpr h) _ _

end BeaconApi
