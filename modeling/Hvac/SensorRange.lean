import Hvac.FailSafe
import Hvac.Interpolation
import Mathlib.Data.List.Infix

/-!
# Shorted and open sensors

What one call of `GetNtcValue` divides by and how large its signed numbers get.
The table is consulted before the resistance is checked against it, so that an
average outside the table has a pair of empty entries to divide by.
-/

namespace Hvac

open Lookup (Bracket)
open Machine (Within)

def windowAverage (list : List Int) : Int := (list.foldl (· + ·) 0).tdiv 10

def ntcVol (value : U32) : U32 := value * referVoltage / convertBits

/-- The divisors of one call, in order. -/
def AdcSample.divisors (sample : AdcSample) (list : List Int) : List U32 :=
  if sample.found then
    [convertBits, referVoltage - ntcVol sample.value] ++
      if sample.Fails list then []
      else [10, res2TempDivisor (BitVec.ofInt 32 (windowAverage (sample.shift list)))]
  else []

/-- The signed numbers `Res2Temp` computes with. -/
def res2TempSigned (res : U32) : List Int :=
  let i := (res2TempSearch res 128 8).toNat
  [i - 40, (i - 40) * 10, ntcTable i - ntcTable (i + 1)]

/-- The signed numbers of one call: the sample, `num` after each turn, and those
of `Res2Temp`. -/
def AdcSample.signedResults (sample : AdcSample) (list : List Int) : List Int :=
  if sample.found then
    [((10000 * ntcVol sample.value / (referVoltage - ntcVol sample.value)).toNat : Int)] ++
      if sample.Fails list then []
      else
        let list := sample.shift list
        list.inits.map (fun turns => turns.foldl (· + ·) 0) ++
          res2TempSigned (BitVec.ofInt 32 (windowAverage list))
  else []

def FitsInt32 (x : Int) : Prop := -2147483648 ≤ x ∧ x ≤ 2147483647

instance (x : Int) : Decidable (FitsInt32 x) := inferInstanceAs (Decidable (_ ∧ _))

/-- An average the table does not cover gives `VALUE_NULL`. -/
def NullOutside (sample : AdcSample) (list : List Int) : Prop :=
  let average := windowAverage (sample.shift list)
  ¬sample.Fails list → average < 1678 ∨ 203750 < average →
    (getNtcValue sample list).2 = valueNull

instance (sample : AdcSample) (list : List Int) : Decidable (NullOutside sample list) :=
  inferInstanceAs (Decidable (_ → _ → _))

/-- The arithmetic of the call is defined, and outside the table its result is no temperature. -/
structure SoundCall (sample : AdcSample) (list : List Int) : Prop where
  divisors : 0 ∉ sample.divisors list
  signed : ∀ x ∈ sample.signedResults list, FitsInt32 x
  null : NullOutside sample list

instance (sample : AdcSample) (list : List Int) : Decidable (SoundCall sample list) :=
  decidable_of_iff (0 ∉ sample.divisors list ∧
      (∀ x ∈ sample.signedResults list, FitsInt32 x) ∧ NullOutside sample list)
    ⟨fun h => ⟨h.1, h.2.1, h.2.2⟩, fun h => ⟨h.divisors, h.signed, h.null⟩⟩

/-- A call that has a temperature to look up has it inside the table or below it. -/
def AverageCovered (sample : AdcSample) (list : List Int) : Prop :=
  sample.Fails list ∨
    (1 ≤ windowAverage (sample.shift list) ∧ windowAverage (sample.shift list) ≤ 203750)

instance (sample : AdcSample) (list : List Int) : Decidable (AverageCovered sample list) :=
  inferInstanceAs (Decidable (_ ∨ _))

-- ---------------------------------------------------------------------------
-- The resistance
-- ---------------------------------------------------------------------------

theorem ntcVol_toNat (h : value.toNat ≤ 4095) :
    (ntcVol value).toNat = value.toNat * 3300 / 4096 := by
  have hvoltage : referVoltage.toNat = 3300 := rfl
  have hbits : convertBits.toNat = 4096 := rfl
  rw [ntcVol, BitVec.toNat_udiv, BitVec.toNat_mul, hvoltage, hbits, Nat.mod_eq_of_lt (by omega)]

theorem ntcVol_le (h : value.toNat ≤ 4095) : (ntcVol value).toNat ≤ 3299 := by
  rw [ntcVol_toNat h]
  omega

theorem headroom_toNat (h : value.toNat ≤ 4095) :
    (referVoltage - ntcVol value).toNat = 3300 - (ntcVol value).toNat := by
  have hle := ntcVol_le h
  have hvoltage : referVoltage.toNat = 3300 := rfl
  rw [BitVec.toNat_sub_of_le (by rw [BitVec.le_def, hvoltage]; omega), hvoltage]

theorem quotient_toNat_le (h : value.toNat ≤ 4095) :
    (10000 * ntcVol value / (referVoltage - ntcVol value)).toNat ≤ 32990000 := by
  have hle := ntcVol_le h
  have hfactor : BitVec.toNat (10000 : U32) = 10000 := rfl
  rw [BitVec.toNat_udiv, BitVec.toNat_mul, hfactor, Nat.mod_eq_of_lt (by omega)]
  exact Nat.le_trans (Nat.div_le_self _ _) (by omega)

theorem ntcResistance_eq (h : value.toNat ≤ 4095) : ntcResistance value =
    (10000 * ntcVol value / (referVoltage - ntcVol value)).toNat := by
  have hle := quotient_toNat_le h
  rw [ntcResistance, ← ntcVol]
  exact BitVec.toInt_eq_toNat_of_lt (by omega)

-- ---------------------------------------------------------------------------
-- The window
-- ---------------------------------------------------------------------------

/-- At most ten resistances of 12-bit readings. -/
structure WindowOk (list : List Int) : Prop where
  length : list.length ≤ 10
  bounds : ∀ res ∈ list, 0 ≤ res ∧ res ≤ 32990000

theorem foldl_add_bounds {list : List Int} (h : ∀ x ∈ list, 0 ≤ x ∧ x ≤ bound) (hsum : 0 ≤ sum) :
    0 ≤ list.foldl (· + ·) sum ∧ list.foldl (· + ·) sum ≤ sum + list.length * bound := by
  induction list generalizing sum with
  | nil => simpa using hsum
  | cons x rest ih =>
    obtain ⟨hx, hxb⟩ := h x List.mem_cons_self
    obtain ⟨hlow, hhigh⟩ :=
      ih (fun y hy => h y (List.mem_cons_of_mem _ hy)) (Int.add_nonneg hsum hx)
    refine ⟨hlow, Int.le_trans hhigh ?_⟩
    rw [List.length_cons, Int.natCast_add, Int.add_mul]
    omega

theorem WindowOk.sum_bounds (h : WindowOk list) :
    0 ≤ list.foldl (· + ·) 0 ∧ list.foldl (· + ·) 0 ≤ 329900000 := by
  obtain ⟨hlow, hhigh⟩ := foldl_add_bounds h.bounds (Int.le_refl 0)
  have hlen := h.length
  exact ⟨hlow, by omega⟩

theorem WindowOk.initial (h : WindowOk list) (hp : turns <+: list) : WindowOk turns :=
  ⟨Nat.le_trans hp.length_le h.length, fun res hres => h.bounds res (hp.subset hres)⟩

theorem WindowOk.cons (h : WindowOk list) (hlen : list.length < 10) {value : U32}
    (hvalue : value.toNat ≤ 4095) : WindowOk (ntcResistance value :: list) := by
  refine ⟨hlen, fun res hres => ?_⟩
  rcases List.mem_cons.mp hres with rfl | hres
  · rw [ntcResistance_eq hvalue]
    have hle := quotient_toNat_le hvalue
    omega
  · exact h.bounds res hres

theorem WindowOk.shift (h : WindowOk list) {sample : AdcSample}
    (hvalue : sample.value.toNat ≤ 4095) (hfull : 10 ≤ list.length) :
    WindowOk (sample.shift list) := by
  unfold AdcSample.shift
  split
  · have hlen := h.length
    exact (h.initial list.dropLast_prefix).cons (by rw [List.length_dropLast]; omega) hvalue
  · exact h

def ntcStep (sample : AdcSample) (list : List Int) : List Int := (getNtcValue sample list).1

theorem AdcSample.full_of_not_fails {sample : AdcSample} (h : ¬sample.Fails list) :
    sample.found = true ∧ 10 ≤ list.length := by
  simp only [AdcSample.Fails, not_or, Bool.not_eq_false, Nat.not_lt] at h
  exact ⟨h.1, h.2.2⟩

theorem WindowOk.step (h : WindowOk list) {sample : AdcSample}
    (hvalue : sample.value.toNat ≤ 4095) : WindowOk (ntcStep sample list) := by
  unfold ntcStep
  by_cases hfails : sample.Fails list
  · unfold getNtcValue
    split
    · exact h
    split
    · exact h
    dsimp only
    split
    · rename_i hlen
      split
      · exact h.cons hlen hvalue
      · exact h
    · simp_all [AdcSample.Fails]
  · rw [getNtcValue_full hfails]
    exact h.shift hvalue (AdcSample.full_of_not_fails hfails).2

-- ---------------------------------------------------------------------------
-- The divisor of the table
-- ---------------------------------------------------------------------------

theorem ntcRtable_le (i : Nat) : (ntcRtable i).toNat ≤ 203750 := ntcTable_antitone (Nat.zero_le i)

/-- Above the first entry the index wraps into the empty half. -/
theorem res2TempSearch_above {res : U32} (h : 203750 < res.toNat) :
    res2TempSearch res 128 8 = 129 := by
  have hlt (i : Nat) : ntcRtable i < res := by
    have hle := ntcRtable_le i
    rw [BitVec.lt_def]
    omega
  have hnot (i : Nat) : ¬ntcRtable i ≥ res := BitVec.not_le.mpr (hlt i)
  simp [res2TempSearch, hlt, hnot]

theorem res2TempDivisor_eq_zero {res : U32} :
    res2TempDivisor res = 0 ↔ res = 0 ∨ 203750 < res.toNat := by
  constructor
  · intro hzero
    by_contra hout
    rw [not_or, Nat.not_lt] at hout
    have hpos : 0 < res.toNat := Nat.pos_of_ne_zero fun h => hout.1 (BitVec.eq_of_toNat_eq h)
    obtain ⟨k, hk, hb⟩ := exists_entry hpos hout.2
    exact res2TempDivisor_ne_zero hb hk hzero
  · rintro (rfl | hmax)
    · decide +kernel
    · rw [res2TempDivisor, res2TempSearch_above hmax]
      decide +kernel

theorem res2Temp_outside {res : U32} (h : res.toNat < 1678 ∨ 203750 < res.toNat) :
    res2Temp res = valueNull := by
  rcases h with hlow | hhigh
  · rcases Nat.eq_zero_or_pos res.toNat with hzero | hpos
    · obtain rfl : res = 0 := BitVec.eq_of_toNat_eq hzero
      decide +kernel
    · obtain ⟨k, hk, hb⟩ := exists_entry hpos (by omega)
      -- the last entry starts at 80 degrees
      have hlast : 120 ≤ k := (hb.le_iff ntcTable_antitone).mp (Nat.le_of_lt hlow)
      rw [res2Temp_eq_tenths hb hk, if_neg]
      unfold tenthsAt
      omega
  · unfold res2Temp
    exact if_pos hhigh

-- ---------------------------------------------------------------------------
-- One call
-- ---------------------------------------------------------------------------

theorem WindowOk.average_toNat (h : WindowOk list) :
    ((BitVec.ofInt 32 (windowAverage list)).toNat : Int) = windowAverage list := by
  obtain ⟨hlow, hhigh⟩ := h.sum_bounds
  rw [BitVec.toNat_ofInt, windowAverage, Int.tdiv_eq_ediv_of_nonneg hlow]
  omega

theorem WindowOk.nullOutside (h : WindowOk list) {sample : AdcSample}
    (hvalue : sample.value.toNat ≤ 4095) : NullOutside sample list := by
  intro hfails hout
  have haverage := (h.shift hvalue (AdcSample.full_of_not_fails hfails).2).average_toNat
  rw [getNtcValue_full hfails]
  refine res2Temp_outside ?_
  rw [← windowAverage]
  omega

theorem WindowOk.signed (h : WindowOk list) {sample : AdcSample}
    (hvalue : sample.value.toNat ≤ 4095) : ∀ x ∈ sample.signedResults list, FitsInt32 x := by
  intro x hx
  unfold AdcSample.signedResults at hx
  split at hx
  · rcases List.mem_append.mp hx with hx | hx
    · obtain rfl := List.mem_singleton.mp hx
      have hle := quotient_toNat_le hvalue
      unfold FitsInt32
      omega
    split at hx
    · cases hx
    · rename_i hfails
      have hshift := h.shift hvalue (AdcSample.full_of_not_fails hfails).2
      rcases List.mem_append.mp hx with hx | hx
      · obtain ⟨turns, hturns, rfl⟩ := List.mem_map.mp hx
        have hsum := (hshift.initial ((List.mem_inits _ _).mp hturns)).sum_bounds
        unfold FitsInt32
        omega
      · have hi := (res2TempSearch (BitVec.ofInt 32 (windowAverage (sample.shift list))) 128 8).isLt
        have htable (i : Nat) : ntcTable i ≤ 203750 := ntcRtable_le i
        simp only [res2TempSigned, List.mem_cons, List.not_mem_nil, or_false] at hx
        unfold FitsInt32
        rcases hx with rfl | rfl | rfl
        · omega
        · omega
        · have hfirst := htable (res2TempSearch
            (BitVec.ofInt 32 (windowAverage (sample.shift list))) 128 8).toNat
          have hnext := htable ((res2TempSearch
            (BitVec.ofInt 32 (windowAverage (sample.shift list))) 128 8).toNat + 1)
          omega
  · cases hx

theorem WindowOk.divisors (h : WindowOk list) {sample : AdcSample}
    (hvalue : sample.value.toNat ≤ 4095) :
    0 ∉ sample.divisors list ↔ sample.found = false ∨ AverageCovered sample list := by
  unfold AdcSample.divisors AverageCovered
  cases hfound : sample.found with
  | false => simp
  | true =>
    have hheadroom : 0 ≠ referVoltage - ntcVol sample.value := by
      intro hzero
      have hle := ntcVol_le hvalue
      have hroom := headroom_toNat hvalue
      have hnat : BitVec.toNat (0 : U32) = 0 := rfl
      rw [← hzero] at hroom
      omega
    by_cases hfails : sample.Fails list
    · simpa [hfails, convertBits] using hheadroom
    · have haverage := (h.shift hvalue (AdcSample.full_of_not_fails hfails).2).average_toNat
      have hcovered : 0 ≠ res2TempDivisor (BitVec.ofInt 32 (windowAverage (sample.shift list))) ↔
          1 ≤ windowAverage (sample.shift list) ∧
            windowAverage (sample.shift list) ≤ 203750 := by
        have hnat : BitVec.toNat (0 : U32) = 0 := rfl
        rw [ne_comm, ne_eq, res2TempDivisor_eq_zero, not_or, Nat.not_lt, ← BitVec.toNat_inj, hnat]
        omega
      simp only [if_true, hfails, if_false, List.cons_append, List.nil_append, List.mem_cons,
        List.not_mem_nil, or_false, not_or, ← ne_eq, hcovered, false_or, Bool.true_eq_false]
      exact ⟨fun hall => hall.2.2.2, fun hcov => ⟨by decide, hheadroom, by decide, hcov⟩⟩

theorem WindowOk.soundCall_iff (h : WindowOk list) {sample : AdcSample}
    (hvalue : sample.value.toNat ≤ 4095) :
    SoundCall sample list ↔ AverageCovered sample list := by
  have hdivisors : 0 ∉ sample.divisors list ↔ AverageCovered sample list := by
    rw [h.divisors hvalue]
    exact ⟨fun hor => hor.elim (fun hfound => .inl (.inl hfound)) id, .inr⟩
  constructor
  · intro hsound
    exact hdivisors.mp hsound.divisors
  · intro hcovered
    exact ⟨hdivisors.mpr hcovered, h.signed hvalue, h.nullOutside hvalue⟩

-- ---------------------------------------------------------------------------
-- Any number of calls
-- ---------------------------------------------------------------------------

/-- On any sensor signal, every call is sound exactly when every average that is
looked up is at least one and not above the first entry. -/
theorem ntc_sound_iff (samples : List AdcSample)
    (hvalues : ∀ sample ∈ samples, sample.value.toNat ≤ 4095) :
    Within ntcStep SoundCall samples [] ↔ Within ntcStep AverageCovered samples [] :=
  Machine.within_congr (P := WindowOk) (fun sample hs _ h => h.step (hvalues sample hs))
    (fun sample hs _ h => h.soundCall_iff (hvalues sample hs)) ⟨Nat.zero_le 10, nofun⟩

def readings (value : U32) (n : Nat) : List AdcSample := List.replicate n ⟨true, value, true, true⟩

/-- At the eleventh reading of a sensor that is open the average is above the
table, and of one that is shorted zero: in either case the divisor is zero. -/
theorem ntc_sound_fails :
    (¬Within ntcStep SoundCall (readings 4095 11) []) ∧
      ¬Within ntcStep SoundCall (readings 0 11) [] := by
  decide +kernel

/-- Ten readings at room temperature, and an eleventh. -/
theorem ntc_sound_room : Within ntcStep SoundCall (readings 2048 11) [] :=
  (ntc_sound_iff (readings 2048 11) (by decide +kernel)).mpr (by decide +kernel)

end Hvac
