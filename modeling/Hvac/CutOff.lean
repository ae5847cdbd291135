import Hvac.SensorRange

/-!
# The low-temperature cut-off

`GetTempValue` checks one average and returns the next, which one more sample
has moved. Between the two the temperature may fall below the cut-off.
-/

namespace Hvac

open Lookup (Bracket)

-- ---------------------------------------------------------------------------
-- The cut-off as a resistance
-- ---------------------------------------------------------------------------

/-- The table has a temperature for this average, and it is at the cut-off or below. -/
def ColdWindow (list : List Int) : Prop :=
  let average : U32 := BitVec.ofInt 32 (windowAverage list)
  29821 ≤ average.toNat ∧ average.toNat ≤ 203750

/-- The table has a temperature above the cut-off. -/
def WarmWindow (list : List Int) : Prop :=
  let average : U32 := BitVec.ofInt 32 (windowAverage list)
  1678 < average.toNat ∧ average.toNat < 29821

instance (list : List Int) : Decidable (ColdWindow list) := inferInstanceAs (Decidable (_ ∧ _))

instance (list : List Int) : Decidable (WarmWindow list) := inferInstanceAs (Decidable (_ ∧ _))

/-- Two tenths above the entry for -2 degrees is the first resistance over the cut-off. -/
theorem tenthsAt_le_iff (hb : Bracket ntcTable res k) (hk : k < 121) :
    tenthsAt res k ≤ -20 ↔ 29821 ≤ res := by
  have hpart := part_lt_ten hb
  have hcold : ntcTable 38 = 29949 := by decide +kernel
  have hnext : ntcTable 39 = 28661 := by decide +kernel
  have hentry (i : Nat) : res ≤ ntcTable i ↔ i ≤ k := hb.le_iff ntcTable_antitone
  have h38 := hentry 38
  have h39 := hentry 39
  unfold tenthsAt
  rcases Nat.lt_trichotomy k 38 with hlt | rfl | hgt
  · omega
  · unfold Lookup.part at hpart ⊢
    rw [hcold, hnext] at *
    omega
  · omega

theorem res2Temp_covered {res : U32} (hlow : 1678 < res.toNat) (hmax : res.toNat ≤ 203750) :
    (res2Temp res ≤ -20 ↔ 29821 ≤ res.toNat) ∧ res2Temp res ≠ valueNull := by
  obtain ⟨k, hk, hb⟩ := exists_entry (Nat.zero_lt_of_lt hlow) hmax
  rw [res2Temp_eq_tenths hb hk, if_pos (tenthsAt_lt hb hk hlow)]
  refine ⟨tenthsAt_le_iff hb hk, ?_⟩
  unfold tenthsAt valueNull
  omega

/-- What the table does not cover, the last entry included, has no temperature. -/
theorem res2Temp_uncovered {res : U32} (h : res.toNat ≤ 1678 ∨ 203750 < res.toNat) :
    res2Temp res = valueNull := by
  rcases h with hlow | hhigh
  · rcases Nat.lt_or_eq_of_le hlow with hlt | heq
    · exact res2Temp_outside (.inl hlt)
    · obtain rfl : res = 1678 := BitVec.eq_of_toNat_eq heq
      decide +kernel
  · exact res2Temp_outside (.inr hhigh)

theorem windowTemperature_cases (list : List Int) :
    (WarmWindow list ∧ ¬ColdWindow list ∧ -20 < windowTemperature list) ∨
      (ColdWindow list ∧ ¬WarmWindow list ∧ windowTemperature list ≤ -20 ∧
        windowTemperature list ≠ valueNull) ∨
      (¬WarmWindow list ∧ ¬ColdWindow list ∧ windowTemperature list = valueNull) := by
  have hres : windowTemperature list = res2Temp (BitVec.ofInt 32 (windowAverage list)) := rfl
  unfold WarmWindow ColdWindow
  rw [hres]
  dsimp only
  generalize (BitVec.ofInt 32 (windowAverage list) : U32) = res
  by_cases hcovered : 1678 < res.toNat ∧ res.toNat ≤ 203750
  · obtain ⟨hiff, hne⟩ := res2Temp_covered hcovered.1 hcovered.2
    by_cases hcold : 29821 ≤ res.toNat
    · refine .inr (.inl ⟨by omega, by omega, hiff.mpr hcold, hne⟩)
    · refine .inl ⟨by omega, by omega, Int.not_le.mp fun hle => hcold (hiff.mp hle)⟩
  · have hout : res.toNat ≤ 1678 ∨ 203750 < res.toNat := by omega
    have hnull := res2Temp_uncovered hout
    exact .inr (.inr ⟨by omega, by omega, hnull⟩)

-- ---------------------------------------------------------------------------
-- The two calls
-- ---------------------------------------------------------------------------

/-- The value the control program gets is none, or above the cut-off. -/
def CutOff (adc : Adc) (m : Module) : Prop :=
  temperatureOf adc m = valueNull ∨ -20 < temperatureOf adc m

instance (adc : Adc) (m : Module) : Decidable (CutOff adc m) := inferInstanceAs (Decidable (_ ∨ _))

/-- The first call passes the check, for want of a converter or on a warm
average, and the sample of the second makes the average cold. -/
def SlipsThrough (adc : Adc) (list : List Int) : Prop :=
  (adc.first.found = false ∧ ¬adc.second.Fails list ∧ ColdWindow (adc.second.shift list)) ∨
    (¬adc.first.Fails list ∧ WarmWindow (adc.first.shift list) ∧
      ¬adc.second.Fails (adc.first.shift list) ∧
      ColdWindow (adc.second.shift (adc.first.shift list)))

instance (adc : Adc) (list : List Int) : Decidable (SlipsThrough adc list) :=
  inferInstanceAs (Decidable (_ ∨ _))

/-- What the second call returns is cut off unless its average is cold. -/
theorem second_cut_off (sample : AdcSample) (list : List Int) :
    ((getNtcValue sample list).2 = valueNull ∨ -20 < (getNtcValue sample list).2) ↔
      ¬(¬sample.Fails list ∧ ColdWindow (sample.shift list)) := by
  by_cases hfails : sample.Fails list
  · refine iff_of_true ?_ fun h => h.1 hfails
    cases hfound : sample.found with
    | false =>
      rw [getNtcValue_missing hfound]
      refine .inr ?_
      show (-20 : Int) < 1
      decide
    | true => exact .inl (getNtcValue_fails hfound hfails)
  · rw [getNtcValue_full hfails]
    obtain ⟨-, hcold, hwarm⟩ | ⟨hcold, -, hle, hne⟩ | ⟨-, hcold, hnull⟩ :=
      windowTemperature_cases (sample.shift list)
    · exact iff_of_true (.inr hwarm) fun h => hcold h.2
    · refine iff_of_false ?_ fun h => h ⟨hfails, hcold⟩
      rintro (hnull | hlt)
      · exact hne hnull
      · exact absurd hle (Int.not_le.mpr hlt)
    · exact iff_of_true (.inl hnull) fun h => hcold h.2

/-- For every list of samples and all readings: the value returned is none or
above the cut-off exactly when no cold average slips through. -/
theorem cut_off_iff (adc : Adc) (m : Module) (hlocal : m.info.tempFrom = tempFromLocal) :
    CutOff adc m ↔ ¬SlipsThrough adc m.ntcList := by
  have hremote : m.info.tempFrom ≠ tempFromRemote := by rw [hlocal]; decide
  unfold CutOff temperatureOf getTempValue SlipsThrough
  rw [if_neg hremote, if_pos hlocal]
  by_cases hfails : adc.first.Fails m.ntcList
  · cases hfound : adc.first.found with
    | false =>
      have hpass : ¬(1 : Int) ≤ -20 := by decide
      simp only [getNtcValue_missing hfound, hpass, if_false, second_cut_off, hfails]
      simp
    | true =>
      have hnull := getNtcValue_fails hfound hfails
      simp [hnull, hfails, valueNull]
  · have hfound := (AdcSample.full_of_not_fails hfails).1
    simp only [getNtcValue_full hfails, hfails, hfound]
    obtain ⟨hwarm, -, hlt⟩ | ⟨-, hwarm, hle, -⟩ | ⟨hwarm, -, hnull⟩ :=
      windowTemperature_cases (adc.first.shift m.ntcList)
    · rw [if_neg (Int.not_le.mpr hlt), second_cut_off]
      simp [hwarm]
    · simp [hle, hwarm]
    · have hpass : valueNull ≤ -20 := by decide
      simp [hnull, hpass, hwarm]

def sampleOf (value : U32) : AdcSample := ⟨true, value, true, true⟩

/-- A module on its own sensor, after ten samples of -1.9 degrees. -/
def coolRoom : List Event :=
  withoutConverter ++ List.replicate 10 (.controlProgram ⟨sampleOf 3068, sampleOf 3068⟩)

/-- One sample more of the same, and one of -4.1 degrees. -/
def coldDraught : Adc := ⟨sampleOf 3068, sampleOf 3141⟩

/-- The check passes, the control program is told -2.2 degrees, and heats. -/
theorem cut_off_fails : (run coolRoom blank).info.tempFrom = tempFromLocal ∧
    temperatureOf coldDraught (run coolRoom blank) = -22 ∧
    ¬CutOff coldDraught (run coolRoom blank) ∧
    (controlProgram coldDraught (run coolRoom blank)).info.coolOrHeat = heating := by
  decide +kernel

theorem cut_off_steady : CutOff ⟨sampleOf 3068, sampleOf 3068⟩ (run coolRoom blank) :=
  (cut_off_iff ⟨sampleOf 3068, sampleOf 3068⟩ (run coolRoom blank) (by decide +kernel)).mpr
    (by decide +kernel)

end Hvac
