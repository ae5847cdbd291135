import Hvac.Gating
import Hvac.Traffic

/-!
# Without a temperature

The layers below the control program announce a missing temperature by
`VALUE_NULL`, all but one: `GetNtcValue` answers a missing converter with
`RT_ERROR`, the number one, which its callers take for a tenth of a degree.
-/

namespace Hvac

-- ---------------------------------------------------------------------------
-- A temperature nobody sent
-- ---------------------------------------------------------------------------

def regNowTemp : U16 := 0xF002

theorem decode_nowTemp (h : Register.decode reg = .nowTemp) : reg = regNowTemp := by
  apply BitVec.eq_of_toNat_eq
  unfold Register.decode at h
  split at h <;> first | assumption | cases h

theorem writeRegister_temp (h : reg ≠ regNowTemp) (v : U16) (m : Module) :
    (writeRegister reg v m).sensor.temp = m.sensor.temp := by
  unfold writeRegister modbusCommand
  cases hr : Register.decode reg <;> first | rfl | exact absurd (decode_nowTemp hr) h

/-- As long as no temperature was received, the reading is `VALUE_NULL`. -/
theorem temp_of_not_written (flash : List U8) (rtc : Rtc) (uniqueId : Fin 12 → U8)
    (events : List Event) :
    writtenSinceBoot regNowTemp events (powerUp flash rtc uniqueId) = false →
      (run events (powerUp flash rtc uniqueId)).sensor.temp = valueNull := by
  refine run_writtenSinceBoot
    (R := fun m written => written = false → m.sensor.temp = valueNull)
    (fun _ _ _ _ => rfl) (fun m m' written hsame h hw => ?_) (fun r v m written h hw => ?_)
    flash rtc uniqueId events
  · rw [hsame.sensor]
    exact h hw
  · split at hw
    · cases hw
    · rename_i hne
      rw [writeRegister_temp hne]
      exact h hw

-- ---------------------------------------------------------------------------
-- A temperature nobody measured
-- ---------------------------------------------------------------------------

/-- The call has no temperature: no converter, a channel that cannot be
disabled, or less than ten samples. -/
def AdcSample.Fails (sample : AdcSample) (list : List Int) : Prop :=
  sample.found = false ∨ sample.disabled = false ∨ list.length < 10

instance (sample : AdcSample) (list : List Int) : Decidable (sample.Fails list) :=
  inferInstanceAs (Decidable (_ ∨ _ ∨ _))

/-- The samples of a full window after one more conversion. -/
def AdcSample.shift (sample : AdcSample) (list : List Int) : List Int :=
  if sample.malloc then ntcResistance sample.value :: list.dropLast else list

/-- The temperature of a full window. -/
def windowTemperature (list : List Int) : Int :=
  res2Temp (BitVec.ofInt 32 ((list.foldl (· + ·) 0).tdiv 10))

theorem getNtcValue_missing {sample : AdcSample} (h : sample.found = false) :
    getNtcValue sample list = (list, 1) := by
  simp [getNtcValue, h]

theorem getNtcValue_full {sample : AdcSample} (h : ¬sample.Fails list) :
    getNtcValue sample list = (sample.shift list, windowTemperature (sample.shift list)) := by
  simp only [AdcSample.Fails, not_or, Bool.not_eq_false, Nat.not_lt] at h
  obtain ⟨hfound, hdisabled, hlen⟩ := h
  simp [getNtcValue, hfound, hdisabled, Nat.not_lt.mpr hlen, AdcSample.shift, windowTemperature]

/-- With the converter there, a call without a temperature says so. -/
theorem getNtcValue_fails {sample : AdcSample} (hfound : sample.found = true)
    (h : sample.Fails list) : (getNtcValue sample list).2 = valueNull := by
  rcases h with h | h | h
  · rw [hfound] at h
    cases h
  · simp [getNtcValue, hfound, h]
  · unfold getNtcValue
    simp only [hfound, h]
    split
    · contradiction
    split
    · rfl
    · rfl

/-- What the two calls of a tick take for the temperature although one of them
has none, and the control program is not told. -/
def mistaken (adc : Adc) (list : List Int) : Option Int :=
  if adc.second.found = false then
    if adc.first.found = false ∨
        ¬adc.first.Fails list ∧ windowTemperature (adc.first.shift list) > -20 then some 1
    else none
  else if adc.first.found = false ∧ ¬adc.second.Fails list then
    some (windowTemperature (adc.second.shift list))
  else none

theorem temperatureOf_fails (hlocal : m.info.tempFrom = tempFromLocal)
    (h : adc.first.Fails m.ntcList ∨ adc.second.Fails m.ntcList) :
    temperatureOf adc m = (mistaken adc m.ntcList).getD valueNull := by
  have hremote : m.info.tempFrom ≠ tempFromRemote := by rw [hlocal]; decide
  unfold temperatureOf getTempValue mistaken
  rw [if_neg hremote, if_pos hlocal]
  cases hfirst : adc.first.found with
  | false =>
    -- the check passes the number one, and the second call decides
    rw [getNtcValue_missing hfirst]
    cases hsecond : adc.second.found with
    | false => simp [getNtcValue_missing hsecond]
    | true =>
      by_cases hf : adc.second.Fails m.ntcList
      · simp [getNtcValue_fails hsecond hf, hf]
      · simp [getNtcValue_full hf, hf]
  | true =>
    by_cases hf : adc.first.Fails m.ntcList
    · have hnull := getNtcValue_fails hfirst hf
      simp [hnull, hf, valueNull]
    · have hmiss := h.resolve_left hf
      rw [getNtcValue_full hf]
      by_cases hcold : windowTemperature (adc.first.shift m.ntcList) ≤ -20
      · simp [hcold, Int.not_lt.mpr hcold]
      cases hsecond : adc.second.found with
      | false => simp [getNtcValue_missing hsecond, hcold, hf, Int.not_le.mp hcold]
      | true =>
        have hnull : adc.second.Fails (adc.first.shift m.ntcList) := by
          obtain h | h | h := hmiss
          · exact .inl h
          · exact .inr (.inl h)
          · exact absurd (.inr (.inr h)) hf
        simp [getNtcValue_fails hsecond hnull, hcold]

-- ---------------------------------------------------------------------------
-- The tick
-- ---------------------------------------------------------------------------

/-- No temperature is available at a tick after these events. -/
def NoTemperature (events : List Event) (start : Module) (adc : Adc) : Prop :=
  let m := run events start
  (m.info.tempFrom = tempFromRemote ∧ writtenSinceBoot regNowTemp events start = false) ∨
    (m.info.tempFrom = tempFromLocal ∧
      (adc.first.Fails m.ntcList ∨ adc.second.Fails m.ntcList))

instance (events : List Event) (start : Module) (adc : Adc) :
    Decidable (NoTemperature events start adc) :=
  inferInstanceAs (Decidable (_ ∧ _ ∨ _ ∧ _))

/-- The control program is told, or what it takes for a temperature stops the
unit, or something else does. -/
def StopsAnyway (adc : Adc) (m : Module) : Prop :=
  m.info.tempFrom = tempFromLocal → ∀ temperature ∈ mistaken adc m.ntcList,
    temperature = valueNull ∨ getSetPoint m = valueNull ∨ GatedOff m ∨
      InDeadband temperature (getSetPoint m) m.info.deadBand.toNat

/-- In every reachable state: a tick without a temperature stops the unit exactly
when the missing converter does not pass for 0.1 degrees, or that stops it too. -/
theorem fail_safe (flash : List U8) (rtc : Rtc) (uniqueId : Fin 12 → U8) (events : List Event)
    (adc : Adc) (h : NoTemperature events (powerUp flash rtc uniqueId) adc) :
    (controlProgram adc (run events (powerUp flash rtc uniqueId))).Stopped ↔
      StopsAnyway adc (run events (powerUp flash rtc uniqueId)) := by
  rw [stopped_iff_quiet]
  obtain ⟨hremote, hw⟩ | ⟨hlocal, hfails⟩ := h
  · have hnull := temp_of_not_written flash rtc uniqueId events hw
    refine iff_of_true (.inl (.inl ?_)) fun hlocal => ?_
    · simp [temperatureOf, getTempValue, hremote, hnull]
    · rw [hremote] at hlocal
      cases hlocal
  · have htemp := temperatureOf_fails hlocal hfails
    simp only [Quiet, NoReading, Satisfied, StopsAnyway, htemp, hlocal, forall_const]
    cases mistaken adc (run events (powerUp flash rtc uniqueId)).ntcList with
    | none => simp
    | some temperature => simp [or_assoc]

/-- The module is switched to its own sensor, which has no converter. -/
def withoutConverter : List Event :=
  registered ++ [.input (sealFrame [0x01, 0x06, 0x04, 0x0D, 0x00, 0x02]), .poll ⟨true, true⟩]

def noConverter : Adc := ⟨⟨false, 0, true, true⟩, ⟨false, 0, true, true⟩⟩

/-- In its default settings it heats. -/
theorem fail_safe_fails :
    ¬∀ events adc, NoTemperature events blank adc →
      (controlProgram adc (run events blank)).Stopped := by
  intro h
  exact absurd (h withoutConverter noConverter (by decide +kernel)) (by decide +kernel)

/-- One that was never told a temperature stands still. -/
theorem fail_safe_remote : (controlProgram noConverter (run registered blank)).Stopped :=
  (fail_safe [] {} (fun _ => 0) registered noConverter (by decide +kernel)).mpr
    fun hlocal => absurd hlocal (by decide +kernel)

end Hvac
