import Hvac.FailSafe
import Hvac.Thermostat

/-!
# Where the temperature comes from

The same temperature, measured by the module or sent by the master. The master
sends a word in two's complement, and the register keeps it unsigned: a
temperature below zero is read as one above six thousand degrees.
-/

namespace Hvac

def fromLocal (m : Module) : Module := { m with info.tempFrom := tempFromLocal }

/-- The master's temperature is the source, and it has just been received. -/
def fromRemote (temperature : Int) (m : Module) : Module :=
  writeRegister regNowTemp (BitVec.ofInt 16 temperature)
    { m with info.tempFrom := tempFromRemote }

/-- What a call drives: nothing, or a direction and its stage. -/
def Module.drives (m : Module) : Option (U8 × U8) :=
  if m.info.coolOrHeat = norun then none else some (m.info.coolOrHeat, m.control.stage)

def driveFor (temperature : Int) (m : Module) : Option (U8 × U8) :=
  let c := demand temperature (getSetPoint m) m.info.deadBand.toNat
  if c = norun then none else some (c, (m.control.next m.timeRun temperature c).stage)

theorem controlProgram_drives_stopped (h : NoReading adc m ∨ GatedOff m) :
    (controlProgram adc m).drives = none := by
  have hquiet : Quiet adc m := by
    obtain h | h := h
    · exact .inl h
    · exact .inr (.inl h)
  exact if_pos (controlProgram_quiet hquiet).1

theorem controlProgram_drives (hreading : ¬NoReading adc m) (hgate : ¬GatedOff m) :
    (controlProgram adc m).drives = driveFor (temperatureOf adc m) m := by
  unfold Module.drives driveFor
  rw [controlProgram_demand hreading hgate,
    controlProgram_control (not_endsEarly hreading hgate)]

-- ---------------------------------------------------------------------------
-- The two sources
-- ---------------------------------------------------------------------------

@[simp] theorem driveFor_fromLocal (t : Int) (m : Module) :
    driveFor t (fromLocal m) = driveFor t m := rfl
@[simp] theorem driveFor_fromRemote (t t' : Int) (m : Module) :
    driveFor t' (fromRemote t m) = driveFor t' m := rfl

theorem temperatureOf_fromRemote (adc : Adc) (t : Int) (m : Module) :
    temperatureOf adc (fromRemote t m) = (BitVec.ofInt 16 t).toNat := rfl

/-- Below zero the word reads one turn of sixteen bits higher. -/
theorem toNat_word (hmin : -20 < t) (hmax : t < 800) :
    ((BitVec.ofInt 16 t).toNat : Int) = if 0 ≤ t then t else t + 65536 := by
  rw [BitVec.toNat_ofInt]
  split <;> omega

theorem demand_aboveAll (point : S16) (deadband : U8) (h : 65000 ≤ t) :
    demand t point.toInt deadband.toNat = cooling := by
  refine demand_cooling.mpr ?_
  have hpoint := point.toInt_lt
  have hband := deadband.isLt
  unfold tempMax
  omega

theorem getSetPoint_bounded (m : Module) : ∃ point : S16, getSetPoint m = point.toInt := by
  unfold getSetPoint
  split
  · split
    · exact ⟨_, rfl⟩
    split
    · exact ⟨_, rfl⟩
    · exact ⟨BitVec.ofInt 16 valueNull, rfl⟩
  · exact ⟨_, rfl⟩

-- ---------------------------------------------------------------------------
-- When they agree
-- ---------------------------------------------------------------------------

def SameCoolingStage (temperature : Int) (m : Module) : Prop :=
  m.control.coolOrHeat ≠ cooling ∨ m.control.stage = 2 ∨
    m.timeRun ≤ m.control.lastTime + 300 ∨
    ((temperature - m.control.lastTemp).natAbs > 10 ∧
      (temperature + 65536 - m.control.lastTemp).natAbs > 10)

theorem next_cooling_eq :
    (m.control.next m.timeRun (t + 65536) cooling).stage =
        (m.control.next m.timeRun t cooling).stage ↔ SameCoolingStage t m := by
  unfold ControlStatics.next SameCoolingStage
  cases Decidable.em (m.control.coolOrHeat = cooling) with
  | inl hcooling =>
    -- a turn apart, at most one of the readings is within a degree of the last
    have hfar : ¬((t + 65536 - m.control.lastTemp).natAbs ≤ 10 ∧
        (t - m.control.lastTemp).natAbs ≤ 10) := by omega
    cases Decidable.em (m.control.lastTime + 300 < m.timeRun) with
    | inl hlate =>
      have hlast : ¬m.timeRun ≤ m.control.lastTime + 300 := Nat.not_le.mpr hlate
      simp only [hcooling, ne_eq, not_true_eq_false, if_false, false_or, gt_iff_lt, hlate, hlast,
        true_and, ← Nat.not_le, apply_ite ControlStatics.stage]
      split <;> split <;> simp_all [eq_comm]
    | inr hearly =>
      have hlast : m.timeRun ≤ m.control.lastTime + 300 := Nat.not_lt.mp hearly
      simp [hcooling, hearly, hlast]
  | inr hother => simp [hother]

/-- Stopped by something other than the temperature. -/
theorem sources_stopped (h : getSetPoint m = valueNull ∨ GatedOff m) :
    (controlProgram adc (fromRemote t m)).drives = (controlProgram adc (fromLocal m)).drives := by
  have hstop (m' : Module) (hpoint : getSetPoint m' = getSetPoint m)
      (hgate : GatedOff m' ↔ GatedOff m) : (controlProgram adc m').drives = none := by
    refine controlProgram_drives_stopped ?_
    rw [hgate, NoReading, hpoint]
    exact h.imp_left .inr
  rw [hstop (fromRemote t m) rfl Iff.rfl, hstop (fromLocal m) rfl Iff.rfl]

/-- Otherwise each reading drives what it asks for. -/
theorem sources_drive (hlocal : temperatureOf adc (fromLocal m) = t) (hmin : -20 < t)
    (hmax : t < 800) (hpoint : getSetPoint m ≠ valueNull) (hgate : ¬GatedOff m) :
    (controlProgram adc (fromRemote t m)).drives =
        driveFor (if 0 ≤ t then t else t + 65536) m ∧
      (controlProgram adc (fromLocal m)).drives = driveFor t m := by
  have hword := toNat_word hmin hmax
  have hremote : ¬NoReading adc (fromRemote t m) := by
    rintro (h | h)
    · rw [temperatureOf_fromRemote, hword] at h
      split at h <;> simp only [valueNull] at h <;> omega
    · exact hpoint h
  have hown : ¬NoReading adc (fromLocal m) := by
    rintro (h | h)
    · rw [hlocal] at h
      simp only [valueNull] at h
      omega
    · exact hpoint h
  rw [controlProgram_drives hremote hgate, controlProgram_drives hown hgate, hlocal,
    temperatureOf_fromRemote, driveFor_fromLocal, driveFor_fromRemote, hword]
  exact ⟨rfl, rfl⟩

theorem driveFor_turn (hmin : -20 < t) :
    driveFor (t + 65536) m = driveFor t m ↔
      t > tempMax (getSetPoint m) m.info.deadBand.toNat ∧ SameCoolingStage t m := by
  obtain ⟨point, hpoint⟩ := getSetPoint_bounded m
  have hcool : demand (t + 65536) (getSetPoint m) m.info.deadBand.toNat = cooling := by
    rw [hpoint]
    exact demand_aboveAll point _ (by omega)
  have hcooling : cooling ≠ norun := by decide
  simp only [driveFor, hcool, hcooling, if_false]
  rw [← demand_cooling]
  constructor
  · intro heq
    split at heq
    · cases heq
    · simp only [Option.some.injEq, Prod.mk.injEq] at heq
      obtain ⟨hc, hstage⟩ := heq
      rw [← hc] at hstage
      exact ⟨hc.symm, next_cooling_eq.mp hstage⟩
  · rintro ⟨hc, hsame⟩
    rw [hc, if_neg hcooling, next_cooling_eq.mpr hsame]

/-- The temperature of the sensor and the same temperature from the master lead
to one decision exactly when it is not below zero, or something other than the
temperature stops the unit, or it cools at either reading, in one stage. -/
theorem sources_agree (hlocal : temperatureOf adc (fromLocal m) = t) (hmin : -20 < t)
    (hmax : t < 800) :
    (controlProgram adc (fromRemote t m)).drives = (controlProgram adc (fromLocal m)).drives ↔
      0 ≤ t ∨ getSetPoint m = valueNull ∨ GatedOff m ∨
        t > tempMax (getSetPoint m) m.info.deadBand.toNat ∧ SameCoolingStage t m := by
  cases Decidable.em (getSetPoint m = valueNull ∨ GatedOff m) with
  | inl hstopped =>
    refine iff_of_true (sources_stopped hstopped) (.inr ?_)
    obtain h | h := hstopped
    · exact .inl h
    · exact .inr (.inl h)
  | inr hrunning =>
    obtain ⟨hpoint, hgate⟩ := not_or.mp hrunning
    obtain ⟨hremote, hown⟩ := sources_drive hlocal hmin hmax hpoint hgate
    rw [hremote, hown]
    cases Decidable.em (0 ≤ t) with
    | inl hpos => simp [hpos]
    | inr hneg => simp only [hneg, hpoint, hgate, if_false, false_or, driveFor_turn hmin]

/-- The sensor delivers one value for as long as the average reaches back. -/
def steady (value : U32) : Adc := ⟨⟨true, value, true, true⟩, ⟨true, value, true, true⟩⟩

def sensing (value : U32) : Module :=
  run (List.replicate 10 (.homePage (steady value))) (fromLocal blank)

theorem sources_agree_warm :
    (controlProgram (steady 2048) (fromRemote 250 (sensing 2048))).drives =
      (controlProgram (steady 2048) (fromLocal (sensing 2048))).drives :=
  (sources_agree (by decide +kernel) (by decide) (by decide)).mpr (.inl (by decide))

/-- At 1.0 degree below zero: the sensor's reading heats, the master's cools. -/
theorem sources_agree_fails :
    temperatureOf (steady 3036) (fromLocal (sensing 3036)) = -10 ∧
      (controlProgram (steady 3036) (fromLocal (sensing 3036))).drives = some (heating, 1) ∧
      (controlProgram (steady 3036) (fromRemote (-10) (sensing 3036))).drives =
        some (cooling, 1) := by
  refine ⟨?_, ?_, ?_⟩ <;> decide +kernel

end Hvac
