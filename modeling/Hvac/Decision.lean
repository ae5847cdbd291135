import Hvac.Run

/-!
# What the control program decides

One lemma says what a call leaves when its inputs stop the unit
(`controlProgram_quiet`), one what it leaves otherwise
(`controlProgram_active`). From them: when the slave gating holds, and when
the outputs depend on the decision alone.
-/

namespace Hvac

open Machine (Within)

-- ---------------------------------------------------------------------------
-- Inputs of a call
-- ---------------------------------------------------------------------------

def temperatureOf (adc : Adc) (m : Module) : Int := (getTempValue adc m).2

def InDeadband (temperature point deadband : Int) : Prop :=
  tempMin point deadband ≤ temperature ∧ temperature ≤ tempMax point deadband

instance (t p d : Int) : Decidable (InDeadband t p d) := inferInstanceAs (Decidable (_ ∧ _))

def NoReading (adc : Adc) (m : Module) : Prop :=
  temperatureOf adc m = valueNull ∨ getSetPoint m = valueNull

instance (adc : Adc) (m : Module) : Decidable (NoReading adc m) :=
  inferInstanceAs (Decidable (_ ∨ _))

def Satisfied (adc : Adc) (m : Module) : Prop :=
  InDeadband (temperatureOf adc m) (getSetPoint m) m.info.deadBand.toNat

instance (adc : Adc) (m : Module) : Decidable (Satisfied adc m) :=
  inferInstanceAs (Decidable (InDeadband ..))

/-- The two gates, as the code has them: they compare the wiring mode. -/
def GatedOff (m : Module) : Prop :=
  (m.action.en = no ∨ m.info.connected = no) ∧ m.info.mode = moduleSlave

instance (m : Module) : Decidable (GatedOff m) := inferInstanceAs (Decidable (_ ∧ _))

def Quiet (adc : Adc) (m : Module) : Prop := NoReading adc m ∨ GatedOff m ∨ Satisfied adc m

instance (adc : Adc) (m : Module) : Decidable (Quiet adc m) :=
  inferInstanceAs (Decidable (_ ∨ _ ∨ _))

def demand (temperature point deadband : Int) : U8 :=
  if temperature > tempMax point deadband then cooling
  else if temperature < tempMin point deadband then heating
  else norun

theorem demand_cases (h : ¬InDeadband t p d) : demand t p d = cooling ∨ demand t p d = heating := by
  unfold demand
  split
  · exact .inl rfl
  · rename_i hmax
    rw [if_pos]
    · exact .inr rfl
    · exact Int.not_le.mp fun hmin => h ⟨hmin, Int.not_lt.mp hmax⟩

-- ---------------------------------------------------------------------------
-- The steps of a call
-- ---------------------------------------------------------------------------

@[simp] theorem stop_relays (m : Module) : (stop m).relays = .off := rfl
@[simp] theorem stop_info (m : Module) : (stop m).info = { m.info with coolOrHeat := norun } := rfl

theorem compareTemperature_inDeadband
    (h : InDeadband temperature point m.info.deadBand.toNat) :
    compareTemperature temperature point m = stop m := by
  unfold compareTemperature
  rw [if_neg (Int.not_lt.mpr h.2), if_neg (Int.not_lt.mpr h.1)]

theorem compareTemperature_active
    (h : ¬InDeadband temperature point m.info.deadBand.toNat) :
    compareTemperature temperature point m =
      { m with info.coolOrHeat := demand temperature point m.info.deadBand.toNat } := by
  unfold compareTemperature demand
  dsimp only
  split
  · rfl
  · rename_i hmax
    have hmin : temperature < tempMin point m.info.deadBand.toNat :=
      Int.not_le.mp fun hmin => h ⟨hmin, Int.not_lt.mp hmax⟩
    rw [if_pos hmin, if_pos hmin]

@[simp] theorem followChange_info (t : Int) (m : Module) : (followChange t m).info = m.info := by
  unfold followChange; split <;> rfl
@[simp] theorem followChange_relays (t : Int) (m : Module) :
    (followChange t m).relays = m.relays := by
  unfold followChange; split <;> rfl
@[simp] theorem raiseStage_info (n : Nat) (t : Int) (m : Module) :
    (raiseStage n t m).info = m.info := by
  unfold raiseStage; split <;> rfl
@[simp] theorem raiseStage_relays (n : Nat) (t : Int) (m : Module) :
    (raiseStage n t m).relays = m.relays := by
  unfold raiseStage; split <;> rfl

theorem writeAll_norun (relays : Relays) (s mode : U8) :
    relays.writeAll (ctrlRelayWrites norun s yes mode) = relays := rfl

/-- Without a pattern for the wiring mode nothing is driven. -/
theorem ctrlRelayWrites_otherMode
    (h : mode ≠ mode1Conventional ∧ mode ≠ mode2O ∧ mode ≠ mode3B) (c s : U8) :
    ctrlRelayWrites c s yes mode = [] := by
  obtain ⟨h₁, h₂, h₃⟩ := h
  simp [ctrlRelayWrites, h₁, h₂, h₃]

/-- In each of the three wiring modes a decision drives every pin. -/
theorem writeAll_eq_of_mode
    (hmode : mode = mode1Conventional ∨ mode = mode2O ∨ mode = mode3B)
    (hc : c = cooling ∨ c = heating) (hs : s = 1 ∨ s = 2) (before before' : Relays) :
    before.writeAll (ctrlRelayWrites c s yes mode) =
      before'.writeAll (ctrlRelayWrites c s yes mode) := by
  rcases hmode with rfl | rfl | rfl <;> rcases hc with rfl | rfl <;> rcases hs with rfl | rfl <;> rfl

theorem controlProgram_eq (adc : Adc) (m : Module) :
    controlProgram adc m =
      if NoReading adc m then stop (takeSamples adc m)
      else if m.action.en = no ∧ m.info.mode = moduleSlave then stop (takeSamples adc m)
      else
        driveRelays m.info.mode
          (raiseStage m.timeRun (temperatureOf adc m)
            (followChange (temperatureOf adc m)
              (compareTemperature (temperatureOf adc m) (getSetPoint m) (takeSamples adc m)))) :=
  rfl

/-- What each pass of a call preserves, the call preserves. -/
theorem controlProgram_preserves {P : Module → Prop} (adc : Adc)
    (hsamples : ∀ m, P m → P (takeSamples adc m)) (hstop : ∀ m, P m → P (stop m))
    (hdemand : ∀ c m, P m → P { m with info.coolOrHeat := c })
    (hfirst : ∀ t m, P m → P { m with control := ⟨m.timeRun, t, 1, m.info.coolOrHeat⟩ })
    (hsecond : ∀ m, P m → P { m with control.stage := 2 })
    (hrelay : ∀ c s m, P m → P (ctrlRelay c s yes m)) (h : P m) : P (controlProgram adc m) := by
  have hcompare (t p : Int) (m : Module) (h : P m) : P (compareTemperature t p m) := by
    unfold compareTemperature
    dsimp only
    repeat' split
    · exact hdemand _ m h
    · exact hdemand _ m h
    · exact hstop m h
  have hfollow (t : Int) (m : Module) (h : P m) : P (followChange t m) := by
    unfold followChange
    split
    · exact hfirst t m h
    · exact h
  have hraise (n : Nat) (t : Int) (m : Module) (h : P m) : P (raiseStage n t m) := by
    unfold raiseStage
    split
    · exact hsecond m h
    · exact h
  have hdrive (mode : U8) (m : Module) (h : P m) : P (driveRelays mode m) := by
    unfold driveRelays
    split
    · exact hstop m h
    · exact hrelay _ _ m h
  have htaken := hsamples m h
  rw [controlProgram_eq]
  split
  · exact hstop _ htaken
  split
  · exact hstop _ htaken
  · exact hdrive _ _ (hraise _ _ _ (hfollow _ _ (hcompare _ _ _ htaken)))

@[simp] theorem compareTemperature_connected (t p : Int) (m : Module) :
    (compareTemperature t p m).info.connected = m.info.connected := by
  unfold compareTemperature
  dsimp only
  repeat' split
  all_goals rfl

@[simp] theorem controlProgram_mode (adc : Adc) (m : Module) :
    (controlProgram adc m).info.mode = m.info.mode := by
  refine controlProgram_preserves (P := fun m' => m'.info.mode = m.info.mode) adc ?_ ?_ ?_ ?_ ?_ ?_ rfl
  all_goals intros; assumption

/-- A call that is quiet and gets past its readings and its gates is satisfied. -/
theorem Quiet.satisfied (h : Quiet adc m) (hreading : ¬NoReading adc m)
    (hen : ¬(m.action.en = no ∧ m.info.mode = moduleSlave))
    (hconnected : ¬(m.info.connected = no ∧ m.info.mode = moduleSlave)) : Satisfied adc m := by
  obtain h | ⟨h | h, hmode⟩ | h := h
  · exact absurd h hreading
  · exact absurd ⟨h, hmode⟩ hen
  · exact absurd ⟨h, hmode⟩ hconnected
  · exact h

theorem not_gatedOff : ¬GatedOff m ↔
    ¬(m.action.en = no ∧ m.info.mode = moduleSlave) ∧
      ¬(m.info.connected = no ∧ m.info.mode = moduleSlave) := by
  rw [GatedOff, or_and_right, not_or]

theorem not_quiet : ¬Quiet adc m ↔ ¬NoReading adc m ∧ ¬GatedOff m ∧ ¬Satisfied adc m := by
  rw [Quiet, not_or, not_or]

theorem controlProgram_quiet (h : Quiet adc m) :
    (controlProgram adc m).info.coolOrHeat = norun ∧ (controlProgram adc m).relays = .off := by
  rw [controlProgram_eq]
  split
  · exact ⟨rfl, rfl⟩
  split
  · exact ⟨rfl, rfl⟩
  rename_i hreading hen
  unfold driveRelays
  split
  · exact ⟨rfl, rfl⟩
  rename_i hconnected
  simp only [raiseStage_info, followChange_info, compareTemperature_connected] at hconnected
  -- neither gate is closed, so the temperature is within the dead band
  have hband := h.satisfied hreading hen hconnected
  rw [compareTemperature_inDeadband (m := takeSamples adc m) hband]
  simp [ctrlRelay, writeAll_norun]

/-- Otherwise the demand is decided and the stage's pattern is written. -/
theorem controlProgram_active (h : ¬Quiet adc m) :
    (controlProgram adc m).info.coolOrHeat =
        demand (temperatureOf adc m) (getSetPoint m) m.info.deadBand.toNat ∧
      (controlProgram adc m).relays =
        m.relays.writeAll (ctrlRelayWrites (controlProgram adc m).info.coolOrHeat
          (controlProgram adc m).control.stage yes m.info.mode) := by
  obtain ⟨hreading, hgate, hband⟩ := not_quiet.mp h
  obtain ⟨hen, hconnected⟩ := not_gatedOff.mp hgate
  rw [controlProgram_eq, if_neg hreading, if_neg hen]
  unfold driveRelays
  simp only [raiseStage_info, followChange_info, compareTemperature_connected]
  rw [if_neg (by exact hconnected), compareTemperature_active (m := takeSamples adc m) hband]
  constructor
  · simp [ctrlRelay]
    rfl
  · simp [ctrlRelay]
    rfl

-- ---------------------------------------------------------------------------
-- The statics
-- ---------------------------------------------------------------------------

/-- What a call leaves in the statics once it has decided `c`. -/
def ControlStatics.next (s : ControlStatics) (now : Nat) (temperature : Int) (c : U8) :
    ControlStatics :=
  if s.coolOrHeat ≠ c then ⟨now, temperature, 1, c⟩
  else if now > s.lastTime + 300 ∧ (temperature - s.lastTemp).natAbs ≤ 10 then
    { s with stage := 2 }
  else s

/-- The call ends before it compares the temperature. -/
def EndsEarly (adc : Adc) (m : Module) : Prop :=
  NoReading adc m ∨ (m.action.en = no ∧ m.info.mode = moduleSlave)

instance (adc : Adc) (m : Module) : Decidable (EndsEarly adc m) :=
  inferInstanceAs (Decidable (_ ∨ _))

theorem not_endsEarly (hreading : ¬NoReading adc m) (hgate : ¬GatedOff m) : ¬EndsEarly adc m :=
  not_or.mpr ⟨hreading, (not_gatedOff.mp hgate).1⟩

@[simp] theorem stop_control (m : Module) : (stop m).control = m.control := rfl

@[simp] theorem driveRelays_control (mode : U8) (m : Module) :
    (driveRelays mode m).control = m.control := by
  unfold driveRelays
  split <;> rfl

theorem compareTemperature_demand (t p : Int) (m : Module) :
    (compareTemperature t p m).info.coolOrHeat = demand t p m.info.deadBand.toNat ∧
      (compareTemperature t p m).control = m.control ∧
      (compareTemperature t p m).timeRun = m.timeRun := by
  unfold compareTemperature demand
  dsimp only
  split
  · exact ⟨rfl, rfl, rfl⟩
  split
  · exact ⟨rfl, rfl, rfl⟩
  · exact ⟨rfl, rfl, rfl⟩

theorem raiseStage_control (t : Int) (m : Module) :
    (raiseStage m.timeRun t (followChange t m)).control =
      m.control.next m.timeRun t m.info.coolOrHeat := by
  unfold raiseStage followChange ControlStatics.next
  split
  · -- the first second of a direction is not five minutes later
    have hnow : ¬m.timeRun + 300 < m.timeRun := by omega
    simp [hnow]
  · simp only [Decidable.not_not] at *
    split <;> rfl

theorem controlProgram_endsEarly (h : EndsEarly adc m) :
    controlProgram adc m = stop (takeSamples adc m) := by
  rw [controlProgram_eq]
  split
  · rfl
  · rename_i hreading
    rw [if_pos (h.resolve_left hreading)]

theorem controlProgram_control (h : ¬EndsEarly adc m) :
    (controlProgram adc m).control = m.control.next m.timeRun (temperatureOf adc m)
      (demand (temperatureOf adc m) (getSetPoint m) m.info.deadBand.toNat) := by
  obtain ⟨hreading, hen⟩ := not_or.mp h
  obtain ⟨hc, hcontrol, htime⟩ := compareTemperature_demand (temperatureOf adc m) (getSetPoint m)
    (takeSamples adc m)
  have hraise := raiseStage_control (temperatureOf adc m)
    (compareTemperature (temperatureOf adc m) (getSetPoint m) (takeSamples adc m))
  rw [hc, hcontrol, htime] at hraise
  rw [controlProgram_eq, if_neg hreading, if_neg hen, driveRelays_control]
  exact hraise

end Hvac
