import Hvac.Gating
import Hvac.Ticks

/-!
# Between two pin writes

A pattern is written pin by pin, those that go on first. With the conventional
wiring this leaves heating and cooling on together for a moment when one
follows the other directly, and at no other time.
-/

namespace Hvac

open Machine (Visits)

-- ---------------------------------------------------------------------------
-- The writes of a call
-- ---------------------------------------------------------------------------

def compareTemperatureWrites (temperature point : Int) (m : Module) : List (Relay × Bool) :=
  let deadband : Int := m.info.deadBand.toNat
  if temperature > tempMax point deadband then []
  else if temperature < tempMin point deadband then []
  else ctrlRelayWrites 0 0 no m.info.mode

def driveRelaysWrites (controlMode : U8) (m : Module) : List (Relay × Bool) :=
  if m.info.connected = no ∧ controlMode = moduleSlave then ctrlRelayWrites 0 0 no m.info.mode
  else ctrlRelayWrites m.info.coolOrHeat m.control.stage yes m.info.mode

/-- The pins `ControlProgram` writes, in order. -/
def controlProgramWrites (adc : Adc) (m : Module) : List (Relay × Bool) :=
  let temperature := (getTempValue adc m).2
  let m := takeSamples adc m
  let point := getSetPoint m
  let nowTime := m.timeRun
  let controlMode := getControlMode m
  if temperature = valueNull ∨ point = valueNull then ctrlRelayWrites 0 0 no m.info.mode
  else if m.action.en = no ∧ controlMode = moduleSlave then ctrlRelayWrites 0 0 no m.info.mode
  else
    compareTemperatureWrites temperature point m ++
      driveRelaysWrites controlMode
        (raiseStage nowTime temperature
          (followChange temperature (compareTemperature temperature point m)))

theorem compareTemperature_relays (t p : Int) (m : Module) :
    (compareTemperature t p m).relays = m.relays.writeAll (compareTemperatureWrites t p m) := by
  unfold compareTemperature compareTemperatureWrites
  dsimp only
  repeat' split
  all_goals rfl

theorem driveRelays_relays (mode : U8) (m : Module) :
    (driveRelays mode m).relays = m.relays.writeAll (driveRelaysWrites mode m) := by
  unfold driveRelays driveRelaysWrites
  split <;> rfl

theorem writeAll_append (relays : Relays) (first second : List (Relay × Bool)) :
    relays.writeAll (first ++ second) = (relays.writeAll first).writeAll second :=
  List.foldl_append

theorem controlProgramWrites_eq (adc : Adc) (m : Module) :
    controlProgramWrites adc m =
      if NoReading adc m then ctrlRelayWrites 0 0 no m.info.mode
      else if m.action.en = no ∧ m.info.mode = moduleSlave then ctrlRelayWrites 0 0 no m.info.mode
      else
        compareTemperatureWrites (temperatureOf adc m) (getSetPoint m) (takeSamples adc m) ++
          driveRelaysWrites m.info.mode
            (raiseStage m.timeRun (temperatureOf adc m)
              (followChange (temperatureOf adc m)
                (compareTemperature (temperatureOf adc m) (getSetPoint m) (takeSamples adc m)))) :=
  rfl

def pinWrite (pin : Relay × Bool) (relays : Relays) : Relays := relays.write pin.1 pin.2

theorem run_pinWrite (writes : List (Relay × Bool)) (relays : Relays) :
    Machine.run pinWrite writes relays = relays.writeAll writes := by
  induction writes generalizing relays with
  | nil => rfl
  | cons pin rest ih => exact ih _

/-- They are all it does to the outputs. -/
theorem controlProgram_relays (adc : Adc) (m : Module) :
    (controlProgram adc m).relays = Machine.run pinWrite (controlProgramWrites adc m) m.relays := by
  rw [run_pinWrite, controlProgram_eq, controlProgramWrites_eq]
  split
  · rfl
  split
  · rfl
  · rw [driveRelays_relays, raiseStage_relays, followChange_relays, compareTemperature_relays,
      ← writeAll_append]
    rfl

theorem stopWrites_off (mode : U8) : ∀ pin ∈ ctrlRelayWrites 0 0 no mode, pin.2 = false := by
  have hall : ∀ pin ∈ ctrlRelayWrites 0 0 no 0, pin.2 = false := by decide
  exact hall

theorem compareTemperatureWrites_off (t p : Int) (m : Module) :
    ∀ pin ∈ compareTemperatureWrites t p m, pin.2 = false := by
  unfold compareTemperatureWrites
  dsimp only
  split
  · simp
  split
  · simp
  · exact stopWrites_off _

theorem controlProgramWrites_quiet (h : Quiet adc m) :
    ∀ pin ∈ controlProgramWrites adc m, pin.2 = false := by
  rw [controlProgramWrites_eq]
  split
  · exact stopWrites_off _
  split
  · exact stopWrites_off _
  rename_i hreading hen
  intro pin hpin
  obtain hpin | hpin := List.mem_append.mp hpin
  · exact compareTemperatureWrites_off _ _ _ pin hpin
  unfold driveRelaysWrites at hpin
  split at hpin
  · exact stopWrites_off _ pin hpin
  rename_i hconnected
  simp only [raiseStage_info, followChange_info, compareTemperature_connected] at hconnected hpin
  -- no direction has no pattern
  have hband := h.satisfied hreading hen hconnected
  rw [compareTemperature_inDeadband (by exact hband)] at hpin
  exact absurd hpin List.not_mem_nil

theorem controlProgramWrites_active (h : ¬Quiet adc m) :
    controlProgramWrites adc m =
      ctrlRelayWrites (controlProgram adc m).info.coolOrHeat (controlProgram adc m).control.stage
        yes m.info.mode := by
  obtain ⟨hreading, hgate, hband⟩ := not_quiet.mp h
  obtain ⟨hen, hconnected⟩ := not_gatedOff.mp hgate
  have hcompare : compareTemperatureWrites (temperatureOf adc m) (getSetPoint m)
      (takeSamples adc m) = [] := by
    unfold compareTemperatureWrites
    dsimp only
    split
    · rfl
    split
    · rfl
    · rename_i hmax hmin
      exact absurd ⟨Int.not_lt.mp hmin, Int.not_lt.mp hmax⟩ hband
  rw [controlProgramWrites_eq, if_neg hreading, if_neg hen, hcompare, List.nil_append,
    controlProgram_eq, if_neg hreading, if_neg hen,
    compareTemperature_active (m := takeSamples adc m) hband]
  unfold driveRelays driveRelaysWrites
  simp only [raiseStage_info, followChange_info]
  rw [if_neg (by exact hconnected), if_neg (by exact hconnected)]
  simp only [ctrlRelay, raiseStage_info, followChange_info]
  rfl

-- ---------------------------------------------------------------------------
-- Heating and cooling together
-- ---------------------------------------------------------------------------

/-- With the conventional wiring: a heat relay and a cool relay are on. -/
def Relays.Both (relays : Relays) : Prop :=
  (relays.w = true ∨ relays.w2 = true) ∧ (relays.y = true ∨ relays.y2 = true)

instance (relays : Relays) : Decidable relays.Both := inferInstanceAs (Decidable (_ ∧ _))

instance (decided other : U8) : Decidable (Opposite decided other) :=
  inferInstanceAs (Decidable (_ ∨ _))

theorem both_of_switchOff (relay : Relay) (relays : Relays)
    (h : (pinWrite (relay, false) relays).Both) : relays.Both := by
  obtain ⟨hheat, hcool⟩ := h
  cases relay with
  | w | w2 => exact ⟨by simp_all [pinWrite, Relays.write], hcool⟩
  | y | y2 => exact ⟨hheat, by simp_all [pinWrite, Relays.write]⟩
  | g => exact ⟨hheat, hcool⟩

def Decision (c : U8) : Prop := c = norun ∨ c = cooling ∨ c = heating

theorem visits_pattern (hc : c = cooling ∨ c = heating) (hs : s = 1 ∨ s = 2) (hc' : Decision c')
    (hs' : s' = 1 ∨ s' = 2) :
    Visits pinWrite Relays.Both (ctrlRelayWrites c s yes mode1Conventional)
      (outputPattern (c', s', mode1Conventional)) ↔ Opposite c c' := by
  obtain rfl | rfl := hc <;> obtain rfl | rfl := hs <;> obtain rfl | rfl | rfl := hc' <;>
    obtain rfl | rfl := hs' <;> decide

theorem outputPattern_not_both (hc : Decision c) (hs : s = 1 ∨ s = 2) :
    ¬(outputPattern (c, s, mode1Conventional)).Both := by
  obtain rfl | rfl | rfl := hc <;> obtain rfl | rfl := hs <;> decide

def lastDecision (ticks : List Tick) (m : Module) : U8 :=
  Machine.latest tickStep (fun t m => some (tickStep t m).info.coolOrHeat) ticks m norun

def Follows (m : Module) (c : U8) : Prop :=
  m.Staged ∧ Decision c ∧ ∃ s, (s = 1 ∨ s = 2) ∧
    m.relays = outputPattern (c, s, mode1Conventional)

theorem controlProgram_decided (adc : Adc) (m : Module) :
    Decision (controlProgram adc m).info.coolOrHeat := by
  cases Decidable.em (Quiet adc m) with
  | inl hquiet => exact .inl (controlProgram_quiet hquiet).1
  | inr hactive =>
    rw [(controlProgram_active hactive).1]
    exact .inr (demand_cases (not_quiet.mp hactive).2.2)

theorem tickStep_follows (hmode : t.found.info.mode = mode1Conventional) (h : Follows m c) :
    Follows (tickStep t m) (tickStep t m).info.coolOrHeat := by
  obtain ⟨hstaged, -, -⟩ := h
  have hafter := tickStep_staged t hstaged
  refine ⟨hafter, controlProgram_decided .., _, hafter, ?_⟩
  have hdriven : Driven t.adc (t.finds m) := .inr (.inl hmode)
  have hpattern := relays_of_driven (m := t.finds m) hstaged hdriven m.relays
  rw [Module.decision, controlProgram_mode, finds_mode, hmode] at hpattern
  exact hpattern

theorem visits_tick (hmode : t.found.info.mode = mode1Conventional) (h : Follows m c) :
    Visits pinWrite Relays.Both (controlProgramWrites t.adc (t.finds m)) m.relays ↔
      Opposite (tickStep t m).info.coolOrHeat c := by
  obtain ⟨hstaged, hc, s, hs, hrelays⟩ := h
  rw [hrelays]
  cases Decidable.em (Quiet t.adc (t.finds m)) with
  | inl hquiet =>
    refine iff_of_false (Machine.not_visits ?_ (outputPattern_not_both hc hs)) ?_
    · rintro ⟨relay, value⟩ hpin relays hboth
      cases (controlProgramWrites_quiet hquiet _ hpin : value = false)
      exact both_of_switchOff relay relays hboth
    · rw [show (tickStep t m).info.coolOrHeat = norun from (controlProgram_quiet hquiet).1]
      rintro (⟨hn, -⟩ | ⟨hn, -⟩) <;> exact absurd hn (by decide)
  | inr hactive =>
    have hdecided := demand_cases (not_quiet.mp hactive).2.2
    rw [← (controlProgram_active hactive).1] at hdecided
    rw [controlProgramWrites_active hactive, finds_mode, hmode]
    exact visits_pattern hdecided (tickStep_staged t hstaged) hc hs

/-- With the conventional wiring, from all relays off: heating and cooling are
never on together after a tick, and during one exactly when it decides the
opposite of the tick before. -/
theorem both_on_in_reversals (hstaged : m.Staged) (hoff : m.relays = .off) (ticks : List Tick)
    (hmode : ∀ t ∈ ticks, t.found.info.mode = mode1Conventional) :
    ¬(Machine.run tickStep ticks m).relays.Both ∧
      ∀ t : Tick, t.found.info.mode = mode1Conventional →
        (Visits pinWrite Relays.Both
            (controlProgramWrites t.adc (t.finds (Machine.run tickStep ticks m)))
            (Machine.run tickStep ticks m).relays ↔
          Opposite (tickStep t (Machine.run tickStep ticks m)).info.coolOrHeat
            (lastDecision ticks m)) := by
  have hfollows : Follows (Machine.run tickStep ticks m) (lastDecision ticks m) := by
    have hwithin : Machine.Within tickStep
        (fun t _ => t.found.info.mode = mode1Conventional) ticks m := by
      refine Machine.within_iff_forall_append.mpr ?_
      rintro before t after rfl
      exact hmode t (by simp)
    refine hwithin.latest (R := Follows) (fun t m c ht h => tickStep_follows ht h) ?_
    exact ⟨hstaged, .inl rfl, 1, .inl rfl, hoff⟩
  refine ⟨?_, fun t ht => visits_tick ht hfollows⟩
  obtain ⟨-, hc, s, hs, hrelays⟩ := hfollows
  rw [hrelays]
  exact outputPattern_not_both hc hs

/-- At 40.0 and at 10.0 degrees, in the default settings. -/
def hotSecond : Tick := secondAfter [[0x00, 0x06, 0xF0, 0x02, 0x01, 0x90]]
def coldSecond : Tick := secondAfter [[0x00, 0x06, 0xF0, 0x02, 0x00, 0x64]]

theorem both_on_in_reversals_cooling :
    ¬Visits pinWrite Relays.Both
      (controlProgramWrites hotSecond.adc
        (hotSecond.finds (Machine.run tickStep [hotSecond] blank)))
      (Machine.run tickStep [hotSecond] blank).relays :=
  mt ((both_on_in_reversals (.inl (by decide +kernel)) (by decide +kernel) [hotSecond]
    (by decide +kernel)).2 hotSecond (by decide +kernel)).mp (by decide +kernel)

/-- It heats, and in the next second it cools. -/
theorem both_on_in_reversals_fails :
    ¬∀ (ticks : List Tick) (t : Tick),
      (∀ t' ∈ ticks ++ [t], t'.found.info.mode = mode1Conventional) →
      ¬Visits pinWrite Relays.Both
        (controlProgramWrites t.adc (t.finds (Machine.run tickStep ticks blank)))
        (Machine.run tickStep ticks blank).relays := by
  intro h
  exact absurd (h [coldSecond] hotSecond (by decide +kernel)) (by decide +kernel)

end Hvac
