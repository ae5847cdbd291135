import Hvac.Decision
import Hvac.Invariants

/-!
# Gating and outputs

Two properties of the control program over runs. A slave that is disabled or
has lost its master is meant to stand still: the code asks the wiring mode
where it means the module mode, so this holds only when something else stops
the unit (`slave_gating`). The outputs are meant to follow the decision: they do
whenever the call drives them, and only then (`outputs_follow_decision`).
-/

namespace Hvac

open Machine (Within)

-- ---------------------------------------------------------------------------
-- A slave without its master
-- ---------------------------------------------------------------------------

def Module.Stopped (m : Module) : Prop := m.info.coolOrHeat = norun ∧ m.relays = .off

instance (m : Module) : Decidable m.Stopped := inferInstanceAs (Decidable (_ ∧ _))

/-- The master has disabled this slave, or is lost. -/
def Module.Forsaken (m : Module) : Prop :=
  m.info.moduleMode = moduleSlave ∧ (m.action.en = no ∨ m.info.connected = no)

instance (m : Module) : Decidable m.Forsaken := inferInstanceAs (Decidable (_ ∧ _))

/-- After a call of the control program a forsaken slave stands still. -/
def GateHolds : Event → Module → Prop
  | .controlProgram adc, m => m.Forsaken → (controlProgram adc m).Stopped
  | _, _ => True

instance : (e : Event) → (m : Module) → Decidable (GateHolds e m)
  | .controlProgram adc, m =>
    inferInstanceAs (Decidable (m.Forsaken → (controlProgram adc m).Stopped))
  | .input _, _ | .poll _, _ | .every10s _ _, _ | .timeRunning, _ | .monitorConnectedState, _
  | .homePage _, _ | .settingPage _, _ | .rtcTick _, _ | .reboot, _ =>
    inferInstanceAs (Decidable True)

/-- Something other than the gate stops a forsaken slave, or the wiring mode
has the number of the slave mode. -/
def GateSuffices : Event → Module → Prop
  | .controlProgram adc, m =>
    m.Forsaken → m.info.mode = moduleSlave ∨ NoReading adc m ∨ Satisfied adc m
  | _, _ => True

theorem stopped_iff_quiet : (controlProgram adc m).Stopped ↔ Quiet adc m := by
  constructor
  · intro h
    by_contra hactive
    have hdemand := (controlProgram_active hactive).1
    rw [h.1] at hdemand
    rcases demand_cases (not_quiet.mp hactive).2.2 with hd | hd
    · exact absurd (hdemand.trans hd) (by decide)
    · exact absurd (hdemand.trans hd) (by decide)
  · exact controlProgram_quiet

theorem gateHolds_iff : GateHolds e m ↔ GateSuffices e m := by
  cases e with
  | controlProgram adc =>
    refine forall_congr' fun hm => ?_
    rw [stopped_iff_quiet]
    constructor
    · rintro (h | ⟨-, hmode⟩ | h)
      · exact .inr (.inl h)
      · exact .inl hmode
      · exact .inr (.inr h)
    · rintro (hmode | h | h)
      · exact .inr (.inl ⟨hm.2, hmode⟩)
      · exact .inl h
      · exact .inr (.inr h)
  | _ => exact Iff.rfl

/-- From any power-up, the gating holds at every call of a run exactly when
every call finds one of the conditions under which it works. -/
theorem slave_gating (flash : List U8) (rtc : Rtc) (uniqueId : Fin 12 → U8)
    (events : List Event) :
    Within step GateHolds events (powerUp flash rtc uniqueId) ↔
      Within step GateSuffices events (powerUp flash rtc uniqueId) :=
  ⟨Within.mono fun _ _ => gateHolds_iff.mp, Within.mono fun _ _ => gateHolds_iff.mpr⟩

/-- The master registers a module in its default settings, broadcasts 40.0
degrees, and never enables it. -/
def neverEnabled : List Event :=
  registered ++ [.input (sealFrame [0x00, 0x06, 0xF0, 0x02, 0x01, 0x90]), .poll ⟨true, true⟩,
    .timeRunning, .controlProgram ⟨⟨true, 0, true, true⟩, ⟨true, 0, true, true⟩⟩]

theorem slave_gating_fails :
    ¬Within step GateHolds neverEnabled blank := by
  decide +kernel

-- ---------------------------------------------------------------------------
-- Outputs and decision
-- ---------------------------------------------------------------------------

def Module.decision (m : Module) : U8 × U8 × U8 :=
  (m.info.coolOrHeat, m.control.stage, m.info.mode)

def outputPattern (decision : U8 × U8 × U8) : Relays :=
  Relays.off.writeAll (ctrlRelayWrites decision.1 decision.2.1 yes decision.2.2)

def Wired (mode : U8) : Prop := mode = mode1Conventional ∨ mode = mode2O ∨ mode = mode3B

instance (mode : U8) : Decidable (Wired mode) := inferInstanceAs (Decidable (_ ∨ _ ∨ _))

/-- The call writes all five pins: it stops the unit, or knows its wiring. -/
def Driven (adc : Adc) (m : Module) : Prop := Quiet adc m ∨ Wired m.info.mode

instance (adc : Adc) (m : Module) : Decidable (Driven adc m) :=
  inferInstanceAs (Decidable (_ ∨ _))

def Opposite (decided other : U8) : Prop :=
  (decided = cooling ∧ other = heating) ∨ (decided = heating ∧ other = cooling)

theorem quiet_relays (before : Relays) :
    Quiet adc { m with relays := before } ↔ Quiet adc m := Iff.rfl

theorem compareTemperature_withRelays (t p : Int) (m : Module) (r : Relays) :
    ∃ r', compareTemperature t p { m with relays := r } =
      { compareTemperature t p m with relays := r' } := by
  unfold compareTemperature
  dsimp only
  repeat' split
  all_goals exact ⟨_, rfl⟩

theorem followChange_withRelays (t : Int) (m : Module) (r : Relays) :
    followChange t { m with relays := r } = { followChange t m with relays := r } := by
  unfold followChange
  dsimp only
  split <;> rfl

theorem raiseStage_withRelays (n : Nat) (t : Int) (m : Module) (r : Relays) :
    raiseStage n t { m with relays := r } = { raiseStage n t m with relays := r } := by
  unfold raiseStage
  dsimp only
  split <;> rfl

theorem driveRelays_decision (mode : U8) (m : Module) (r : Relays) :
    (driveRelays mode { m with relays := r }).decision = (driveRelays mode m).decision := by
  unfold driveRelays
  dsimp only
  split <;> rfl

/-- The decision does not depend on the outputs. -/
theorem controlProgram_decision (adc : Adc) (m : Module) (before : Relays) :
    (controlProgram adc { m with relays := before }).decision =
      (controlProgram adc m).decision := by
  rw [controlProgram_eq, controlProgram_eq]
  have hreading : NoReading adc { m with relays := before } ↔ NoReading adc m := Iff.rfl
  rw [if_congr hreading rfl rfl]
  split
  · rfl
  dsimp only
  split
  · rfl
  obtain ⟨r, hr⟩ := compareTemperature_withRelays (temperatureOf adc m) (getSetPoint m)
    (takeSamples adc m) before
  have htake : takeSamples adc { m with relays := before } =
      { takeSamples adc m with relays := before } := rfl
  have hpoint : getSetPoint { m with relays := before } = getSetPoint m := rfl
  have htemp : temperatureOf adc { m with relays := before } = temperatureOf adc m := rfl
  rw [htake, hpoint, htemp, hr, followChange_withRelays, raiseStage_withRelays,
    driveRelays_decision]

theorem outputPattern_norun (h : decision.1 = norun) : outputPattern decision = .off := by
  obtain ⟨c, s, mode⟩ := decision
  subst h
  exact writeAll_norun ..

/-- A call that writes all pins leaves the pattern of its decision. -/
theorem relays_of_driven (hs : m.Staged) (h : Driven adc m) (before : Relays) :
    (controlProgram adc { m with relays := before }).relays =
      outputPattern (controlProgram adc m).decision := by
  by_cases hq : Quiet adc m
  · have hafter := controlProgram_quiet ((quiet_relays before).mpr hq)
    rw [hafter.2, outputPattern_norun (controlProgram_quiet hq).1]
  · have hwired := h.resolve_left hq
    have hafter := controlProgram_active fun hq' => hq ((quiet_relays before).mp hq')
    have hstage := controlProgram_staged adc hs
    have hdecision := controlProgram_decision adc m before
    simp only [Module.decision, Prod.mk.injEq] at hdecision
    obtain ⟨hc, hst, -⟩ := hdecision
    have hdemand := demand_cases (not_quiet.mp hq).2.2
    rw [← (controlProgram_active hq).1] at hdemand
    rw [hafter.2, hc, hst]
    simp only [outputPattern, Module.decision, controlProgram_mode]
    exact writeAll_eq_of_mode hwired hdemand hstage before .off

theorem relays_of_not_driven (h : ¬Driven adc m) :
    (controlProgram adc m).relays = m.relays := by
  obtain ⟨hq, hwired⟩ := not_or.mp h
  simp only [Wired, not_or] at hwired
  rw [(controlProgram_active hq).2, ctrlRelayWrites_otherMode hwired]
  rfl

/-- Cooling and heating never share a pattern, in whatever stage. -/
theorem outputPattern_opposite (hwired : Wired mode) (hs : s = 1 ∨ s = 2)
    (h : Opposite decided other) (s' : U8) :
    outputPattern (decided, s, mode) ≠ outputPattern (other, s', mode) := by
  by_cases h₁ : s' = 1
  · subst h₁
    rcases h with ⟨rfl, rfl⟩ | ⟨rfl, rfl⟩ <;> rcases hwired with rfl | rfl | rfl <;>
      rcases hs with rfl | rfl <;> decide
  by_cases h₂ : s' = 2
  · subst h₂
    rcases h with ⟨rfl, rfl⟩ | ⟨rfl, rfl⟩ <;> rcases hwired with rfl | rfl | rfl <;>
      rcases hs with rfl | rfl <;> decide
  -- any other stage has no pattern, and a decision is never without one
  have hnone : outputPattern (other, s', mode) = .off := by
    simp only [outputPattern, ctrlRelayWrites, if_neg h₁, if_neg h₂, ite_self, if_true]
    rfl
  rw [hnone]
  rcases h with ⟨rfl, rfl⟩ | ⟨rfl, rfl⟩ <;> rcases hwired with rfl | rfl | rfl <;>
    rcases hs with rfl | rfl <;> decide

/-- For any two reachable states: a call leaves the pattern of its decision
whatever the outputs before it exactly when it drives them; two such calls with
one decision leave the same outputs, and none leaves the opposite's pattern. -/
theorem outputs_follow_decision (h : Reachable m) (h' : Reachable m') :
    (Driven adc m ↔ ∀ before, (controlProgram adc { m with relays := before }).relays =
      outputPattern (controlProgram adc m).decision) ∧
    (Driven adc m → Driven adc' m' →
      (controlProgram adc m).decision = (controlProgram adc' m').decision →
      (controlProgram adc m).relays = (controlProgram adc' m').relays) ∧
    (Driven adc m → Opposite (controlProgram adc m).info.coolOrHeat c →
      ∀ s, (controlProgram adc m).relays ≠ outputPattern (c, s, m.info.mode)) := by
  refine ⟨⟨relays_of_driven h.staged, ?_⟩, ?_, ?_⟩
  · intro hpattern
    by_contra hidle
    -- an undriven call would leave both of these as they are
    have hoff := hpattern .off
    have hon := hpattern ⟨true, true, true, true, true⟩
    rw [relays_of_not_driven (m := { m with relays := _ }) (by exact hidle)] at hoff hon
    have hsame : Relays.off = ⟨true, true, true, true, true⟩ := hoff.trans hon.symm
    exact absurd hsame (by decide)
  · intro hd hd' heq
    have hleft := relays_of_driven h.staged hd m.relays
    have hright := relays_of_driven h'.staged hd' m'.relays
    rw [← heq] at hright
    exact hleft.trans hright.symm
  · intro hd hopposite s
    have hactive : ¬Quiet adc m := by
      intro hq
      rw [(controlProgram_quiet hq).1] at hopposite
      rcases hopposite with ⟨hn, -⟩ | ⟨hn, -⟩ <;> exact absurd hn (by decide)
    have hrelays := relays_of_driven h.staged hd m.relays
    simp only [Module.decision, controlProgram_mode] at hrelays
    rw [show { m with relays := m.relays } = m from rfl] at hrelays
    rw [hrelays]
    exact outputPattern_opposite (hd.resolve_left hactive) (controlProgram_staged adc h.staged)
      hopposite s

/-- Registered in its default settings, heated at 10.0 degrees, then given the
wiring mode and 40.0 degrees. -/
def heatedBefore (mode : U8) : List Event :=
  registered ++ [.input (sealFrame [0x00, 0x06, 0xF0, 0x02, 0x00, 0x64]), .poll ⟨true, true⟩,
    .timeRunning, .controlProgram ⟨⟨true, 0, true, true⟩, ⟨true, 0, true, true⟩⟩,
    .input (sealFrame [0x01, 0x06, 0x04, 0x04, 0x00, mode]), .poll ⟨true, true⟩,
    .input (sealFrame [0x00, 0x06, 0xF0, 0x02, 0x01, 0x90]), .poll ⟨true, true⟩, .timeRunning]

def idleBefore (mode : U8) : List Event :=
  registered ++ [.input (sealFrame [0x01, 0x06, 0x04, 0x04, 0x00, mode]), .poll ⟨true, true⟩,
    .input (sealFrame [0x00, 0x06, 0xF0, 0x02, 0x01, 0x90]), .poll ⟨true, true⟩, .timeRunning]

theorem outputs_follow_decision_wired :
    let adc : Adc := ⟨⟨true, 0, true, true⟩, ⟨true, 0, true, true⟩⟩
    (controlProgram adc (run (heatedBefore mode3B) blank)).relays =
      (controlProgram adc (run (idleBefore mode3B) blank)).relays :=
  (outputs_follow_decision (c := norun) (reachable_run _) (reachable_run _)).2.1
    (by decide +kernel) (by decide +kernel) (by decide +kernel)

/-- Both calls decide to cool, in one stage and mode; one leaves the heating on. -/
theorem outputs_follow_decision_fails :
    ∃ m m' adc, Reachable m ∧ Reachable m' ∧
      (controlProgram adc m).decision = (cooling, 1, 7) ∧
      (controlProgram adc m').decision = (cooling, 1, 7) ∧
      (controlProgram adc m).relays = outputPattern (heating, 1, mode1Conventional) ∧
      (controlProgram adc m').relays = .off := by
  refine ⟨_, _, ⟨⟨true, 0, true, true⟩, ⟨true, 0, true, true⟩⟩, reachable_run (heatedBefore 7),
    reachable_run (idleBefore 7), ?_⟩
  decide +kernel

end Hvac
