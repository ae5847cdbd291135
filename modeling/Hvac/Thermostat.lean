import Hvac.Gating

/-!
# The thermostat

What a thermostat with a dead band decides, and when the control program, whose
lower threshold never goes below zero, decides the same.
-/

namespace Hvac

/-- The decision at a temperature, for a set point and a dead band around it. -/
structure Thermostat (temperature point deadband : Int) (decision : U8) : Prop where
  cools : decision = cooling ↔ temperature > point + deadband
  heats : decision = heating ↔ temperature < point - deadband
  rests : decision = norun ↔ point - deadband ≤ temperature ∧ temperature ≤ point + deadband
  noHeatAbove : point ≤ temperature → decision ≠ heating
  noCoolBelow : temperature ≤ point → decision ≠ cooling

/-- The lower threshold is zero where it should be negative, and the temperature
lies in between. -/
def BelowZero (temperature point deadband : Int) : Prop :=
  point ≤ deadband ∧ point - deadband ≤ temperature ∧ temperature < 0 ∧
    temperature ≤ point + deadband

instance (t p d : Int) : Decidable (BelowZero t p d) := inferInstanceAs (Decidable (_ ∧ _ ∧ _ ∧ _))

theorem demand_inDeadband (h : InDeadband t p d) : demand t p d = norun := by
  unfold demand
  rw [if_neg (Int.not_lt.mpr h.2), if_neg (Int.not_lt.mpr h.1)]

/-- A call that is not gated off decides what the temperature asks for. -/
theorem controlProgram_demand (hreading : ¬NoReading adc m) (hgate : ¬GatedOff m) :
    (controlProgram adc m).info.coolOrHeat =
      demand (temperatureOf adc m) (getSetPoint m) m.info.deadBand.toNat := by
  by_cases hband : Satisfied adc m
  · rw [(controlProgram_quiet (.inr (.inr hband))).1, demand_inDeadband hband]
  · exact (controlProgram_active (not_quiet.mpr ⟨hreading, hgate, hband⟩)).1

theorem demand_cooling : demand t p d = cooling ↔ t > tempMax p d := by
  unfold demand
  split
  · simpa
  split
  · simp_all [heating, cooling]
  · simp_all [norun, cooling]

theorem demand_heating : demand t p d = heating ↔ t ≤ tempMax p d ∧ t < tempMin p d := by
  unfold demand
  split
  · simp_all [heating, cooling]
  split
  · simp_all
  · simp_all [norun, heating]

theorem demand_norun : demand t p d = norun ↔ InDeadband t p d := by
  constructor
  · intro h
    by_contra hband
    rcases demand_cases hband with hd | hd <;> exact absurd (h.symm.trans hd) (by decide)
  · exact demand_inDeadband

theorem demand_thermostat (hd : 0 ≤ d) : Thermostat t p d (demand t p d) ↔ ¬BelowZero t p d := by
  constructor
  · rintro h ⟨hpoint, hmin, hzero, hmax⟩
    -- the code heats here, the thermostat does not
    have hheat : demand t p d = heating :=
      demand_heating.mpr ⟨hmax, by unfold tempMin; split <;> omega⟩
    exact absurd (h.heats.mp hheat) (Int.not_lt.mpr hmin)
  · intro h
    unfold BelowZero at h
    have hmin : t < tempMin p d ∧ t ≤ p + d ↔ t < p - d := by unfold tempMin; split <;> omega
    constructor
    · exact demand_cooling
    · rw [demand_heating, ← hmin]
      exact and_comm
    · rw [demand_norun, InDeadband]
      unfold tempMax
      omega
    · intro hp hheat
      have := hmin.mp (demand_heating.mp hheat).symm
      omega
    · intro hp hcool
      have : t > p + d := demand_cooling.mp hcool
      omega

/-- With a reading and open gates, a call decides like a thermostat exactly when
it is not below zero within the dead band of a set point not above the band. -/
theorem thermostat_decision (hreading : ¬NoReading adc m) (hgate : ¬GatedOff m) :
    Thermostat (temperatureOf adc m) (getSetPoint m) m.info.deadBand.toNat
        (controlProgram adc m).info.coolOrHeat ↔
      ¬BelowZero (temperatureOf adc m) (getSetPoint m) m.info.deadBand.toNat := by
  rw [controlProgram_demand hreading hgate]
  exact demand_thermostat (Int.natCast_nonneg _)

theorem thermostat_decision_heats :
    (controlProgram ⟨⟨true, 0, true, true⟩, ⟨true, 0, true, true⟩⟩
      { blank with sensor.temp := 100 }).info.coolOrHeat = heating :=
  ((thermostat_decision (by decide +kernel) (by decide +kernel)).mpr
    (by decide +kernel)).heats.mpr (by decide +kernel)

/-- Own sensor, both set points at -5.0 degrees, and a window full of -1.0. -/
def frozen : List Event :=
  registered ++
    [.input (sealFrame [0x01, 0x06, 0x04, 0x0D, 0x00, 0x02]), .poll ⟨true, true⟩,
      .input (sealFrame [0x01, 0x10, 0x04, 0x07, 0x00, 0x02, 0x04, 0xFF, 0xCE, 0xFF, 0xCE]),
      .poll ⟨true, true⟩] ++
    List.replicate 10 (.homePage ⟨⟨true, 3036, true, true⟩, ⟨true, 3036, true, true⟩⟩)

/-- It heats four degrees above the set point. -/
theorem thermostat_decision_fails :
    ¬∀ adc m, Reachable m → ¬NoReading adc m → ¬GatedOff m →
      Thermostat (temperatureOf adc m) (getSetPoint m) m.info.deadBand.toNat
        (controlProgram adc m).info.coolOrHeat := by
  intro h
  have hfrozen := h ⟨⟨true, 3036, true, true⟩, ⟨true, 3036, true, true⟩⟩ _ (reachable_run frozen)
    (by decide +kernel) (by decide +kernel)
  exact absurd hfrozen.noHeatAbove (by decide +kernel)

end Hvac
