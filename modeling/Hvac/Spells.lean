import Hvac.Staging

/-!
# Spells of one direction

For as long as every call of the control program asks for the same direction, the
stage and the relays are known from the calls alone: from the time and the
temperature of the first, and from those of the calls since.
-/

namespace Hvac

open Machine (Within)

-- ---------------------------------------------------------------------------
-- Calls
-- ---------------------------------------------------------------------------

/-- A call gets past its gates, knows its wiring and asks for `c`. -/
structure Asks (c : U8) (adc : Adc) (m : Module) : Prop where
  reading : ¬NoReading adc m
  gate : ¬GatedOff m
  wired : Wired m.info.mode
  demand : demand (temperatureOf adc m) (getSetPoint m) m.info.deadBand.toNat = c

instance decidableAsks (c : U8) (adc : Adc) (m : Module) : Decidable (Asks c adc m) :=
  decidable_of_iff (¬NoReading adc m ∧ ¬GatedOff m ∧ Wired m.info.mode ∧
      Hvac.demand (temperatureOf adc m) (getSetPoint m) m.info.deadBand.toNat = c)
    ⟨fun ⟨hreading, hgate, hwired, hdemand⟩ => ⟨hreading, hgate, hwired, hdemand⟩,
      fun ⟨hreading, hgate, hwired, hdemand⟩ => ⟨hreading, hgate, hwired, hdemand⟩⟩

def InSpell (c : U8) : Event → Module → Prop
  | .controlProgram adc, m => Asks c adc m
  | .reboot, _ => False
  | _, _ => True

instance decidableInSpell (c : U8) : (e : Event) → (m : Module) → Decidable (InSpell c e m)
  | .controlProgram adc, m => inferInstanceAs (Decidable (Asks c adc m))
  | .reboot, _ => inferInstanceAs (Decidable False)
  | .input _, _ | .poll _, _ | .every10s _ _, _ | .timeRunning, _ | .monitorConnectedState, _
  | .homePage _, _ | .settingPage _, _ | .rtcTick _, _ => inferInstanceAs (Decidable True)

/-- What a call goes by. -/
structure Call where
  time : Nat
  temperature : Int
  mode : U8
  deriving DecidableEq, Repr

def callAt (adc : Adc) (m : Module) : Call := ⟨m.timeRun, temperatureOf adc m, m.info.mode⟩

def callOf : Event → Module → Option Call
  | .controlProgram adc, m => some (callAt adc m)
  | _, _ => none

/-- More than five minutes after the first call the temperature is still within one degree. -/
def Lasting (first call : Call) : Prop :=
  first.time + 300 < call.time ∧ (call.temperature - first.temperature).natAbs ≤ 10

instance decidableLasting (first call : Call) : Decidable (Lasting first call) :=
  inferInstanceAs (Decidable (_ ∧ _))

theorem not_lasting_self (first : Call) : ¬Lasting first first := by
  rintro ⟨htime, -⟩
  omega

def spellStage (first : Call) (calls : List Call) : U8 :=
  if ∃ call ∈ calls, Lasting first call then 2 else 1

theorem spellStage_append_single (first : Call) (calls : List Call) (call : Call) :
    spellStage first (calls ++ [call]) =
      if Lasting first call then 2 else spellStage first calls := by
  unfold spellStage
  simp only [List.mem_append, List.mem_singleton, or_and_right, exists_or, exists_eq_left]
  by_cases hlast : Lasting first call <;> simp [hlast]

-- ---------------------------------------------------------------------------
-- The spell
-- ---------------------------------------------------------------------------

/-- The statics and the outputs are what the calls of the spell make them. -/
structure Spell (c : U8) (first : Call) (m : Module) (calls : List Call) : Prop where
  direction : m.control.coolOrHeat = c
  time : m.control.lastTime = first.time
  temperature : m.control.lastTemp = first.temperature
  stage : m.control.stage = spellStage first calls
  relays : m.relays = outputPattern (c, m.control.stage, (calls.getLastD first).mode)

theorem spellStage_cases (first : Call) (calls : List Call) :
    spellStage first calls = 1 ∨ spellStage first calls = 2 := by
  unfold spellStage
  split
  · exact .inr rfl
  · exact .inl rfl

theorem Spell.staged (h : Spell c first m calls) : m.Staged := by
  rw [Module.Staged, h.stage]
  exact spellStage_cases first calls

theorem Asks.control (h : Asks c adc m) :
    (controlProgram adc m).control = m.control.next m.timeRun (temperatureOf adc m) c := by
  rw [controlProgram_control (not_endsEarly h.reading h.gate), h.demand]

theorem Asks.relays (h : Asks c adc m) (hstaged : m.Staged) :
    (controlProgram adc m).relays =
      outputPattern (c, (controlProgram adc m).control.stage, m.info.mode) := by
  have hdriven : Driven adc m := .inr h.wired
  have hpattern := relays_of_driven hstaged hdriven m.relays
  rw [Module.decision, controlProgram_demand h.reading h.gate, h.demand, controlProgram_mode]
    at hpattern
  exact hpattern

/-- The first call of a direction starts its spell at the first stage. -/
theorem Spell.start (hnew : m.control.coolOrHeat ≠ c) (hstaged : m.Staged) (h : Asks c adc m) :
    Spell c (callAt adc m) (controlProgram adc m) [callAt adc m] := by
  have hcontrol := h.control.trans (next_changed hnew)
  refine ⟨?_, ?_, ?_, ?_, h.relays hstaged⟩
  · rw [hcontrol]
  · rw [hcontrol]
    rfl
  · rw [hcontrol]
    rfl
  · rw [hcontrol, spellStage, if_neg]
    rintro ⟨call, hmem, hlasting⟩
    rw [List.mem_singleton.mp hmem] at hlasting
    exact not_lasting_self _ hlasting

theorem Spell.call (h : Spell c first m calls) (hasks : Asks c adc m) :
    Spell c first (controlProgram adc m) (calls ++ [callAt adc m]) := by
  have hcontrol := hasks.control
  have hrelays := hasks.relays h.staged
  unfold ControlStatics.next at hcontrol
  rw [if_neg (not_not_intro h.direction)] at hcontrol
  have hlasting : Lasting first (callAt adc m) ↔ m.timeRun > m.control.lastTime + 300 ∧
      (temperatureOf adc m - m.control.lastTemp).natAbs ≤ 10 := by
    rw [h.time, h.temperature]
    rfl
  have hstage := spellStage_append_single first calls (callAt adc m)
  have hmode : ((calls ++ [callAt adc m]).getLastD first).mode = m.info.mode := by simp [callAt]
  split at hcontrol
  · rename_i hlast
    rw [if_pos (hlasting.mpr hlast)] at hstage
    refine ⟨?_, ?_, ?_, ?_, by rw [hmode, hrelays]⟩
    all_goals rw [hcontrol]
    exacts [h.direction, h.time, h.temperature, hstage.symm]
  · rename_i hlast
    rw [if_neg (mt hlasting.mp hlast)] at hstage
    refine ⟨?_, ?_, ?_, ?_, by rw [hmode, hrelays]⟩
    all_goals rw [hcontrol]
    exacts [h.direction, h.time, h.temperature, h.stage.trans hstage.symm]

theorem InSpell.cases (h : InSpell c e m) :
    (∃ adc, e = .controlProgram adc ∧ Asks c adc m) ∨ e = .timeRunning ∨ e.Between := by
  cases e with
  | controlProgram adc => exact .inl ⟨adc, rfl, h⟩
  | timeRunning => exact .inr (.inl rfl)
  | reboot => exact absurd h id
  | _ => exact .inr (.inr ⟨by simp, by simp, by simp⟩)

theorem callOf_between (h : e.Between) (m : Module) : callOf e m = none := by
  cases e with
  | controlProgram adc => exact absurd rfl (h.2.2 adc)
  | _ => rfl

/-- No step but a call or a restart touches the statics or the outputs. -/
theorem Spell.extend (h : Spell c first m calls) (hin : InSpell c e m) :
    Spell c first (step e m) (calls ++ (callOf e m).toList) := by
  obtain ⟨adc, rfl, hasks⟩ | rfl | hbetween := hin.cases
  · exact h.call hasks
  · have hcall : callOf .timeRunning m = none := rfl
    rw [hcall, Option.toList_none, List.append_nil]
    exact ⟨h.direction, h.time, h.temperature, h.stage, h.relays⟩
  · obtain ⟨hcontrol, hrelays, -⟩ := step_between hbetween m
    rw [callOf_between hbetween, Option.toList_none, List.append_nil]
    refine ⟨?_, ?_, ?_, ?_, ?_⟩
    all_goals simp only [hcontrol, hrelays]
    exacts [h.direction, h.time, h.temperature, h.stage, h.relays]

/-- From any reachable state, whatever else the threads do: while the calls ask for one
direction, the first of them new to it, the second stage comes with the first of them that
is more than five minutes later and not more than a degree away, and stays; the relays are
those of the direction and the stage in the wiring of the last call. -/
theorem second_stage_exact (hreach : Reachable m) (hnew : m.control.coolOrHeat ≠ c)
    (hfirst : Asks c adc m)
    (hspell : Within step (InSpell c) events (step (.controlProgram adc) m)) :
    let first := callAt adc m
    let calls := Machine.trace step callOf (.controlProgram adc :: events) m
    let m' := run (.controlProgram adc :: events) m
    m'.control.stage = (if ∃ call ∈ calls, Lasting first call then 2 else 1) ∧
      m'.relays = outputPattern (c, m'.control.stage, (calls.getLastD first).mode) := by
  have h := hspell.history (R := Spell c (callAt adc m))
    (fun e m calls hin hs => hs.extend hin) (Spell.start hnew hreach.staged hfirst)
  exact ⟨h.stage, h.relays⟩

/-- It is told 40.0 degrees. -/
def hot : Module := heard [[0x00, 0x06, 0xF0, 0x02, 0x01, 0x90]]

theorem reachable_heard (frames : List (List U8)) : Reachable (heard frames) := reachable_run _

def fiveMinutes : List Event :=
  List.replicate 301 .timeRunning ++ [.controlProgram coolingSecond.adc]

theorem second_stage_exact_cooling :
    (run (.controlProgram coolingSecond.adc :: fiveMinutes) hot).control.stage = 2 := by
  have hreach : Reachable hot := reachable_heard _
  have hnew : hot.control.coolOrHeat ≠ cooling := by decide +kernel
  have hfirst : Asks cooling coolingSecond.adc hot := by decide +kernel
  have hspell : Within step (InSpell cooling) fiveMinutes
      (step (.controlProgram coolingSecond.adc) hot) := by decide +kernel
  have hexact := second_stage_exact hreach hnew hfirst hspell
  refine hexact.1.trans (if_pos ?_)
  decide +kernel

end Hvac
