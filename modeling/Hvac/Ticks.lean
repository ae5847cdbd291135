import Hvac.Interlock

/-!
# One-second ticks

The main loop counts a second and calls the control program. Whatever else runs
in between may change the rest of the module, but neither the statics of the
control program nor the outputs nor the time.
-/

namespace Hvac

/-- One second: what the other threads have left by then, and the converter. -/
structure Tick where
  found : Module
  adc : Adc

/-- The module as the call of this second finds it. -/
def Tick.finds (t : Tick) (m : Module) : Module :=
  timeRunning { t.found with control := m.control, relays := m.relays, timeRun := m.timeRun }

def tickStep (t : Tick) (m : Module) : Module := controlProgram t.adc (t.finds m)

theorem finds_mode (t : Tick) (m : Module) : (t.finds m).info.mode = t.found.info.mode := rfl

@[simp] theorem tickStep_timeRun (t : Tick) (m : Module) : (tickStep t m).timeRun = m.timeRun + 1 :=
  (controlProgram_thermostatOnly t.adc (t.finds m)).bystander.timeRun

theorem tickStep_staged (t : Tick) (h : m.Staged) : (tickStep t m).Staged :=
  controlProgram_staged t.adc (m := t.finds m) h

-- ---------------------------------------------------------------------------
-- Ticks and the steps of the threads
-- ---------------------------------------------------------------------------

def Event.Between (e : Event) : Prop :=
  e ≠ .timeRunning ∧ e ≠ .reboot ∧ ∀ adc, e ≠ .controlProgram adc

theorem step_between (h : e.Between) (m : Module) :
    (step e m).control = m.control ∧ (step e m).relays = m.relays ∧
      (step e m).timeRun = m.timeRun := by
  obtain ⟨htime, hboot, hcontrol⟩ := h
  obtain ⟨adc, he⟩ | he | hrelays := step_cases_relays e m
  · exact absurd he (hcontrol adc)
  · exact absurd he hboot
  cases e with
  | timeRunning => exact absurd rfl htime
  | reboot => exact absurd rfl hboot
  | controlProgram adc => exact absurd rfl (hcontrol adc)
  | poll alloc =>
    obtain ⟨-, htime, hstatics, -⟩ := uartPoll_undisturbed alloc m
    exact ⟨hstatics, hrelays, htime⟩
  | every10s calloc ops =>
    exact ⟨(step_unpolled (by simp) hboot).control (by simp), hrelays,
      (uartEvery10s_bystander calloc ops m).timeRun⟩
  | settingPage page =>
    exact ⟨(step_unpolled (by simp) hboot).control (by simp), hrelays,
      (settingPage_menuOnly page m).bystander.timeRun⟩
  | monitorConnectedState =>
    rw [step, monitorConnectedState]
    split <;> exact ⟨rfl, rfl, rfl⟩
  | _ => exact ⟨rfl, rfl, rfl⟩

/-- Any such steps, then the work of the second: a tick. -/
theorem run_second (h : ∀ e ∈ between, e.Between) (adc : Adc) (m : Module) :
    run (between ++ [.timeRunning, .controlProgram adc]) m = tickStep ⟨run between m, adc⟩ m := by
  have hkept : (run between m).control = m.control ∧ (run between m).relays = m.relays ∧
      (run between m).timeRun = m.timeRun := by
    induction between generalizing m with
    | nil => exact ⟨rfl, rfl, rfl⟩
    | cons e rest ih =>
      obtain ⟨hcontrol, hrelays, htime⟩ := step_between (h e List.mem_cons_self) m
      obtain ⟨hcontrol', hrelays', htime'⟩ :=
        ih (fun e he => h e (List.mem_cons_of_mem _ he)) (step e m)
      exact ⟨hcontrol'.trans hcontrol, hrelays'.trans hrelays, htime'.trans htime⟩
  obtain ⟨hcontrol, hrelays, htime⟩ := hkept
  simp only [Machine.run_append, Machine.run_cons, Machine.run_nil, step, tickStep, Tick.finds]
  rw [← hcontrol, ← hrelays, ← htime]

def heard (frames : List (List U8)) : Module :=
  run (registered ++ frames.flatMap fun frame => [.input (sealFrame frame), .poll ⟨true, true⟩])
    blank

def secondAfter (frames : List (List U8)) : Tick :=
  ⟨heard frames, ⟨⟨true, 0, true, true⟩, ⟨true, 0, true, true⟩⟩⟩

end Hvac
