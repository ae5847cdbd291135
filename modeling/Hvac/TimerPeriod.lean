import Hvac.Main
import Hvac.Ticks

/-!
# The period of a software timer

A timer set to `touchTime` calls comes due once in `touchTime + 1`, and so the
main loop counts one second in 51 passes, not in `1000 / 20`.
-/

namespace Hvac

/-- The passes of the main loop, among the steps of all threads. -/
def rounds : List MainEvent → Nat
  | [] => 0
  | .round _ :: rest => rounds rest + 1
  | .other _ :: rest => rounds rest

@[simp] theorem rounds_replicate (passes : Nat) (adc : Adc) :
    rounds (List.replicate passes (.round adc)) = passes := by
  induction passes with
  | zero => rfl
  | succ passes ih => rw [List.replicate_succ, rounds, ih]

/-- The other threads leave the time and the control program to the main loop. -/
def Interleaved (events : List MainEvent) : Prop := ∀ e, .other e ∈ events → e.Between

-- ---------------------------------------------------------------------------
-- The seconds of the main loop
-- ---------------------------------------------------------------------------

@[simp] theorem monitorConnectedState_timeRun (m : Module) :
    (monitorConnectedState m).timeRun = m.timeRun := by
  unfold monitorConnectedState
  split <;> rfl

@[simp] theorem everySecond_timeRun (adc : Adc) (m : Module) :
    (everySecond adc m).timeRun = m.timeRun + 1 := by
  rw [everySecond, monitorConnectedState_timeRun]
  exact (controlProgram_thermostatOnly adc (timeRunning m)).bystander.timeRun

/-- The passes counted in the time and in the counter. -/
def MainTask.position (s : MainTask) : Nat := s.module.timeRun * (50 + 1) + s.time1S.toNat

theorem mainRound_timer (adc : Adc) (s : MainTask) :
    (mainRound adc s).time1S = (timerTask s.time1S 50).1 ∧
      (mainRound adc s).module.timeRun =
        if (timerTask s.time1S 50).2 = yes then s.module.timeRun + 1 else s.module.timeRun := by
  have hlimit : (1000 / 20 : U16) = 50 := by decide
  refine ⟨congrArg (fun limit => (timerTask s.time1S limit).1) hlimit, ?_⟩
  unfold mainRound
  rw [hlimit]
  dsimp only
  split <;> simp

theorem mainRound_position (adc : Adc) (h : s.time1S.toNat ≤ 50) :
    (mainRound adc s).time1S.toNat ≤ 50 ∧
      (mainRound adc s).position = s.position + 1 := by
  obtain ⟨hcounter, hseconds⟩ := mainRound_timer adc s
  obtain ⟨htime, hflag⟩ := timerTask_eq_call s.time1S 50
  obtain ⟨hle, hmove⟩ := Prescaler.call_position h
  rw [← hcounter] at htime
  refine ⟨htime.trans_le hle, ?_⟩
  rw [MainTask.position, MainTask.position, hseconds, htime, Nat.add_assoc, ← hmove]
  cases hp : (Prescaler.call 50 s.time1S.toNat).2 with
  | true =>
    rw [if_pos (hflag.mpr hp), Nat.add_mul]
    simp [Nat.add_assoc]
  | false =>
    rw [if_neg (mt hflag.mp (by simp [hp]))]
    simp

theorem run_position (h : Interleaved events) (hs : s.time1S.toNat ≤ 50) :
    (Machine.run mainStep events s).time1S.toNat ≤ 50 ∧
      (Machine.run mainStep events s).position = s.position + rounds events := by
  induction events generalizing s with
  | nil => exact ⟨hs, rfl⟩
  | cons e rest ih =>
    have hrest : Interleaved rest := fun e he => h e (List.mem_cons_of_mem _ he)
    cases e with
    | round adc =>
      obtain ⟨hle, hmove⟩ := mainRound_position adc hs
      obtain ⟨hbound, hposition⟩ := ih hrest hle
      refine ⟨hbound, ?_⟩
      exact hposition.trans (by rw [hmove, rounds, Nat.add_assoc, Nat.add_comm 1])
    | other e =>
      have hother : (mainStep (.other e) s).position = s.position := by
        have htime := (step_between (h e List.mem_cons_self) s.module).2.2
        exact congrArg (fun t => t * (50 + 1) + s.time1S.toNat) htime
      obtain ⟨hbound, hposition⟩ := ih (s := mainStep (.other e) s) hrest hs
      exact ⟨hbound, hposition.trans (by rw [hother, rounds])⟩

/-- From a counter at zero the main loop counts a second in 51 passes. -/
theorem run_timeRun (h : Interleaved events) (hs : s.time1S = 0) :
    (Machine.run mainStep events s).module.timeRun = s.module.timeRun + rounds events / 51 := by
  have hzero : s.time1S.toNat = 0 := by rw [hs]; rfl
  obtain ⟨hbound, hposition⟩ := run_position h (s := s) (by omega)
  rw [MainTask.position, MainTask.position, hzero] at hposition
  omega

-- ---------------------------------------------------------------------------
-- The period
-- ---------------------------------------------------------------------------

/-- For every period and every number of calls from a counter at zero: the timer
is due as often as the calls divided by the period say exactly when the calls
left over make up for the one call it loses in each period; of as many calls as
the period exactly one finds it due unless they start right behind such a call;
and the main loop counts its seconds in `1000 / 20` passes on the same terms. -/
theorem timer_period_iff (touchTime : U16) (h : 1 ≤ touchTime.toNat) :
    (∀ calls, (timerFlags touchTime calls 0).count yes = calls / touchTime.toNat ↔
      calls / touchTime.toNat ≤ calls % touchTime.toNat) ∧
    (∀ before, (timerFlags touchTime touchTime.toNat (timerAfter touchTime before 0)).count yes = 1 ↔
      before % (touchTime.toNat + 1) ≠ 0) ∧
    ∀ (start : MainTask) (events : List MainEvent), start.time1S = 0 → Interleaved events →
      ((Machine.run mainStep events start).module.timeRun =
          start.module.timeRun + rounds events / (1000 / 20) ↔
        rounds events / (1000 / 20) ≤ rounds events % (1000 / 20)) := by
  refine ⟨fun calls => ?_, fun before => ?_, fun start events hstart hevents => ?_⟩
  · rw [count_timerFlags_zero]
    exact Prescaler.div_succ_eq_div_iff h calls
  · rw [count_timerFlags, timerAfter_eq, show (0 : U16).toNat = 0 from rfl, Prescaler.count_window]
    split <;> simp [*]
  · rw [run_timeRun hevents hstart, Nat.add_left_cancel_iff]
    exact Prescaler.div_succ_eq_div_iff (by decide) _

/-- After 149 passes the 99 left over from two seconds make up for the two lost calls. -/
theorem timer_period_two_seconds :
    let passes := List.replicate 149 (MainEvent.round ⟨⟨true, 0, true, true⟩, ⟨true, 0, true, true⟩⟩)
    (timerFlags 50 149 0).count yes = 149 / 50 ∧
      (timerFlags 50 50 (timerAfter 50 7 0)).count yes = 1 ∧
      (Machine.run mainStep passes { module := blank, led := {} }).module.timeRun =
        149 / (1000 / 20) := by
  intro passes
  obtain ⟨hcount, hwindow, hseconds⟩ := timer_period_iff 50 (by decide)
  refine ⟨(hcount 149).mpr (by decide), (hwindow 7).mpr (by decide), ?_⟩
  have hrounds : rounds passes = 149 := rounds_replicate 149 _
  have hothers : Interleaved passes := by
    rintro e he
    cases List.eq_of_mem_replicate he
  have htime := (hseconds { module := blank, led := {} } passes rfl hothers).mpr
    (by rw [hrounds]; decide)
  rw [htime, hrounds]
  rfl

/-- In the thousand calls of twenty seconds the timer of a second is due 19 times. -/
theorem timer_period_fails :
    (timerFlags 50 1000 0).count yes = 19 ∧
      ¬∀ (touchTime : U16) (calls : Nat), 1 ≤ touchTime.toNat →
        (timerFlags touchTime calls 0).count yes = calls / touchTime.toNat := by
  have hcount : (timerFlags 50 1000 0).count yes = 19 := by
    rw [count_timerFlags_zero]
    rfl
  refine ⟨hcount, fun h => ?_⟩
  have hperiod : (50 : U16).toNat = 50 := rfl
  have htwenty := h 50 1000 (by decide)
  rw [hcount, hperiod] at htwenty
  omega

end Hvac
