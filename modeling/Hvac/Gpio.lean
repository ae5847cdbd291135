import Hvac.Lib.Prescaler
import Hvac.State

/-!
# The software timer and the location flag

`Gpio.c`: the timer every loop counts its calls with, and the flag that a
LOCATION read leaves for the LED task.
-/

namespace Hvac

def closeModuleLocation (m : Module) : Module := { m with locationFlag := false }

-- ---------------------------------------------------------------------------
-- The software timer
-- ---------------------------------------------------------------------------

/-- `TimerTask`: the counter, which it stores and returns, and the flag. -/
def timerTask (time touchTime : U16) : U16 × U8 :=
  if time < touchTime then (time + 1, no) else (0, yes)

/-- The counter after so many calls, each time assigned from the return value. -/
def timerAfter (touchTime : U16) : Nat → U16 → U16
  | 0, time => time
  | calls + 1, time => timerAfter touchTime calls (timerTask time touchTime).1

/-- The flag after each of so many calls. -/
def timerFlags (touchTime : U16) : Nat → U16 → List U8
  | 0, _ => []
  | calls + 1, time =>
    (timerTask time touchTime).2 :: timerFlags touchTime calls (timerTask time touchTime).1

/-- The timer is a prescaler. The counter is below `touchTime` when it is
incremented, so that it does not wrap. -/
theorem timerTask_eq_call (time touchTime : U16) :
    (timerTask time touchTime).1.toNat = (Prescaler.call touchTime.toNat time.toNat).1 ∧
      ((timerTask time touchTime).2 = yes ↔
        (Prescaler.call touchTime.toNat time.toNat).2 = true) := by
  unfold timerTask Prescaler.call
  by_cases h : time < touchTime
  · have hlt : time.toNat < touchTime.toNat := h
    have hwidth := touchTime.isLt
    rw [if_pos h, if_pos hlt]
    refine ⟨?_, by simp [no, yes]⟩
    have hone : (1 : U16).toNat = 1 := rfl
    rw [BitVec.toNat_add, hone]
    exact Nat.mod_eq_of_lt (by omega)
  · have hge : ¬time.toNat < touchTime.toNat := h
    rw [if_neg h, if_neg hge]
    exact ⟨rfl, by simp⟩

theorem timerAfter_eq (touchTime : U16) (calls : Nat) (time : U16) :
    (timerAfter touchTime calls time).toNat =
      Prescaler.after touchTime.toNat calls time.toNat := by
  induction calls generalizing time with
  | zero => rfl
  | succ calls ih =>
    rw [timerAfter, Prescaler.after, ih, (timerTask_eq_call time touchTime).1]

theorem count_timerFlags (touchTime : U16) (calls : Nat) (time : U16) :
    (timerFlags touchTime calls time).count yes =
      (Prescaler.pulses touchTime.toNat calls time.toNat).count true := by
  induction calls generalizing time with
  | zero => rfl
  | succ calls ih =>
    obtain ⟨htime, hflag⟩ := timerTask_eq_call time touchTime
    rw [timerFlags, Prescaler.pulses, List.count_cons, List.count_cons, ih, htime]
    simp only [beq_iff_eq, hflag]

/-- From zero the flag is up once in `touchTime + 1` calls. -/
theorem count_timerFlags_zero (touchTime : U16) (calls : Nat) :
    (timerFlags touchTime calls 0).count yes = calls / (touchTime.toNat + 1) := by
  rw [count_timerFlags, show (0 : U16).toNat = 0 from rfl, Prescaler.count_pulses (Nat.zero_le _),
    Nat.zero_add]

end Hvac
