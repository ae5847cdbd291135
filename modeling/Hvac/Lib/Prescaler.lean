import Mathlib.Logic.Basic
import Mathlib.Data.List.Basic

/-!
# Prescalers

A counter that is compared with a limit before it is incremented: it passes
through the limit, and gives a pulse and starts over one call later. This file
has how many pulses so many calls give, and how that compares with the pulses
of a counter that would divide by the limit.
-/

namespace Prescaler

/-- One call: the counter, and whether it gives a pulse. -/
def call (limit count : Nat) : Nat × Bool :=
  if count < limit then (count + 1, false) else (0, true)

/-- The counter after so many calls. -/
def after (limit : Nat) : Nat → Nat → Nat
  | 0, count => count
  | calls + 1, count => after limit calls (call limit count).1

def pulses (limit : Nat) : Nat → Nat → List Bool
  | 0, _ => []
  | calls + 1, count => (call limit count).2 :: pulses limit calls (call limit count).1

/-- A call moves the position by one, with `limit + 1` positions to a pulse. -/
theorem call_position (h : count ≤ limit) :
    (call limit count).1 ≤ limit ∧
      (call limit count).2.toNat * (limit + 1) + (call limit count).1 = count + 1 := by
  unfold call
  split
  · rename_i hlt
    exact ⟨hlt, by simp⟩
  · have heq : count = limit := by omega
    simp [heq]

theorem pulses_position (h : count ≤ limit) (calls : Nat) :
    after limit calls count ≤ limit ∧
      (pulses limit calls count).count true * (limit + 1) + after limit calls count =
        count + calls := by
  induction calls generalizing count with
  | zero => simpa [after, pulses] using h
  | succ calls ih =>
    obtain ⟨hle, hmove⟩ := call_position h
    obtain ⟨hbound, hrest⟩ := ih hle
    refine ⟨hbound, ?_⟩
    have hcount : (pulses limit (calls + 1) count).count true =
        (pulses limit calls (call limit count).1).count true + (call limit count).2.toNat := by
      cases hp : (call limit count).2 <;> simp [pulses, hp]
    rw [hcount, Nat.add_mul, after]
    omega

theorem after_eq_mod (h : count ≤ limit) :
    after limit calls count = (count + calls) % (limit + 1) := by
  obtain ⟨hbound, hposition⟩ := pulses_position h calls
  rw [← hposition, Nat.mul_add_mod', Nat.mod_eq_of_lt (by omega)]

theorem count_pulses (h : count ≤ limit) :
    (pulses limit calls count).count true = (count + calls) / (limit + 1) := by
  obtain ⟨hbound, hposition⟩ := pulses_position h calls
  rw [← hposition, Nat.add_comm, Nat.add_mul_div_right _ _ (by omega),
    Nat.div_eq_of_lt (by omega), Nat.zero_add]

-- ---------------------------------------------------------------------------
-- Against a division by the limit
-- ---------------------------------------------------------------------------

/-- The calls divided by the limit exceed the pulses unless the call left over
from each full period are enough for the ones it is short. -/
theorem div_succ_eq_div_iff (h : 0 < limit) (calls : Nat) :
    calls / (limit + 1) = calls / limit ↔ calls / limit ≤ calls % limit := by
  have hcalls := Nat.div_add_mod calls limit
  have hlt := Nat.mod_lt calls h
  rw [Nat.div_eq_iff (by omega)]
  generalize calls / limit = full at *
  generalize calls % limit = rest at *
  have hshift : full * (limit + 1) = limit * full + full := by rw [Nat.mul_succ, Nat.mul_comm]
  omega

/-- As many calls as the limit, after `before` others from zero: they give one
pulse, or none where they start right behind one. -/
theorem count_window (limit before : Nat) :
    (pulses limit limit (after limit before 0)).count true =
      if before % (limit + 1) = 0 then 0 else 1 := by
  have hafter : after limit before 0 = before % (limit + 1) := by
    rw [after_eq_mod (Nat.zero_le _), Nat.zero_add]
  have hlt : before % (limit + 1) < limit + 1 := Nat.mod_lt before (Nat.succ_pos limit)
  rw [hafter, count_pulses (by omega)]
  generalize before % (limit + 1) = start at *
  split
  · rename_i hzero
    rw [hzero, Nat.zero_add, Nat.div_eq_of_lt (by omega)]
  · rw [Nat.div_eq_iff (by omega)]
    omega

end Prescaler
