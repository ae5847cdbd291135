import Hvac.Lib.Buffer
import Mathlib.Data.Nat.ModEq

/-!
# Ring buffers

A writer stores value `k` of a stream at index `k mod n` and never stops. What
it stored last can be read back, as long as it went around less than once: in
one piece, or in two where it passes the end.
-/

namespace Ring

open Buffer (window)

variable {α : Type*}

/-- The values from number `k` on are stored. -/
def put (n k : Nat) : List α → (Nat → α) → Nat → α
  | [], mem => mem
  | v :: rest, mem => put n (k + 1) rest (Function.update mem (k % n) v)

/-- The `len` values from number `k` on. -/
def get (n k len : Nat) (mem : Nat → α) : List α := window (fun i => mem ((k + i) % n)) len

theorem get_mod (n k len : Nat) (mem : Nat → α) : get n (k % n) len mem = get n k len mem := by
  simp [get]

theorem add_mod_ne (h : 0 < i) (hn : i < n) (k : Nat) : (k + i) % n ≠ k % n := by
  intro heq
  have hzero : i ≡ 0 [MOD n] := Nat.ModEq.add_left_cancel' k heq
  rw [Nat.ModEq, Nat.zero_mod, Nat.mod_eq_of_lt hn] at hzero
  exact absurd hzero (Nat.ne_of_gt h)

theorem put_of_ne {mem : Nat → α} (h : ∀ i < values.length, (k + i) % n ≠ j) :
    put n k values mem j = mem j := by
  induction values generalizing k mem with
  | nil => rfl
  | cons v rest ih =>
    have hfirst : k % n ≠ j := h 0 (Nat.zero_lt_succ _)
    rw [put, ih, Function.update_of_ne hfirst.symm]
    intro i hi
    rw [Nat.add_assoc, Nat.add_comm 1]
    exact h (i + 1) (Nat.succ_lt_succ hi)

/-- What was stored is read back, if it is not more than the ring holds. -/
theorem get_put {values : List α} (h : values.length ≤ n) (k : Nat) (mem : Nat → α) :
    get n k values.length (put n k values mem) = values := by
  induction values generalizing k mem with
  | nil => rfl
  | cons v rest ih =>
    have hhead : put n (k + 1) rest (Function.update mem (k % n) v) (k % n) = v := by
      rw [put_of_ne, Function.update_self]
      intro i hi
      rw [Nat.add_assoc]
      exact add_mod_ne (by omega) (by rw [List.length_cons] at h; omega) k
    have htail := ih (Nat.le_of_succ_le h) (k + 1) (Function.update mem (k % n) v)
    unfold get at htail ⊢
    rw [List.length_cons, Nat.add_comm, Buffer.window_add, put]
    simp only [Nat.add_assoc] at htail
    rw [htail]
    simp [window, hhead]

/-- The two pieces of a range that passes the end. -/
theorem get_eq_window (h : k < n) (hlen : len ≤ n) (mem : Nat → α) :
    get n k len mem =
      if k + len < n then window (fun i => mem (k + i)) len
      else window (fun i => mem (k + i)) (n - k) ++ window mem (k + len - n) := by
  split
  · exact Buffer.window_congr fun i hi => by rw [Nat.mod_eq_of_lt (by omega)]
  · have hsplit : len = n - k + (k + len - n) := by omega
    rw [get, hsplit, Buffer.window_add, ← hsplit]
    congr 1
    · exact Buffer.window_congr fun i hi => by rw [Nat.mod_eq_of_lt (by omega)]
    · refine Buffer.window_congr fun i hi => ?_
      rw [show k + (n - k + i) = i + n by omega, Nat.add_mod_right, Nat.mod_eq_of_lt (by omega)]

end Ring
