import Mathlib.Data.List.Basic
import Mathlib.Data.List.Range
import Mathlib.Logic.Function.Basic
import Mathlib.Logic.Function.DependsOn

/-!
# Byte buffers

Two kinds. A static buffer is a total function from index to value, read a
window at a time; what a computation takes from it is stated with Mathlib's
`DependsOn`. An allocation remembers the length it was asked with and every
index touched since, so that staying inside it can be stated.
-/

namespace Buffer

variable {α : Type*}

-- ---------------------------------------------------------------------------
-- Windows of a static buffer
-- ---------------------------------------------------------------------------

def window (buf : Nat → α) (n : Nat) : List α := (List.range n).map buf

@[simp] theorem length_window : (window buf n).length = n := by simp [window]

@[simp] theorem getElem_window (h : i < (window buf n).length) : (window buf n)[i] = buf i := by
  simp [window]

theorem window_congr {x y : Nat → α} (h : ∀ i < n, x i = y i) : window x n = window y n := by
  apply List.map_congr_left
  intro i hi
  exact h i (List.mem_range.mp hi)

def Agree (n : Nat) (x y : Nat → α) : Prop := ∀ i < n, x i = y i

theorem Agree.refl (n : Nat) (x : Nat → α) : Agree n x x := fun _ _ => rfl

theorem Agree.symm (h : Agree n x y) : Agree n y x := fun i hi => (h i hi).symm

theorem Agree.trans (h : Agree n x y) (h' : Agree n y z) : Agree n x z :=
  fun i hi => (h i hi).trans (h' i hi)

theorem Agree.mono (h : Agree n x y) (hk : k ≤ n) : Agree k x y :=
  fun i hi => h i (Nat.lt_of_lt_of_le hi hk)

theorem Agree.window (h : Agree n x y) (hk : k ≤ n) : window x k = window y k :=
  window_congr (h.mono hk)

theorem Agree.of_window (h : Buffer.window x n = Buffer.window y n) : Agree n x y := by
  intro i hi
  have hget : (Buffer.window x n)[i]? = (Buffer.window y n)[i]? := by rw [h]
  simpa [hi] using hget

theorem agree_update (h : n ≤ i) (x : Nat → α) (v : α) :
    Agree n x (Function.update x i v) := by
  intro j hj
  rw [Function.update_of_ne (Nat.ne_of_lt (Nat.lt_of_lt_of_le hj h))]

theorem window_succ (buf : Nat → α) (n : Nat) : window buf (n + 1) = window buf n ++ [buf n] := by
  simp [window, List.range_succ]

theorem window_add (buf : Nat → α) (n k : Nat) :
    window buf (n + k) = window buf n ++ window (fun i => buf (n + i)) k := by
  simp [window, List.range_add, Function.comp_def]

theorem take_window (h : k ≤ n) : (window buf n).take k = window buf k := by
  obtain ⟨d, rfl⟩ := Nat.exists_eq_add_of_le h
  rw [window_add, List.take_left' length_window]

/-- Overwrite the front of the buffer; what is past the chunk stays. -/
def store (chunk : List α) (buf : Nat → α) : Nat → α := fun i => chunk.getD i (buf i)

theorem store_of_lt (h : i < chunk.length) : store chunk buf i = chunk[i] := by
  simp [store, List.getD_eq_getElem?_getD, h]

theorem window_store (chunk : List α) (buf : Nat → α) :
    window (store chunk buf) chunk.length = chunk := by
  apply List.ext_getElem (by simp)
  intro i h₁ h₂
  rw [getElem_window, store_of_lt h₂]

-- ---------------------------------------------------------------------------
-- Allocations
-- ---------------------------------------------------------------------------

/-- Memory obtained from an allocator: `size` is the length that was asked
for. An access past it reaches the neighbours, and is recorded like any. -/
structure Allocation (α : Type*) where
  size : Nat
  mem : Nat → α
  touched : List Nat := []

namespace Allocation

/-- Every access so far stayed inside what was asked for. -/
def InBounds (b : Allocation α) : Prop := ∀ i ∈ b.touched, i < b.size

instance (b : Allocation α) : Decidable b.InBounds :=
  inferInstanceAs (Decidable (∀ i ∈ b.touched, i < b.size))

def write (b : Allocation α) (i : Nat) (v : α) : Allocation α :=
  { b with mem := Function.update b.mem i v, touched := i :: b.touched }

/-- Hand the first `n` values to somebody who reads all of them. -/
def expose (b : Allocation α) (n : Nat) : Allocation α :=
  { b with touched := List.range n ++ b.touched }

@[simp] theorem size_write (b : Allocation α) : (b.write i v).size = b.size := rfl
@[simp] theorem size_expose (b : Allocation α) : (b.expose n).size = b.size := rfl
@[simp] theorem mem_expose (b : Allocation α) : (b.expose n).mem = b.mem := rfl
@[simp] theorem mem_write (b : Allocation α) : (b.write i v).mem = Function.update b.mem i v := rfl

@[simp] theorem inBounds_write (b : Allocation α) :
    (b.write i v).InBounds ↔ i < b.size ∧ b.InBounds := by
  simp [InBounds, write]

@[simp] theorem inBounds_expose (b : Allocation α) :
    (b.expose n).InBounds ↔ n ≤ b.size ∧ b.InBounds := by
  simp only [InBounds, expose, List.mem_append, List.mem_range, or_imp, forall_and]
  refine and_congr_left fun _ => ⟨fun h => ?_, fun h i hi => Nat.lt_of_lt_of_le hi h⟩
  by_contra hlt
  exact Nat.lt_irrefl _ (h b.size (Nat.lt_of_not_le hlt))

theorem window_write (b : Allocation α) (n : Nat) (v : α) :
    window (b.write n v).mem (n + 1) = window b.mem n ++ [v] := by
  rw [window_succ]
  congr 1
  · apply window_congr
    intro i hi
    simp [Function.update_of_ne (Nat.ne_of_lt hi)]
  · simp

end Allocation

end Buffer
