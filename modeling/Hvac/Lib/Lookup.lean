import Mathlib.Order.Monotone.Basic
import Mathlib.Data.List.Basic

/-!
# Descending tables

A value lies under one entry of a descending table and above the next. This
file has that place, a scan that finds it, and the value's position between the
two entries in equal parts.
-/

namespace Lookup

variable {table : Nat → Nat} {value value' k k' : Nat}

/-- The value is not above the entry, and above the next one. -/
def Bracket (table : Nat → Nat) (value k : Nat) : Prop := value ≤ table k ∧ table (k + 1) < value

instance (table : Nat → Nat) (value k : Nat) : Decidable (Bracket table value k) :=
  inferInstanceAs (Decidable (_ ∧ _))

theorem Bracket.le_iff (hanti : Antitone table) (h : Bracket table value k) :
    value ≤ table i ↔ i ≤ k := by
  constructor
  · intro hle
    by_contra hgt
    have hbelow : table i ≤ table (k + 1) := hanti (Nat.lt_of_not_le hgt)
    have hlt := h.2
    omega
  · intro hi
    exact Nat.le_trans h.1 (hanti hi)

theorem Bracket.antitone (hanti : Antitone table) (h : Bracket table value k)
    (h' : Bracket table value' k') (hle : value ≤ value') : k' ≤ k :=
  (h.le_iff hanti).mp (Nat.le_trans hle h'.1)

theorem Bracket.unique (hanti : Antitone table) (h : Bracket table value k)
    (h' : Bracket table value k') : k = k' :=
  Nat.le_antisymm (h'.antitone hanti h (Nat.le_refl value))
    (h.antitone hanti h' (Nat.le_refl value))

theorem exists_bracket (hfirst : value ≤ table 0) (hlast : table n < value) :
    ∃ k < n, Bracket table value k := by
  induction n with
  | zero => omega
  | succ n ih =>
    by_cases h : value ≤ table n
    · exact ⟨n, Nat.lt_succ_self n, h, hlast⟩
    · obtain ⟨k, hk, hb⟩ := ih (Nat.lt_of_not_le h)
      exact ⟨k, Nat.lt_succ_of_lt hk, hb⟩

-- ---------------------------------------------------------------------------
-- The scan
-- ---------------------------------------------------------------------------

/-- The first of the places below `n` the value belongs to. -/
def scan (table : Nat → Nat) (value n : Nat) : Option Nat :=
  (List.range n).find? fun k => decide (Bracket table value k)

theorem Bracket.scan_eq (hanti : Antitone table) (h : Bracket table value k) (hk : k < n) :
    scan table value n = some k := by
  cases hscan : scan table value n with
  | none =>
    have hnone := List.find?_eq_none.mp hscan k (List.mem_range.mpr hk)
    exact absurd (decide_eq_true h) hnone
  | some k' =>
    unfold scan at hscan
    have hfound := List.find?_some hscan
    simp only [decide_eq_true_eq] at hfound
    rw [h.unique hanti hfound]

-- ---------------------------------------------------------------------------
-- Between two entries
-- ---------------------------------------------------------------------------

/-- How many of the parts between the two entries the value is below the first. -/
def part (parts : Nat) (table : Nat → Nat) (value k : Nat) : Nat :=
  (table k - value) * parts / (table k - table (k + 1))

/-- The position of the value, `parts` to an entry. -/
def position (parts : Nat) (table : Nat → Nat) (value k : Nat) : Nat :=
  parts * k + part parts table value k

theorem Bracket.part_lt (hparts : 0 < parts) (h : Bracket table value k) :
    part parts table value k < parts := by
  obtain ⟨hle, hlt⟩ := h
  have hpos : 0 < table k - table (k + 1) := by omega
  have hinside : table k - value < table k - table (k + 1) := by omega
  rw [part, Nat.div_lt_iff_lt_mul hpos, Nat.mul_comm parts]
  exact Nat.mul_lt_mul_of_pos_right hinside hparts

/-- A greater value has no greater position. -/
theorem Bracket.position_antitone (hparts : 0 < parts) (hanti : Antitone table)
    (h : Bracket table value k) (h' : Bracket table value' k') (hle : value ≤ value') :
    position parts table value' k' ≤ position parts table value k := by
  unfold position
  rcases Nat.lt_or_eq_of_le (h.antitone hanti h' hle) with hlt | rfl
  · have hnext : parts * k' + parts ≤ parts * k := by
      rw [← Nat.mul_succ]
      exact Nat.mul_le_mul_left parts hlt
    have hpart := h'.part_lt hparts
    omega
  · have hpart : part parts table value' k' ≤ part parts table value k' := by
      refine Nat.div_le_div_right (Nat.mul_le_mul_right parts ?_)
      omega
    omega

end Lookup
