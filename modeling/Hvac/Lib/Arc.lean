import Mathlib.Data.Int.ModEq

/-!
# Arcs on a circle

The points of a circle are the integers modulo its circumference `n`. An arc
goes forward from its start, which does not belong to it, to its finish, which
does. This file says how an arc reads on the numbers from zero to `n`, and that
turning the circle changes nothing.
-/

namespace Arc

def Mem (n start finish x : Int) : Prop :=
  0 < (x - start) % n ∧ (x - start) % n ≤ (finish - start) % n

instance (n start finish x : Int) : Decidable (Mem n start finish x) :=
  inferInstanceAs (Decidable (_ ∧ _))

/-- Only the points matter, not the numbers that name them. -/
theorem mem_congr (hs : start ≡ start' [ZMOD n]) (hf : finish ≡ finish' [ZMOD n])
    (hx : x ≡ x' [ZMOD n]) : Mem n start finish x ↔ Mem n start' finish' x' := by
  have hway : (x - start) % n = (x' - start') % n := hx.sub hs
  have hlength : (finish - start) % n = (finish' - start') % n := hf.sub hs
  simp only [Mem, hway, hlength]

theorem mem_add (k : Int) : Mem n (start + k) (finish + k) (x + k) ↔ Mem n start finish x := by
  simp only [Mem, add_sub_add_right_eq_sub]

theorem mem_turn (k : Int) (hs : start' ≡ start + k [ZMOD n]) (hf : finish' ≡ finish + k [ZMOD n])
    (hx : x' ≡ x + k [ZMOD n]) : Mem n start' finish' x' ↔ Mem n start finish x :=
  (mem_congr hs hf hx).trans (mem_add k)

-- ---------------------------------------------------------------------------
-- On the numbers from zero
-- ---------------------------------------------------------------------------

section
variable {n a b start finish x : Int}

/-- The number is the one between zero and the circumference. -/
structure Named (n a : Int) : Prop where
  nonneg : 0 ≤ a
  lt : a < n

theorem way_of_le (ha : Named n a) (hb : Named n b) (h : a ≤ b) : (b - a) % n = b - a := by
  have := ha.nonneg
  have := hb.lt
  exact Int.emod_eq_of_lt (by omega) (by omega)

theorem way_of_lt (ha : Named n a) (hb : Named n b) (h : b < a) : (b - a) % n = b - a + n := by
  have := ha.lt
  have := hb.nonneg
  rw [← Int.add_emod_right]
  exact Int.emod_eq_of_lt (by omega) (by omega)

/-- The arc does not pass zero. -/
theorem mem_of_le (hs : Named n start) (hf : Named n finish) (hx : Named n x)
    (h : start ≤ finish) : Mem n start finish x ↔ start < x ∧ x ≤ finish := by
  obtain hlt | hle := Int.lt_or_le x start
  · have := hx.nonneg
    have := hf.lt
    simp only [Mem, way_of_le hs hf h, way_of_lt hs hx hlt]
    omega
  · simp only [Mem, way_of_le hs hf h, way_of_le hs hx hle]
    omega

/-- The arc passes zero. -/
theorem mem_of_lt (hs : Named n start) (hf : Named n finish) (hx : Named n x)
    (h : finish < start) : Mem n start finish x ↔ start < x ∨ x ≤ finish := by
  have := hf.nonneg
  have := hs.lt
  have := hx.lt
  obtain hlt | hle := Int.lt_or_le x start
  · have := hx.nonneg
    simp only [Mem, way_of_lt hs hf h, way_of_lt hs hx hlt]
    omega
  · simp only [Mem, way_of_lt hs hf h, way_of_le hs hx hle]
    omega

end

end Arc
