import Mathlib.Algebra.Order.Ring.Abs
import Mathlib.Data.Nat.Dist
import Mathlib.Data.Set.Basic
import Mathlib.Tactic.Ring
import Mathlib.Tactic.Linarith

/-!
# Digital lines

A straight line on a grid has one point for each unit along its longer side:
the one nearest to the line across it. The points are found by additions alone,
with an error term whose size decides each step.
-/

namespace Raster

/-- How far the line is across after `k` of its `long` units along, to the nearest
integer and at a tie to the lower. -/
def across (long short k : Nat) : Nat := (short * k + (long - 1) / 2) / long

/-- The error term after `k` units along and `j` across. -/
structure Tracks (long short k j : Nat) (err : Int) : Prop where
  err_eq : err = (long / 2 : Nat) - short * k + long * j
  nonneg : 0 ≤ err
  lt : err < long

variable {long short k j : Nat} {err : Int}

theorem tracks_start (h : 0 < long) : Tracks long short 0 0 (long / 2 : Nat) := by
  refine ⟨by simp, Int.natCast_nonneg _, ?_⟩
  exact_mod_cast Nat.div_lt_self h (Nat.lt_succ_self 1)

/-- A large error is worked off along the line. -/
theorem Tracks.along (h : Tracks long short k j err) (herr : short ≤ err) :
    Tracks long short (k + 1) j (err - short) := by
  obtain ⟨heq, -, hlt⟩ := h
  refine ⟨?_, by omega, by omega⟩
  rw [heq]
  push_cast
  ring

/-- A small one makes the line go across. -/
theorem Tracks.across (h : Tracks long short k j err) (herr : err < short)
    (hshort : short ≤ long) : Tracks long short (k + 1) (j + 1) (err - short + long) := by
  obtain ⟨heq, hnonneg, -⟩ := h
  refine ⟨?_, by omega, by omega⟩
  rw [heq]
  push_cast
  ring

/-- The points with a small error term are those nearest to the line. -/
theorem Tracks.eq_across (h : Tracks long short k j err) : j = Raster.across long short k := by
  obtain ⟨heq, hnonneg, hlt⟩ := h
  have hsum : short * k + (long - 1) / 2 = j * long + (long - 1 - err).toNat := by
    zify
    rw [Int.toNat_of_nonneg (by omega), heq]
    have hhalf : ((long - 1) / 2 + long / 2 : Nat) = (long : Int) - 1 := by omega
    push_cast at hhalf ⊢
    linarith
  rw [Raster.across, hsum, Nat.add_comm, Nat.add_mul_div_right _ _ (by omega),
    Nat.div_eq_of_lt (by omega), Nat.zero_add]

@[simp] theorem across_zero (long short : Nat) : across long short 0 = 0 := by
  rw [across, Nat.mul_zero, Nat.zero_add]
  rcases Nat.eq_zero_or_pos long with rfl | hpos
  · exact Nat.div_zero _
  · exact Nat.div_eq_of_lt (by omega)

/-- The line ends where it should. -/
theorem across_long (h : 0 < long) (short : Nat) : across long short long = short := by
  rw [across, Nat.add_comm, Nat.add_mul_div_right _ _ h, Nat.div_eq_of_lt (by omega), Nat.zero_add]

@[simp] theorem across_level (long k : Nat) : across long 0 k = 0 := by
  rw [across, Nat.zero_mul, ← Nat.mul_zero 0, ← across, across_zero]

theorem across_mono (long short : Nat) (h : k ≤ j) : across long short k ≤ across long short j :=
  Nat.div_le_div_right (Nat.add_le_add_right (Nat.mul_le_mul_left _ h) _)

theorem across_le (h : k ≤ long) : across long short k ≤ short := by
  rcases Nat.eq_zero_or_pos long with rfl | hpos
  · rw [Nat.le_zero.mp h, across_zero]
    exact Nat.zero_le _
  · exact (across_mono long short h).trans (Nat.le_of_eq (across_long hpos short))

/-- No point of the grid beside it is nearer: it is within half a unit. -/
theorem across_near (h : 0 < long) (short k : Nat) :
    2 * |(long * across long short k : Int) - short * k| ≤ long := by
  have hdiv := Nat.div_add_mod (short * k + (long - 1) / 2) long
  have hmod := Nat.mod_lt (short * k + (long - 1) / 2) h
  have hhalf : (long - 1) / 2 * 2 ≤ long - 1 ∧ long - 1 ≤ (long - 1) / 2 * 2 + 1 := by omega
  rw [← across] at hdiv
  generalize (short * k + (long - 1) / 2) % long = rest at hdiv hmod
  generalize (long - 1) / 2 = half at hdiv hhalf
  have hsum : (long * across long short k : Int) - short * k = half - rest := by
    have hcast := congrArg (Nat.cast : Nat → Int) hdiv
    push_cast at hcast
    linarith
  rw [hsum, ← abs_two, ← abs_mul, abs_le]
  omega

/-- One unit along is at most one across. -/
theorem across_succ (h : short ≤ long) (k : Nat) :
    across long short (k + 1) = across long short k ∨
      across long short (k + 1) = across long short k + 1 := by
  rcases Nat.eq_zero_or_pos long with rfl | hpos
  · exact .inl (by simp [across])
  · have hle := across_mono long short (Nat.le_add_right k 1)
    have hlt : across long short (k + 1) ≤ across long short k + 1 := by
      calc across long short (k + 1)
          ≤ (short * k + (long - 1) / 2 + long) / long := by
            refine Nat.div_le_div_right ?_
            rw [Nat.mul_succ]
            omega
        _ = across long short k + 1 := by rw [Nat.add_div_right _ hpos, across]
    omega

-- ---------------------------------------------------------------------------
-- Lines between two points
-- ---------------------------------------------------------------------------

/-- So many units from one number towards another. -/
def toward (start stop k : Nat) : Nat := if start < stop then start + k else start - k

@[simp] theorem toward_zero (start stop : Nat) : toward start stop 0 = start := by
  simp [toward]

@[simp] theorem toward_dist (start stop : Nat) :
    toward start stop (Nat.dist start stop) = stop := by
  unfold toward Nat.dist
  split <;> omega

theorem toward_eq_stop (h : k ≤ Nat.dist start stop) :
    toward start stop k = stop ↔ k = Nat.dist start stop := by
  unfold Nat.dist at h ⊢
  unfold toward
  split <;> omega

/-- On the way there is nothing beyond the two ends. -/
theorem toward_lt (hstart : start < n) (hstop : stop < n) (h : k ≤ Nat.dist start stop) :
    toward start stop k < n := by
  unfold Nat.dist at h
  unfold toward
  split <;> omega

def sign (start stop : Nat) : Int := if start < stop then 1 else -1

theorem sub_eq_sign_mul (start stop : Nat) :
    (stop : Int) - start = sign start stop * Nat.dist start stop := by
  unfold sign Nat.dist
  split <;> omega

theorem toward_sub (h : k ≤ Nat.dist start stop) :
    (toward start stop k : Int) - start = sign start stop * k := by
  unfold Nat.dist at h
  unfold toward sign
  split <;> omega

theorem abs_sign (start stop : Nat) : |sign start stop| = 1 := by
  unfold sign
  split <;> simp

/-- The numbers between two are those on the way from one to the other. -/
theorem exists_toward : (∃ k ≤ Nat.dist start stop, n = toward start stop k) ↔
    min start stop ≤ n ∧ n ≤ max start stop := by
  unfold Nat.dist toward
  constructor
  · rintro ⟨k, hk, rfl⟩
    split <;> omega
  · rintro ⟨hmin, hmax⟩
    exact ⟨if start < stop then n - start else start - n, by split <;> omega,
      by split <;> omega⟩

/-- The points from one number to another. -/
def points (point : Nat → Nat × Nat) (first last : Nat) : Set (Nat × Nat) :=
  {p | ∃ k, first ≤ k ∧ k ≤ last ∧ p = point k}

theorem points_self (point : Nat → Nat × Nat) (last : Nat) :
    points point last last = {point last} := by
  ext p
  constructor
  · rintro ⟨k, hfirst, hlast, rfl⟩
    rw [Nat.le_antisymm hlast hfirst]
    rfl
  · rintro rfl
    exact ⟨last, Nat.le_refl _, Nat.le_refl _, rfl⟩

theorem points_succ (point : Nat → Nat × Nat) (h : first ≤ last) :
    points point first last = {point first} ∪ points point (first + 1) last := by
  ext p
  constructor
  · rintro ⟨k, hfirst, hlast, rfl⟩
    rcases Nat.eq_or_lt_of_le hfirst with rfl | hlt
    · exact .inl rfl
    · exact .inr ⟨k, hlt, hlast, rfl⟩
  · rintro (rfl | ⟨k, hfirst, hlast, rfl⟩)
    · exact ⟨first, Nat.le_refl _, h, rfl⟩
    · exact ⟨k, Nat.le_of_succ_le hfirst, hlast, rfl⟩

variable (start stop : Nat × Nat)

def width : Nat := Nat.dist start.1 stop.1
def height : Nat := Nat.dist start.2 stop.2

/-- The point of the line after so many units along its longer side. -/
def linePoint (k : Nat) : Nat × Nat :=
  if height start stop < width start stop then
    (toward start.1 stop.1 k,
      toward start.2 stop.2 (across (width start stop) (height start stop) k))
  else
    (toward start.1 stop.1 (across (height start stop) (width start stop) k),
      toward start.2 stop.2 k)

def line : Set (Nat × Nat) :=
  points (linePoint start stop) 0 (max (width start stop) (height start stop))

@[simp] theorem linePoint_zero : linePoint start stop 0 = start := by
  unfold linePoint
  split <;> simp

theorem linePoint_last :
    linePoint start stop (max (width start stop) (height start stop)) = stop := by
  unfold linePoint
  split <;> rename_i h
  · rw [Nat.max_eq_left h.le, across_long (Nat.zero_lt_of_lt h)]
    exact Prod.ext (toward_dist ..) (toward_dist ..)
  · rw [Nat.max_eq_right (Nat.le_of_not_lt h)]
    rcases Nat.eq_zero_or_pos (height start stop) with hzero | hpos
    · have hwidth : width start stop = 0 := by omega
      rw [hzero, across_zero]
      refine Prod.ext ?_ ?_
      · exact (congrArg (toward _ _) hwidth.symm).trans (toward_dist ..)
      · exact (congrArg (toward _ _) hzero.symm).trans (toward_dist ..)
    · rw [across_long hpos]
      exact Prod.ext (toward_dist ..) (toward_dist ..)

variable {start stop}

/-- Only the last point is the end. -/
theorem linePoint_eq_stop (h : k ≤ max (width start stop) (height start stop)) :
    linePoint start stop k = stop ↔ k = max (width start stop) (height start stop) := by
  refine ⟨fun heq => ?_, fun heq => heq ▸ linePoint_last ..⟩
  unfold linePoint at heq
  split at heq <;> rename_i hlt
  · rw [Nat.max_eq_left hlt.le] at h ⊢
    exact (toward_eq_stop h).mp (congrArg Prod.fst heq)
  · rw [Nat.max_eq_right (Nat.le_of_not_lt hlt)] at h ⊢
    exact (toward_eq_stop h).mp (congrArg Prod.snd heq)

/-- Where the two ends are, the line is. -/
theorem linePoint_lt (hstart : start.1 < m ∧ start.2 < n) (hstop : stop.1 < m ∧ stop.2 < n)
    (h : k ≤ max (width start stop) (height start stop)) :
    (linePoint start stop k).1 < m ∧ (linePoint start stop k).2 < n := by
  unfold linePoint
  split <;> rename_i hlt
  · rw [Nat.max_eq_left hlt.le] at h
    exact ⟨toward_lt hstart.1 hstop.1 h, toward_lt hstart.2 hstop.2 (across_le h)⟩
  · rw [Nat.max_eq_right (Nat.le_of_not_lt hlt)] at h
    exact ⟨toward_lt hstart.1 hstop.1 (across_le h), toward_lt hstart.2 hstop.2 h⟩

/-- A level line has every point between its ends. -/
theorem line_level (x x' y : Nat) :
    line (x, y) (x', y) = {p | p.2 = y ∧ min x x' ≤ p.1 ∧ p.1 ≤ max x x'} := by
  have hheight : height (x, y) (x', y) = 0 := Nat.dist_self y
  have hpoint (k : Nat) (hk : k ≤ Nat.dist x x') :
      linePoint (x, y) (x', y) k = (toward x x' k, y) := by
    unfold linePoint
    split <;> rename_i hlt
    · simp [hheight]
    · have hzero : Nat.dist x x' = 0 := by
        rw [hheight] at hlt
        exact Nat.le_zero.mp (Nat.le_of_not_lt hlt)
      have hk : k = 0 := Nat.le_zero.mp (hzero ▸ hk)
      rw [hheight, hk]
      simp
  ext p
  rw [line, hheight, Nat.max_zero, Set.mem_ofPred_eq, ← exists_toward]
  constructor
  · rintro ⟨k, -, hk, rfl⟩
    rw [hpoint k hk]
    exact ⟨rfl, k, hk, rfl⟩
  · rintro ⟨rfl, k, hk, hx⟩
    exact ⟨k, Nat.zero_le _, hk, by rw [hpoint k hk, ← hx]⟩

theorem line_upright (x y y' : Nat) :
    line (x, y) (x, y') = {p | p.1 = x ∧ min y y' ≤ p.2 ∧ p.2 ≤ max y y'} := by
  have hwidth : width (x, y) (x, y') = 0 := Nat.dist_self x
  have hpoint (k : Nat) : linePoint (x, y) (x, y') k = (x, toward y y' k) := by
    unfold linePoint
    rw [if_neg (by rw [hwidth]; exact Nat.not_lt_zero _), hwidth]
    simp
  ext p
  rw [line, hwidth, Nat.zero_max, Set.mem_ofPred_eq, ← exists_toward]
  constructor
  · rintro ⟨k, -, hk, rfl⟩
    rw [hpoint]
    exact ⟨rfl, k, hk, rfl⟩
  · rintro ⟨rfl, k, hk, hy⟩
    exact ⟨k, Nat.zero_le _, hk, by rw [hpoint, ← hy]⟩

/-- Every point is within half a unit of the line itself, measured across it. -/
theorem line_near (h : p ∈ line start stop) :
    2 * |((p.1 : Int) - start.1) * (stop.2 - start.2) - (p.2 - start.2) * (stop.1 - start.1)| ≤
      max (width start stop) (height start stop) := by
  obtain ⟨k, -, hk, rfl⟩ := h
  have hsign (n : Int) : |sign start.1 stop.1 * sign start.2 stop.2 * n| = |n| := by
    rw [abs_mul, abs_mul, abs_sign, abs_sign, one_mul, one_mul]
  rw [sub_eq_sign_mul start.1 stop.1, sub_eq_sign_mul start.2 stop.2]
  unfold linePoint
  split <;> rename_i hlt
  · rw [Nat.max_eq_left hlt.le] at hk ⊢
    have hnear := across_near (Nat.zero_lt_of_lt hlt) (height start stop) k
    have hacross : across (width start stop) (height start stop) k ≤ height start stop :=
      across_le hk
    rw [toward_sub hk, toward_sub hacross]
    rw [abs_sub_comm, ← hsign] at hnear
    refine le_of_eq_of_le ?_ hnear
    unfold width height
    congr 2
    ring
  · have hle := Nat.le_of_not_lt hlt
    rw [Nat.max_eq_right hle] at hk ⊢
    rcases Nat.eq_zero_or_pos (height start stop) with hzero | hpos
    · have hk : k = 0 := Nat.le_zero.mp (hzero ▸ hk)
      have hwidth : Nat.dist start.1 stop.1 = 0 := Nat.le_zero.mp (hzero ▸ hle)
      have hheight : Nat.dist start.2 stop.2 = 0 := hzero
      simp [hwidth, hheight]
    have hnear := across_near hpos (width start stop) k
    have hacross : across (height start stop) (width start stop) k ≤ width start stop :=
      across_le hk
    rw [toward_sub hk, toward_sub hacross]
    rw [← hsign] at hnear
    refine le_of_eq_of_le ?_ hnear
    unfold width height
    congr 2
    ring

/-- Two points of which neither coordinate is more than one apart. -/
def Adjacent (p q : Nat × Nat) : Prop := Nat.dist p.1 q.1 ≤ 1 ∧ Nat.dist p.2 q.2 ≤ 1

theorem toward_next (start stop k : Nat) :
    Nat.dist (toward start stop k) (toward start stop (k + 1)) ≤ 1 := by
  unfold toward Nat.dist
  split <;> omega

theorem toward_across (h : short ≤ long) (start stop k : Nat) :
    Nat.dist (toward start stop (across long short k))
      (toward start stop (across long short (k + 1))) ≤ 1 := by
  rcases across_succ h k with heq | heq
  · rw [heq, Nat.dist_self]
    exact Nat.zero_le 1
  · rw [heq]
    exact toward_next ..

/-- A line has no gaps. -/
theorem linePoint_adjacent (start stop : Nat × Nat) (k : Nat) :
    Adjacent (linePoint start stop k) (linePoint start stop (k + 1)) := by
  unfold linePoint
  split <;> rename_i hlt
  · exact ⟨toward_next .., toward_across hlt.le ..⟩
  · exact ⟨toward_across (Nat.le_of_not_lt hlt) .., toward_next ..⟩

/-- A line leads from its start to its stop point by point. -/
theorem line_path (start stop : Nat × Nat) :
    ∃ (n : Nat) (point : Nat → Nat × Nat), point 0 = start ∧ point n = stop ∧
      (∀ k, Adjacent (point k) (point (k + 1))) ∧
      line start stop = {p | ∃ k ≤ n, p = point k} := by
  refine ⟨_, linePoint start stop, linePoint_zero .., linePoint_last ..,
    linePoint_adjacent start stop, ?_⟩
  simp [line, points]

end Raster
