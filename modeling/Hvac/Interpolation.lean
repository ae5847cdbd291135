import Hvac.Ntc
import Hvac.Lib.Lookup
import Mathlib.Algebra.Group.Nat.Defs

/-!
# The search of the resistance table

`Res2Temp` halves its way through a table of 257 entries of which 121 are
filled. For every resistance the table covers it stops where a scan would, and
the tenth of a degree it returns falls with the resistance.
-/

namespace Hvac

open Lookup (Bracket)

def ntcTable (i : Nat) : Nat := (ntcRtable i).toNat

theorem ntcTable_past (h : 121 ≤ i) : ntcTable i = 0 := by
  rw [ntcTable, ntcRtable, List.getD_eq_getElem?_getD, List.getElem?_eq_none h]
  rfl

theorem ntcTable_descends : ∀ i < 121, ntcTable (i + 1) < ntcTable i := by decide +kernel

theorem ntcTable_antitone : Antitone ntcTable := by
  refine antitone_nat_of_succ_le fun i => ?_
  rcases Nat.lt_or_ge i 121 with h | h
  · exact Nat.le_of_lt (ntcTable_descends i h)
  · rw [ntcTable_past (Nat.le_succ_of_le h)]
    exact Nat.zero_le _

/-- A covered resistance belongs to one of the filled entries. -/
theorem exists_entry (hpos : 0 < res) (hmax : res ≤ 203750) : ∃ i < 121, Bracket ntcTable res i :=
  Lookup.exists_bracket hmax (by rwa [ntcTable_past (Nat.le_refl 121)])

-- ---------------------------------------------------------------------------
-- The search
-- ---------------------------------------------------------------------------

/-- What remains of the search when `turns` are left: the entry is less than
the last step away, and the next steps keep to whole multiples. -/
structure Near (turns i k : Nat) : Prop where
  above : i < k + 2 ^ turns
  below : k < i + 2 ^ turns
  multiple : 2 ^ turns ∣ i

theorem step_toNat (h : turns ≤ 7) : ((128 >>> (7 - turns) : Nat) : U8).toNat = 2 ^ turns := by
  have hpow : 128 = 2 ^ turns * 2 ^ (7 - turns) := by
    rw [← Nat.pow_add, Nat.add_sub_cancel' h]
  have hstep : 128 >>> (7 - turns) = 2 ^ turns := by
    rw [Nat.shiftRight_eq_div_pow]
    exact Nat.div_eq_of_eq_mul_left (Nat.two_pow_pos _) hpow
  have hle : 2 ^ turns ≤ 2 ^ 7 := Nat.pow_le_pow_right (by decide) h
  rw [hstep, BitVec.natCast_eq_ofNat, BitVec.toNat_ofNat, Nat.mod_eq_of_lt (by omega)]

theorem Near.down (h : Near (turns + 1) i k) (hlt : k < i) :
    2 ^ turns ≤ i ∧ Near turns (i - 2 ^ turns) k := by
  obtain ⟨above, below, multiple⟩ := h
  rw [Nat.pow_succ] at above below multiple
  have hle := Nat.le_of_dvd (Nat.zero_lt_of_lt hlt) multiple
  refine ⟨by omega, by omega, by omega, ?_⟩
  exact Nat.dvd_sub (Nat.dvd_trans (Nat.dvd_mul_right _ _) multiple) (Nat.dvd_refl _)

theorem Near.up (h : Near (turns + 1) i k) (hlt : i < k) : Near turns (i + 2 ^ turns) k := by
  obtain ⟨above, below, multiple⟩ := h
  rw [Nat.pow_succ] at above below multiple
  refine ⟨by omega, by omega, ?_⟩
  exact Nat.dvd_add (Nat.dvd_trans (Nat.dvd_mul_right _ _) multiple) (Nat.dvd_refl _)

theorem res2TempSearch_near {res : U32} {i : U8} (hb : Bracket ntcTable res.toNat k)
    (hk : k < 128) (ht : turns ≤ 7) (h : Near turns i.toNat k) :
    (res2TempSearch res i turns).toNat = k := by
  have hentry (j : Nat) : ntcRtable j ≥ res ↔ j ≤ k := hb.le_iff ntcTable_antitone
  have hnext (j : Nat) : ntcRtable j < res ↔ k < j := by
    rw [← BitVec.not_le, ← Nat.not_le]
    exact not_congr (hentry j)
  induction turns generalizing i with
  | zero =>
    obtain ⟨above, below, -⟩ := h
    show i.toNat = k
    omega
  | succ turns ih =>
    have hstep : ((128 >>> (7 - turns) : Nat) : U8).toNat = 2 ^ turns := step_toNat (by omega)
    unfold res2TempSearch
    simp only [hentry, hnext]
    split
    · omega
    split
    · rename_i hlt
      obtain ⟨hle, hnear⟩ := h.down hlt
      refine ih (by omega) ?_
      rwa [BitVec.toNat_sub_of_le (by rw [BitVec.le_def, hstep]; exact hle), hstep]
    · have hnear := h.up (by omega)
      have hbound := hnear.above
      have hpow : 2 ^ turns ≤ 2 ^ 6 := Nat.pow_le_pow_right (by decide) (by omega)
      refine ih (by omega) ?_
      rwa [BitVec.toNat_add, hstep, Nat.mod_eq_of_lt (by omega)]

/-- The first turn leaves the empty half of the table. -/
theorem res2TempSearch_eq {res : U32} (hb : Bracket ntcTable res.toNat k) (hk : k < 121) :
    (res2TempSearch res 128 8).toNat = k := by
  have hpos : 0 < res.toNat := Nat.zero_lt_of_lt hb.2
  have hempty : ntcRtable 128 < res := hpos
  have hfirst : res2TempSearch res 128 8 = res2TempSearch res 0 7 := by
    have hnot : ¬ntcRtable 128 ≥ res := BitVec.not_le.mpr hempty
    exact (if_neg fun h => hnot h.1).trans (if_pos hempty)
  rw [hfirst]
  have hnear : Near 7 0 k := ⟨by omega, by omega, Nat.dvd_zero _⟩
  exact res2TempSearch_near hb (by omega) (Nat.le_refl 7) hnear

-- ---------------------------------------------------------------------------
-- What the function reads and divides by
-- ---------------------------------------------------------------------------

/-- The indices the turns of the search read at. -/
def res2TempSearchReads (res : U32) (i : U8) : Nat → List Nat
  | 0 => []
  | turns + 1 =>
    let j := 7 - turns
    [i.toNat, i.toNat + 1] ++
      if ntcRtable i.toNat ≥ res ∧ ntcRtable (i.toNat + 1) < res then []
      else if ntcRtable i.toNat < res then res2TempSearchReads res (i - (128 >>> j)) turns
      else res2TempSearchReads res (i + (128 >>> j)) turns

def res2TempReads (res : U32) : List Nat :=
  let i := res2TempSearch res 128 8
  res2TempSearchReads res 128 8 ++ [i.toNat, i.toNat + 1, 0]

def res2TempDivisor (res : U32) : U32 :=
  let i := res2TempSearch res 128 8
  ntcRtable i.toNat - ntcRtable (i.toNat + 1)

theorem res2TempSearchReads_lt {read : Nat} (h : read ∈ res2TempSearchReads res i turns) :
    read < 257 := by
  induction turns generalizing i with
  | zero => simp [res2TempSearchReads] at h
  | succ turns ih =>
    unfold res2TempSearchReads at h
    rcases List.mem_append.mp h with h | h
    · have hi := i.isLt
      simp only [List.mem_cons, List.not_mem_nil, or_false] at h
      omega
    · split at h
      · cases h
      · split at h
        · exact ih h
        · exact ih h

/-- An index of eight bits, and the next, are in the table. -/
theorem res2TempReads_lt {read : Nat} (h : read ∈ res2TempReads res) : read < 257 := by
  rcases List.mem_append.mp h with h | h
  · exact res2TempSearchReads_lt h
  · have hi := (res2TempSearch res 128 8).isLt
    simp only [List.mem_cons, List.not_mem_nil, or_false] at h
    omega

theorem res2TempDivisor_toNat (hb : Bracket ntcTable res.toNat k) (hk : k < 121) :
    (res2TempDivisor res).toNat = ntcTable k - ntcTable (k + 1) := by
  simp only [res2TempDivisor, res2TempSearch_eq hb hk]
  refine BitVec.toNat_sub_of_le ?_
  rw [BitVec.le_def]
  exact Nat.le_of_lt (ntcTable_descends k hk)

theorem res2TempDivisor_ne_zero {res : U32} (hb : Bracket ntcTable res.toNat k) (hk : k < 121) :
    res2TempDivisor res ≠ 0 := by
  intro hzero
  have hdivisor := res2TempDivisor_toNat hb hk
  have hdescends := ntcTable_descends k hk
  have hnat : BitVec.toNat (0 : U32) = 0 := rfl
  rw [hzero] at hdivisor
  omega

-- ---------------------------------------------------------------------------
-- The temperature
-- ---------------------------------------------------------------------------

/-- Tenths of a degree for a resistance at this entry. -/
def tenthsAt (res k : Nat) : Int := ((k : Int) - 40) * 10 + Lookup.part 10 ntcTable res k

/-- What a scan of the table, entry by entry, makes of the resistance. -/
def res2TempScan (res : Nat) : Int :=
  match Lookup.scan ntcTable res 121 with
  | some k => if tenthsAt res k < 800 then tenthsAt res k else valueNull
  | none => valueNull

theorem tenthsAt_eq_position (res k : Nat) :
    tenthsAt res k = Lookup.position 10 ntcTable res k - 400 := by
  unfold tenthsAt Lookup.position
  omega

theorem part_lt_ten (hb : Bracket ntcTable res k) : Lookup.part 10 ntcTable res k < 10 :=
  hb.part_lt (by decide)

theorem toInt_setWidth_ofInt (hlow : -32768 ≤ v) (hhigh : v < 32768) :
    ((BitVec.ofInt 32 v).setWidth 16).toInt = v := by
  rw [BitVec.toInt_setWidth, BitVec.toNat_ofInt]
  simp only [Int.bmod]
  omega

/-- Below the first entry the unsigned arithmetic is that of the numbers. -/
theorem part_toNat {res : U32} (hb : Bracket ntcTable res.toNat k) (hk : k < 121) :
    (ntcRtable k - res) * 10 / (ntcRtable k - ntcRtable (k + 1)) =
      BitVec.ofNat 32 (Lookup.part 10 ntcTable res.toNat k) := by
  have hle : res ≤ ntcRtable k := hb.1
  have hnext : ntcRtable (k + 1) ≤ ntcRtable k := Nat.le_of_lt (ntcTable_descends k hk)
  have hmax : (ntcRtable k).toNat ≤ 203750 := ntcTable_antitone (Nat.zero_le k)
  have hpart := part_lt_ten hb
  have hten : BitVec.toNat (10 : U32) = 10 := rfl
  apply BitVec.eq_of_toNat_eq
  rw [BitVec.toNat_udiv, BitVec.toNat_mul, BitVec.toNat_sub_of_le hle, BitVec.toNat_sub_of_le hnext,
    hten, Nat.mod_eq_of_lt (by omega), BitVec.toNat_ofNat, Nat.mod_eq_of_lt (by omega)]
  rfl

theorem res2Temp_eq_tenths {res : U32} (hb : Bracket ntcTable res.toNat k) (hk : k < 121) :
    res2Temp res = if tenthsAt res.toNat k < 800 then tenthsAt res.toNat k else valueNull := by
  have hmax : ¬res > ntcRtable 0 := by
    refine BitVec.not_lt.mpr ?_
    exact Nat.le_trans hb.1 (ntcTable_antitone (Nat.zero_le k))
  have hpart := part_lt_ten hb
  have htenths : (((BitVec.ofInt 32 (((k : Int) - 40) * 10)) +
      BitVec.ofNat 32 (Lookup.part 10 ntcTable res.toNat k)).setWidth 16).toInt =
        tenthsAt res.toNat k := by
    rw [← BitVec.ofInt_natCast, ← BitVec.ofInt_add]
    exact toInt_setWidth_ofInt (by omega) (by omega)
  unfold res2Temp
  simp only [res2TempSearch_eq hb hk, part_toNat hb hk, htenths, if_neg hmax]
  by_cases h : tenthsAt res.toNat k < 800
  · rw [if_neg (by omega), if_pos h]
  · rw [if_pos (by omega), if_neg h]

theorem res2Temp_eq_scan {res : U32} (hb : Bracket ntcTable res.toNat k) (hk : k < 121) :
    res2Temp res = res2TempScan res.toNat := by
  rw [res2Temp_eq_tenths hb hk, res2TempScan, hb.scan_eq ntcTable_antitone hk]

/-- Above the last filled entry the temperature is in range. -/
theorem tenthsAt_lt (hb : Bracket ntcTable res k) (hk : k < 121) (hres : 1678 < res) :
    tenthsAt res k < 800 := by
  have hlast : k < 120 := by
    by_contra hge
    have hle : ntcTable k ≤ ntcTable 120 := ntcTable_antitone (Nat.le_of_not_lt hge)
    have hentry : ntcTable 120 = 1678 := by decide +kernel
    have hres' := hb.1
    omega
  have hpart := part_lt_ten hb
  unfold tenthsAt
  omega

theorem res2Temp_antitone {res₁ res₂ : U32} (hlow : 1678 < res₁.toNat) (hle : res₁ ≤ res₂)
    (hmax : res₂.toNat ≤ 203750) : res2Temp res₂ ≤ res2Temp res₁ := by
  have hle' : res₁.toNat ≤ res₂.toNat := hle
  have hmax₁ : res₁.toNat ≤ 203750 := Nat.le_trans hle' hmax
  have hlow₂ : 1678 < res₂.toNat := Nat.lt_of_lt_of_le hlow hle'
  obtain ⟨k₁, hk₁, hb₁⟩ := exists_entry (Nat.zero_lt_of_lt hlow) hmax₁
  obtain ⟨k₂, hk₂, hb₂⟩ := exists_entry (Nat.zero_lt_of_lt hlow₂) hmax
  have hposition : Lookup.position 10 ntcTable res₂.toNat k₂ ≤
      Lookup.position 10 ntcTable res₁.toNat k₁ :=
    hb₁.position_antitone (by decide) ntcTable_antitone hb₂ hle'
  rw [res2Temp_eq_tenths hb₁ hk₁, res2Temp_eq_tenths hb₂ hk₂, if_pos (tenthsAt_lt hb₁ hk₁ hlow),
    if_pos (tenthsAt_lt hb₂ hk₂ hlow₂), tenthsAt_eq_position, tenthsAt_eq_position]
  omega

/-- For every resistance the table covers, the search ends at the one entry it
belongs to, having read inside the table, and the result is that of a scan. It
falls with the resistance. -/
theorem res2Temp_correct :
    (∀ res : U32, 0 < res → res.toNat ≤ 203750 → ∃ i ≤ 120, Bracket ntcTable res.toNat i ∧
      (∀ i' ≤ 120, Bracket ntcTable res.toNat i' → i' = i) ∧
      (res2TempSearch res 128 8).toNat = i ∧
      (∀ read ∈ res2TempReads res, read < 257) ∧
      res2TempDivisor res ≠ 0 ∧
      res2Temp res = (if tenthsAt res.toNat i < 800 then tenthsAt res.toNat i else valueNull) ∧
      res2Temp res = res2TempScan res.toNat) ∧
    (∀ res₁ res₂ : U32, 1678 < res₁.toNat → res₁ ≤ res₂ → res₂.toNat ≤ 203750 →
      res2Temp res₂ ≤ res2Temp res₁) := by
  refine ⟨fun res hpos hmax => ?_, fun _ _ hlow hle hmax => res2Temp_antitone hlow hle hmax⟩
  obtain ⟨k, hk, hb⟩ := exists_entry hpos hmax
  refine ⟨k, Nat.le_of_lt_succ hk, hb, fun i _ hb' => hb'.unique ntcTable_antitone hb,
    res2TempSearch_eq hb hk, fun _ => res2TempReads_lt, res2TempDivisor_ne_zero hb hk,
    res2Temp_eq_tenths hb hk, res2Temp_eq_scan hb hk⟩

end Hvac
