import Mathlib.Logic.Function.Iterate
import Mathlib.Data.List.Basic

/-!
# Shift registers with feedback

A register shifts towards its low end, and a one that falls out comes back
through the polynomial. Run over the bits of a message it is a cyclic
redundancy check; this file has the step, what a run of up to a register's
width of bits does to it, the bursts such a check detects and the step by a
whole byte from a table. Width and polynomial are any.
-/

namespace ShiftRegister

variable {w : Nat} (poly : BitVec w)

def shift (x : BitVec w) : BitVec w := if x.getLsbD 0 then (x >>> 1) ^^^ poly else x >>> 1

/-- The next bit of the message meets the one about to fall out. -/
def feed (x : BitVec w) (bit : Bool) : BitVec w := shift poly (x ^^^ (BitVec.ofBool bit).setWidth w)

/-- All bits of a byte meet the register before it shifts eight times. -/
def feedByte (x : BitVec w) (byte : BitVec 8) : BitVec w :=
  (shift poly)^[8] (x ^^^ byte.setWidth w)

variable {poly}

-- ---------------------------------------------------------------------------
-- One shift
-- ---------------------------------------------------------------------------

theorem shift_xor : shift poly (x ^^^ y) = shift poly x ^^^ shift poly y := by
  unfold shift
  rw [BitVec.getLsbD_xor, BitVec.ushiftRight_xor_distrib]
  cases hx : x.getLsbD 0 <;> cases hy : y.getLsbD 0
  · simp
  · simp [BitVec.xor_assoc]
  · simp only [Bool.xor_false, if_true, Bool.false_eq_true, if_false]
    ac_rfl
  · -- the polynomial is fed back twice
    have hcancel : (x >>> 1 ^^^ poly) ^^^ (y >>> 1 ^^^ poly)
        = x >>> 1 ^^^ y >>> 1 ^^^ (poly ^^^ poly) := by ac_rfl
    simp [hcancel]

theorem shift_of_low_clear (h : x.getLsbD 0 = false) : shift poly x = x >>> 1 := by
  simp [shift, h]

/-- Bits that stay inside the register only move. -/
theorem iterate_shift_of_low_clear (h : ∀ i < n, x.getLsbD i = false) :
    (shift poly)^[n] x = x >>> n := by
  induction n generalizing x with
  | zero => simp
  | succ n ih =>
    have hrest : ∀ i < n, (x >>> 1).getLsbD i = false := by
      intro i hi
      have hnext := h (1 + i) (by omega)
      simpa using hnext
    rw [Function.iterate_succ_apply, shift_of_low_clear (h 0 (by omega)), ih hrest,
      ← BitVec.shiftRight_add, Nat.add_comm]

theorem iterate_shift_xor :
    (shift poly)^[n] (x ^^^ y) = (shift poly)^[n] x ^^^ (shift poly)^[n] y := by
  induction n generalizing x y with
  | zero => rfl
  | succ n ih => simp only [Function.iterate_succ_apply, shift_xor, ih]

/-- A polynomial with its top bit set marks the registers a one fell out of. -/
theorem msb_shift (hpoly : poly.msb = true) : (shift poly x).msb = x.getLsbD 0 := by
  have hclear : (x >>> 1).msb = false := by simp [BitVec.msb_ushiftRight]
  cases h : x.getLsbD 0
  · simp [shift, h, hclear]
  · simp [shift, h, hclear, hpoly]

theorem shift_injective (hpoly : poly.msb = true) : Function.Injective (shift poly) := by
  intro x y h
  have hlow : x.getLsbD 0 = y.getLsbD 0 := by
    rw [← msb_shift hpoly, h, msb_shift hpoly]
  have hhigh : x >>> 1 = y >>> 1 := by
    unfold shift at h
    rw [hlow] at h
    split at h
    · exact (BitVec.xor_left_inj poly).mp h
    · exact h
  apply BitVec.eq_of_getLsbD_eq
  intro i _
  cases i with
  | zero => exact hlow
  | succ i =>
    have hi := congrArg (·.getLsbD i) hhigh
    simpa [Nat.add_comm 1 i] using hi

-- ---------------------------------------------------------------------------
-- Up to a register's width of bits
-- ---------------------------------------------------------------------------

/-- The bits as one word, the first of them lowest. -/
def pack : List Bool → BitVec w
  | [] => 0
  | bit :: rest => (BitVec.ofBool bit).setWidth w ^^^ (pack rest <<< 1)

theorem getLsbD_pack :
    (pack bits : BitVec w).getLsbD i = (decide (i < w) && bits.getD i false) := by
  induction bits generalizing i with
  | nil => simp [pack]
  | cons bit rest ih =>
    cases i with
    | zero => cases bit <;> simp [pack]
    | succ i =>
      by_cases hi : i + 1 < w
      · have hlt : i < w := by omega
        have hrest := ih (i := i)
        simp only [hlt, decide_true, Bool.true_and] at hrest
        simp only [pack, BitVec.getLsbD_xor, BitVec.getLsbD_shiftLeft]
        simpa [hi, hlt] using hrest
      · simp [hi, BitVec.getLsbD_of_ge _ _ (Nat.not_lt.mp hi)]

theorem pack_inj (hlen : first.length = second.length) (hw : first.length ≤ w)
    (h : (pack first : BitVec w) = pack second) : first = second := by
  refine List.ext_getElem hlen fun i hi hi' => ?_
  have hbit : (pack first : BitVec w).getLsbD i = (pack second : BitVec w).getLsbD i := by
    rw [h]
  have hiw : i < w := by omega
  rw [getLsbD_pack, getLsbD_pack] at hbit
  simpa [hiw, hi, hi'] using hbit

theorem pack_shiftLeft_shiftRight (h : bits.length < w) :
    (pack bits <<< 1) >>> 1 = (pack bits : BitVec w) := by
  apply BitVec.eq_of_getLsbD_eq
  intro i hi
  simp only [BitVec.getLsbD_ushiftRight, BitVec.getLsbD_shiftLeft, getLsbD_pack]
  by_cases hin : i < bits.length
  · have hw : 1 + i < w := by omega
    simp [hi, hw]
  · simp [Nat.not_lt.mp hin]

/-- Bits fed one by one are the bits fed at once, if the register holds them. -/
theorem foldl_feed (h : bits.length ≤ w) :
    bits.foldl (feed poly) x = (shift poly)^[bits.length] (x ^^^ pack bits) := by
  induction bits generalizing x with
  | nil => simp [pack]
  | cons bit rest ih =>
    have hrest : rest.length < w := h
    have hlow : (pack rest <<< 1 : BitVec w).getLsbD 0 = false := by simp
    have hstep : shift poly (x ^^^ pack (bit :: rest)) = feed poly x bit ^^^ pack rest := by
      rw [pack, ← BitVec.xor_assoc, shift_xor, shift_of_low_clear hlow,
        pack_shiftLeft_shiftRight hrest]
      rfl
    rw [List.foldl_cons, ih (Nat.le_of_lt hrest), List.length_cons, Function.iterate_succ_apply,
      hstep]

theorem foldl_feed_injective (hpoly : poly.msb = true) (bits : List Bool) :
    Function.Injective fun x => bits.foldl (feed poly) x := by
  induction bits with
  | nil => exact fun _ _ h => h
  | cons bit rest ih =>
    intro x y h
    exact (BitVec.xor_left_inj _).mp (shift_injective hpoly (ih h))

-- ---------------------------------------------------------------------------
-- Bytes
-- ---------------------------------------------------------------------------

/-- The bits of a message: bytes in order, the low bit of each first. -/
def bits (data : List (BitVec 8)) : List Bool :=
  data.flatMap fun byte => (List.range 8).map byte.getLsbD

theorem pack_byte (byte : BitVec 8) : pack ((List.range 8).map byte.getLsbD) = byte.setWidth w := by
  apply BitVec.eq_of_getLsbD_eq
  intro i hi
  rw [getLsbD_pack, BitVec.getLsbD_setWidth]
  by_cases h : i < 8
  · simp [hi, h]
  · simp [h, BitVec.getLsbD_of_ge byte i (Nat.not_lt.mp h)]

theorem feedByte_eq_foldl (hw : 8 ≤ w) (x : BitVec w) (byte : BitVec 8) :
    feedByte poly x byte = ((List.range 8).map byte.getLsbD).foldl (feed poly) x := by
  rw [foldl_feed (by simpa using hw), pack_byte]
  rfl

/-- A check by bytes is the check bit by bit. -/
theorem foldl_feedByte (hw : 8 ≤ w) (x : BitVec w) (data : List (BitVec 8)) :
    data.foldl (feedByte poly) x = (bits data).foldl (feed poly) x := by
  induction data generalizing x with
  | nil => rfl
  | cons byte rest ih =>
    rw [List.foldl_cons, ih, feedByte_eq_foldl hw, ← List.foldl_append]
    rfl

/-- The step from a table: eight shifts of the byte about to fall out. -/
theorem feedByte_eq_table (x : BitVec w) (byte : BitVec 8) :
    feedByte poly x byte =
      (x >>> 8) ^^^ (shift poly)^[8] ((x.setWidth 8 ^^^ byte).setWidth w) := by
  have hsplit : x ^^^ byte.setWidth w =
      ((x >>> 8) <<< 8) ^^^ (x.setWidth 8 ^^^ byte).setWidth w := by
    apply BitVec.eq_of_getLsbD_eq
    intro i hi
    by_cases h : i < 8
    · simp [hi, h]
    · have hback : 8 + (i - 8) = i := by omega
      simp [hi, h, hback]
  have hclear : ∀ i < 8, ((x >>> 8) <<< 8).getLsbD i = false := by
    intro i hi
    simp [hi]
  have hback : ((x >>> 8) <<< 8) >>> 8 = x >>> 8 := by
    apply BitVec.eq_of_getLsbD_eq
    intro i hi
    by_cases h : 8 + i < w
    · simp [h]
    · simp [h, BitVec.getLsbD_of_ge x (8 + i) (by omega)]
  rw [feedByte, hsplit, iterate_shift_xor, iterate_shift_of_low_clear hclear, hback]

-- ---------------------------------------------------------------------------
-- Bursts
-- ---------------------------------------------------------------------------

/-- All places where two messages differ are among `n` consecutive ones. -/
def Burst {α : Type*} (n : Nat) (first second : List α) : Prop :=
  ∃ start, ∀ i, first[i]? ≠ second[i]? → start ≤ i ∧ i < start + n

theorem Burst.split {α : Type*} {first second : List α} (h : Burst n first second)
    (hlen : first.length = second.length) :
    ∃ before u v after, first = before ++ u ++ after ∧ second = before ++ v ++ after ∧
      u.length = v.length ∧ u.length ≤ n := by
  obtain ⟨start, hall⟩ := h
  have hbefore : first.take start = second.take start := by
    apply List.ext_getElem?
    intro i
    rw [List.getElem?_take, List.getElem?_take]
    split
    · rename_i hi
      by_contra hne
      have hle := (hall i hne).1
      omega
    · rfl
  have hafter : first.drop (start + n) = second.drop (start + n) := by
    apply List.ext_getElem?
    intro i
    rw [List.getElem?_drop, List.getElem?_drop]
    by_contra hne
    have hlt := (hall _ hne).2
    omega
  refine ⟨first.take start, (first.drop start).take n, (second.drop start).take n,
    first.drop (start + n), ?_, ?_, ?_, ?_⟩
  · rw [List.append_assoc, ← List.drop_drop, List.take_append_drop, List.take_append_drop]
  · rw [hbefore, hafter, List.append_assoc, ← List.drop_drop, List.take_append_drop,
      List.take_append_drop]
  · simp [hlen]
  · exact List.length_take_le _ _

/-- A difference inside a segment is a burst as long as the segment. -/
theorem burst_of_segment {α : Type*} (before after : List α) {u v : List α}
    (hlen : u.length = v.length) (hn : u.length ≤ n) :
    Burst n (before ++ u ++ after) (before ++ v ++ after) := by
  refine ⟨before.length, fun i hi => ?_⟩
  by_contra hout
  apply hi
  rcases Nat.lt_or_ge i before.length with hbefore | hafter
  · rw [List.append_assoc, List.append_assoc, List.getElem?_append_left hbefore,
      List.getElem?_append_left hbefore]
  · have hpast : (before ++ u).length ≤ i := by
      rw [List.length_append]
      omega
    have hpast' : (before ++ v).length ≤ i := by
      rw [List.length_append]
      omega
    rw [List.getElem?_append_right hpast, List.getElem?_append_right hpast', List.length_append,
      List.length_append, hlen]

/-- A burst no longer than the register never goes unnoticed. -/
theorem foldl_feed_ne_of_burst (hpoly : poly.msb = true) (hlen : first.length = second.length)
    (hne : first ≠ second) (h : Burst w first second) (x : BitVec w) :
    first.foldl (feed poly) x ≠ second.foldl (feed poly) x := by
  obtain ⟨before, u, v, after, rfl, rfl, huv, hw⟩ := h.split hlen
  simp only [List.foldl_append]
  intro heq
  -- the common rest of the messages is a one-to-one map of the register, and so
  -- are the shifts of the burst
  have hburst := foldl_feed_injective hpoly after heq
  have hw' : v.length ≤ w := huv ▸ hw
  rw [foldl_feed hw, foldl_feed hw', huv] at hburst
  have hpack := (BitVec.xor_right_inj _).mp ((shift_injective hpoly).iterate _ hburst)
  rw [pack_inj huv hw hpack] at hne
  exact hne rfl

theorem bits_append : bits (first ++ second) = bits first ++ bits second := List.flatMap_append

theorem length_bits : (bits data).length = 8 * data.length := by
  induction data with
  | nil => rfl
  | cons byte rest ih =>
    rw [bits, List.flatMap_cons, List.length_append, ← bits, ih]
    simp
    omega

theorem bits_injective (h : bits first = bits second) : first = second := by
  induction first generalizing second with
  | nil =>
    cases second with
    | nil => rfl
    | cons byte rest => simp [bits] at h
  | cons byte rest ih =>
    cases second with
    | nil => simp [bits] at h
    | cons byte' rest' =>
      rw [bits, bits, List.flatMap_cons, List.flatMap_cons] at h
      obtain ⟨hbyte, hrest⟩ := List.append_inj h (by simp)
      have hpack : (pack _ : BitVec 8) = pack _ := congrArg pack hbyte
      rw [pack_byte, pack_byte, BitVec.setWidth_eq, BitVec.setWidth_eq] at hpack
      rw [hpack, ih hrest]

theorem foldl_feedByte_ne_of_burst (hw : 8 ≤ w) (hpoly : poly.msb = true)
    {first second : List (BitVec 8)} (hlen : first.length = second.length)
    (hne : first ≠ second) (h : Burst w (bits first) (bits second)) (x : BitVec w) :
    first.foldl (feedByte poly) x ≠ second.foldl (feedByte poly) x := by
  rw [foldl_feedByte hw, foldl_feedByte hw]
  have hbits : (bits first).length = (bits second).length := by rw [length_bits, length_bits, hlen]
  exact foldl_feed_ne_of_burst hpoly hbits (fun heq => hne (bits_injective heq)) h x

end ShiftRegister
