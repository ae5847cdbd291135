import Hvac.Lib.Machine

/-!
# A serial line clocked by its sender

Three pins and a fourth for what kind of word is sent. The receiver shifts in
the level of the data pin whenever the clock rises while it is selected, and has
a word with every so many bits. A word sent from its top bit down arrives.
-/

namespace Spi

inductive Pin
  | select
  | clock
  | data
  | mode
  deriving DecidableEq

structure Write where
  pin : Pin
  high : Bool
  deriving DecidableEq

/-- The levels of the pins, and the bits that have come in since the last word. -/
structure Receiver (w : Nat) where
  select : Bool
  clock : Bool
  data : Bool
  mode : Bool
  shift : BitVec w
  count : Nat
  deriving DecidableEq

variable {w : Nat}

/-- The clock rises while the receiver is selected. -/
def Receiver.Samples (r : Receiver w) (e : Write) : Prop :=
  e = ⟨.clock, true⟩ ∧ r.clock = false ∧ r.select = false

instance (r : Receiver w) (e : Write) : Decidable (r.Samples e) :=
  inferInstanceAs (Decidable (_ ∧ _ ∧ _))

def Receiver.sample (r : Receiver w) : Receiver w :=
  { r with shift := r.shift.shiftConcat r.data, count := (r.count + 1) % w }

def Receiver.drive (r : Receiver w) (e : Write) : Receiver w :=
  match e.pin with
  | .select => { r with select := e.high, count := if e.high then 0 else r.count }
  | .clock => { r with clock := e.high }
  | .data => { r with data := e.high }
  | .mode => { r with mode := e.high }

def step (e : Write) (r : Receiver w) : Receiver w :=
  (if r.Samples e then r.sample else r).drive e

/-- A word with the level of the mode pin, when its last bit comes in. -/
def received (e : Write) (r : Receiver w) : Option (Bool × BitVec w) :=
  if r.Samples e ∧ r.count + 1 = w then some (r.mode, r.shift.shiftConcat r.data) else none

/-- So many bits of a word from the top, each set while the clock is low. -/
def shiftOut : Nat → BitVec w → List Write
  | 0, _ => []
  | n + 1, word =>
    ⟨.clock, false⟩ :: ⟨.data, word.msb⟩ :: ⟨.clock, true⟩ :: shiftOut n (word <<< 1)

/-- What is in a register after so many bits of a word from the top. -/
def shiftIn : Nat → BitVec w → BitVec w → BitVec w
  | 0, _, shift => shift
  | n + 1, word, shift => shiftIn n (word <<< 1) (shift.shiftConcat word.msb)

theorem getLsbD_shiftIn (hn : n ≤ w) (word shift : BitVec w) (hi : i < w) :
    (shiftIn n word shift).getLsbD i =
      if i < n then word.getLsbD (w - n + i) else shift.getLsbD (i - n) := by
  induction n generalizing word shift with
  | zero => simp [shiftIn]
  | succ n ih =>
    rw [shiftIn, ih (Nat.le_of_succ_le hn)]
    by_cases hlt : i < n
    · have hbit : w - n + i - 1 = w - (n + 1) + i := by omega
      have hpos : ¬w - n + i < 1 := by omega
      have hbound : w - n + i < w := by omega
      rw [if_pos hlt, if_pos (Nat.lt_succ_of_lt hlt), BitVec.getLsbD_shiftLeft, hbit]
      simp [hpos, hbound]
    · rw [if_neg hlt, BitVec.getLsbD_shiftConcat]
      rcases Nat.eq_or_lt_of_le (Nat.le_of_not_lt hlt) with rfl | hgt
      · have hbit : w - (n + 1) + n = w - 1 := by omega
        simp [hbit, BitVec.msb_eq_getLsbD_last, Nat.zero_lt_of_lt hi]
      · have hsub : i - n - 1 = i - (n + 1) := by omega
        have hne : i - n ≠ 0 := by omega
        have hnlt : ¬i < n + 1 := by omega
        have hbound : i - n < w := by omega
        simp [hne, hnlt, hbound, hsub]

/-- All the bits of a word push out what was there. -/
theorem shiftIn_all (word shift : BitVec w) : shiftIn w word shift = word := by
  refine BitVec.eq_of_getLsbD_eq fun i hi => ?_
  rw [getLsbD_shiftIn (Nat.le_refl w) word shift hi, if_pos hi, Nat.sub_self, Nat.zero_add]

-- ---------------------------------------------------------------------------
-- Words
-- ---------------------------------------------------------------------------

/-- A word in one selection of the receiver. -/
def transmit (word : BitVec w) : List Write :=
  ⟨.select, false⟩ :: (shiftOut w word ++ [⟨.select, true⟩])

/-- The three writes of a bit put it in the register. -/
theorem run_bit (r : Receiver w) (bit : Bool) (h : r.select = false) :
    Machine.run step [⟨.clock, false⟩, ⟨.data, bit⟩, ⟨.clock, true⟩] r =
      { r with
        clock := true
        data := bit
        shift := r.shift.shiftConcat bit
        count := (r.count + 1) % w } := by
  simp [step, Receiver.Samples, Receiver.drive, Receiver.sample, h]

theorem trace_bit (r : Receiver w) (bit : Bool) (h : r.select = false) :
    Machine.trace step received [⟨.clock, false⟩, ⟨.data, bit⟩, ⟨.clock, true⟩] r =
      if r.count + 1 = w then [(r.mode, r.shift.shiftConcat bit)] else [] := by
  by_cases hlast : r.count + 1 = w <;>
    simp [step, received, Receiver.Samples, Receiver.drive, h, hlast]

theorem shiftOut_succ (n : Nat) (word : BitVec w) :
    shiftOut (n + 1) word =
      [⟨.clock, false⟩, ⟨.data, word.msb⟩, ⟨.clock, true⟩] ++ shiftOut n (word <<< 1) := rfl

/-- The bits of a word leave the receiver selected and in its mode. -/
theorem run_shiftOut (r : Receiver w) (h : r.select = false) (n : Nat) (word : BitVec w) :
    (Machine.run step (shiftOut n word) r).select = false ∧
      (Machine.run step (shiftOut n word) r).mode = r.mode := by
  induction n generalizing r word with
  | zero => exact ⟨h, rfl⟩
  | succ n ih =>
    rw [shiftOut_succ, Machine.run_append, run_bit r _ h]
    exact ih _ (by exact h) (word <<< 1)

/-- The last bits that are missing make a word, and nothing before them does. -/
theorem trace_shiftOut (r : Receiver w) (h : r.select = false) (word : BitVec w)
    (hcount : r.count + (n + 1) = w) :
    Machine.trace step received (shiftOut (n + 1) word) r =
      [(r.mode, shiftIn (n + 1) word r.shift)] := by
  induction n generalizing r word with
  | zero =>
    rw [shiftOut_succ, Machine.trace_append, trace_bit r _ h, if_pos (by omega)]
    rfl
  | succ n ih =>
    have hnext : (r.count + 1) % w + (n + 1) = w := by
      rw [Nat.mod_eq_of_lt (by omega)]
      omega
    rw [shiftOut_succ, Machine.trace_append, trace_bit r _ h, if_neg (by omega), run_bit r _ h,
      List.nil_append]
    exact ih _ (by exact h) (word <<< 1) hnext

/-- Between words: not selected, with no bits come in. -/
structure Receiver.Idle (r : Receiver w) : Prop where
  select : r.select = true
  count : r.count = 0

/-- A transmitted word is received, once and as it was, and the receiver is idle again. -/
theorem transmit_received (r : Receiver w) (h : r.Idle) (hw : 0 < w) (word : BitVec w) :
    Machine.trace step received (transmit word) r = [(r.mode, word)] ∧
      (Machine.run step (transmit word) r).Idle ∧
      (Machine.run step (transmit word) r).mode = r.mode := by
  obtain ⟨n, rfl⟩ : ∃ n, w = n + 1 := ⟨w - 1, by omega⟩
  have hselected : step ⟨.select, false⟩ r = { r with select := false } := by
    simp [step, Receiver.Samples, Receiver.drive]
  have hnone : received ⟨.select, false⟩ r = none := by simp [received, Receiver.Samples]
  have hword := trace_shiftOut { r with select := false } rfl word (n := n)
    (by rw [h.count, Nat.zero_add])
  obtain ⟨hselect, hmode⟩ := run_shiftOut { r with select := false } rfl (n + 1) word
  have hlast (r' : Receiver (n + 1)) : received ⟨.select, true⟩ r' = none := by
    simp [received, Receiver.Samples]
  have hdeselected (r' : Receiver (n + 1)) :
      step ⟨.select, true⟩ r' = { r' with select := true, count := 0 } := by
    simp [step, Receiver.Samples, Receiver.drive]
  rw [transmit, Machine.trace_cons, Machine.run_cons, Machine.trace_append, Machine.run_append,
    hselected, hnone, hword, shiftIn_all]
  simp only [Machine.trace_cons, Machine.trace_nil, Machine.run_cons, Machine.run_nil, hlast,
    hdeselected, hmode]
  exact ⟨rfl, ⟨rfl, rfl⟩, trivial⟩

end Spi
