import Hvac.FrameScope
import Hvac.RegisterFile

/-!
# The time broadcast

The time comes in two halves. The low half is or-ed to what is there and only the
high half clears it, so a second low half mixes with the first; and the high half
is shifted as an `int`, so from 2038 on the time is negative.
-/

namespace Hvac

def regNowTime : U16 := 0x0009
def regNowTime1 : U16 := 0x000A

def broadcastTime (high low : U16) : Nat := high.toNat * 0x10000 + low.toNat

theorem decode_nowTime_iff : Register.decode reg = .nowTime ↔ reg = regNowTime := by
  unfold Register.decode
  constructor
  · intro h
    split at h
    case h_2 heq => exact BitVec.eq_of_toNat_eq heq
    all_goals cases h
  · rintro rfl
    rfl

def lowHalf (w : U16 × U16) : U16 := if w.1 = regNowTime1 then w.2 else 0

def lowHalves : List (U16 × U16) → U16
  | [] => 0
  | w :: rest => lowHalf w ||| lowHalves rest

theorem writeRegister_timeCorrect (h : w.1 ≠ regNowTime) (m : Module) :
    (writeRegister w.1 w.2 m).timeCorrect = m.timeCorrect ||| (lowHalf w).setWidth 64 := by
  unfold writeRegister modbusCommand
  cases hr : Register.decode w.1 with
  | nowTime => exact absurd (decode_nowTime_iff.mp hr) h
  | nowTime1 => simp [lowHalf, decode_nowTime1_iff.mp hr, regNowTime1, writeNowTime1]
  | _ =>
    have hlow : w.1 ≠ regNowTime1 := by
      intro hlow
      rw [decode_nowTime1_iff.mpr hlow] at hr
      cases hr
    simp [lowHalf, hlow]

theorem writeRegisters_timeCorrect (h : ∀ w ∈ writes, w.1 ≠ regNowTime) (m : Module) :
    (writeRegisters writes m).timeCorrect = m.timeCorrect ||| (lowHalves writes).setWidth 64 := by
  induction writes generalizing m with
  | nil => simp [lowHalves]
  | cons w rest ih =>
    obtain ⟨hw, hrest⟩ := List.forall_mem_cons.mp h
    rw [writeRegisters, List.foldl_cons, ih hrest, writeRegister_timeCorrect hw]
    simp [lowHalves, BitVec.or_assoc, BitVec.setWidth_or]

def broadcastWord (high low : U16) : U32 := high.setWidth 32 <<< 16 ||| low.setWidth 32

theorem toNat_broadcastWord (high low : U16) :
    (broadcastWord high low).toNat = broadcastTime high low := by
  have hhigh := high.isLt
  have hlow := low.isLt
  have hshift : (high.setWidth 32 <<< 16).toNat = high.toNat <<< 16 := by
    simp only [BitVec.toNat_shiftLeft, BitVec.toNat_setWidth, Nat.shiftLeft_eq]
    omega
  have hwidth : (low.setWidth 32).toNat = low.toNat := by
    simp only [BitVec.toNat_setWidth]
    omega
  rw [broadcastWord, BitVec.toNat_or, hshift, hwidth, ← Nat.shiftLeft_add_eq_or_of_lt hlow,
    Nat.shiftLeft_eq, broadcastTime]

/-- The first half with the second or-ed to it is this word, widened as a signed
one. -/
theorem signExtend_broadcastWord (high low : U16) :
    (high.setWidth 32 <<< 16).signExtend 64 ||| low.setWidth 64 =
      (broadcastWord high low).signExtend 64 := by
  ext i hi
  have hsign : (low.setWidth 32).msb = false := by simp [BitVec.msb_eq_getLsbD_last]
  by_cases hin : i < 32
  · simp [broadcastWord, BitVec.getElem_signExtend, hin]
  · have hlow : low.getLsbD i = false := BitVec.getLsbD_of_ge low i (by omega)
    simp [broadcastWord, BitVec.getElem_signExtend, hin, hsign, hlow]

/-- Up to 2038 that is the time, and never after. -/
theorem toInt_signExtend_broadcastWord (high low low' : U16) :
    ((broadcastWord high low).signExtend 64).toInt = broadcastTime high low' ↔
      high.toNat < 0x8000 ∧ low = low' := by
  have hlow := low.isLt
  have hlow' := low'.isLt
  rw [BitVec.toInt_signExtend_of_le (by decide), BitVec.toInt_eq_toNat_cond, toNat_broadcastWord,
    ← BitVec.toNat_inj]
  unfold broadcastTime
  split <;> omega

-- ---------------------------------------------------------------------------
-- Any sequence of writes
-- ---------------------------------------------------------------------------

theorem or_or_eq_right (a b c : U16) : (a ||| b) ||| c = c ↔ a ||| c = c ∧ b ||| c = c := by
  constructor
  · intro h
    refine ⟨?_, ?_⟩
    · rw [← h, BitVec.or_assoc, ← BitVec.or_assoc, BitVec.or_self]
    · rw [← h, BitVec.or_comm a b, BitVec.or_assoc, ← BitVec.or_assoc, BitVec.or_self]
  · rintro ⟨ha, hb⟩
    rw [BitVec.or_assoc, hb, ha]

theorem lowHalves_or (writes : List (U16 × U16)) (low : U16) :
    lowHalves writes ||| low = low ↔ ∀ w ∈ writes, w.1 = regNowTime1 → w.2 ||| low = low := by
  induction writes with
  | nil => simp [lowHalves]
  | cons w rest ih =>
    rw [lowHalves, or_or_eq_right, ih, List.forall_mem_cons]
    refine and_congr_left fun _ => ?_
    by_cases hw : w.1 = regNowTime1 <;> simp [lowHalf, hw]

theorem writeRegister_nowTime (high : U16) (m : Module) :
    (writeRegister regNowTime high m).timeCorrect = (high.setWidth 32 <<< 16).signExtend 64 := rfl

theorem writeRegister_nowTime1 (low : U16) (m : Module) :
    (writeRegister regNowTime1 low m).sensor.time = m.timeCorrect ||| low.setWidth 64 := rfl

/-- After a high half and, whatever was written between, a low half, the time is
the one they stand for exactly when it is before 2038 and every low half in between
has only bits of the last. -/
theorem time_broadcast_decoded (m : Module) (before between : List (U16 × U16)) (high low : U16)
    (h : ∀ w ∈ between, w.1 ≠ regNowTime) :
    (writeRegisters (before ++ (regNowTime, high) :: between ++ [(regNowTime1, low)]) m).sensor.time.toInt =
        broadcastTime high low ↔
      high.toNat < 0x8000 ∧ ∀ w ∈ between, w.1 = regNowTime1 → w.2 ||| low = low := by
  have hsplit : writeRegisters (before ++ (regNowTime, high) :: between ++ [(regNowTime1, low)]) m =
      writeRegister regNowTime1 low
        (writeRegisters between (writeRegister regNowTime high (writeRegisters before m))) := by
    simp only [writeRegisters, List.foldl_append, List.foldl_cons, List.foldl_nil]
  rw [hsplit, writeRegister_nowTime1, writeRegisters_timeCorrect h, writeRegister_nowTime,
    BitVec.or_assoc, ← BitVec.setWidth_or, signExtend_broadcastWord,
    toInt_signExtend_broadcastWord, lowHalves_or]

theorem time_broadcast_decoded_twice :
    (writeRegisters ([] ++ (regNowTime, 0x6553) :: [(0x0401, 0x8019), (regNowTime1, 0xF000)] ++
      [(regNowTime1, 0xF100)]) blank).sensor.time.toInt = broadcastTime 0x6553 0xF100 :=
  (time_broadcast_decoded blank [] [(0x0401, 0x8019), (regNowTime1, 0xF000)] 0x6553 0xF100
    (by simp [regNowTime, regNowTime1])).mpr ⟨by simp, by simp [regNowTime1]⟩

/-- The low half is sent twice: what is taken is the two or-ed. -/
theorem time_broadcast_decoded_fails :
    ¬∀ (m : Module) (before between : List (U16 × U16)) (high low : U16),
      (∀ w ∈ between, w.1 ≠ regNowTime) →
        (writeRegisters (before ++ (regNowTime, high) :: between ++ [(regNowTime1, low)])
          m).sensor.time.toInt = broadcastTime high low := by
  intro h
  have htwice := h blank [] [(regNowTime1, 0x00FF)] 0x6553 0xF100
    (by simp [regNowTime, regNowTime1])
  exact absurd htwice (by decide +kernel)

end Hvac
