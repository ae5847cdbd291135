import Hvac.Persistence
import Hvac.Traffic

/-!
# The control word

A command is kept twice: as the word of `REG_CTRL` in the stored settings and,
decoded, as the action in force. A boot takes the word from flash and starts
the action afresh, so the two agree from the first write after a boot on.
-/

namespace Hvac

def regCtrl : U16 := 0x0401

/-- The word says of the action: enable in bit 15, type in bits 8 to 11, the set
point in whole degrees in the low byte. -/
structure InForce (word : U16) (action : TypeAction) : Prop where
  en : action.en.toNat = word.toNat / 0x8000
  type : action.type.toNat = word.toNat / 0x100 % 0x10
  setPoint : action.setPoint.toInt = (word.toNat % 0x100 : Nat) * 10

theorem decodeCtrl_inForce (ctrl : U16) : InForce ctrl (decodeCtrl ctrl) := by
  have hctrl := ctrl.isLt
  constructor
  · simp only [decodeCtrl, BitVec.toNat_setWidth, BitVec.toNat_ushiftRight,
      Nat.shiftRight_eq_div_pow]
    omega
  · have hmask : BitVec.toNat (0x0F : U8) = 2 ^ 4 - 1 := rfl
    simp only [decodeCtrl, BitVec.toNat_and, hmask, Nat.and_two_pow_sub_one_eq_mod,
      BitVec.toNat_setWidth, BitVec.toNat_ushiftRight, Nat.shiftRight_eq_div_pow]
    omega
  · have hmask : BitVec.toNat (0x00FF : U16) = 2 ^ 8 - 1 := rfl
    have hten : BitVec.toNat (10 : U16) = 10 := rfl
    have hpoint : (decodeCtrl ctrl).setPoint.toNat = ctrl.toNat % 2 ^ 8 * 10 := by
      simp only [decodeCtrl, BitVec.toNat_mul, BitVec.toNat_and, hmask, hten,
        Nat.and_two_pow_sub_one_eq_mod]
      omega
    rw [BitVec.toInt_eq_toNat_of_lt (by omega), hpoint, Int.natCast_mul]
    rfl

/-- A word decodes to one action. -/
theorem inForce_iff {ctrl : U16} : InForce ctrl action ↔ action = decodeCtrl ctrl := by
  constructor
  · intro h
    have hdecoded := decodeCtrl_inForce ctrl
    obtain ⟨en, type, setPoint⟩ := action
    rw [TypeAction.mk.injEq]
    refine ⟨BitVec.eq_of_toNat_eq ?_, BitVec.eq_of_toNat_eq ?_, BitVec.eq_of_toInt_eq ?_⟩
    · exact h.en.trans hdecoded.en.symm
    · exact h.type.trans hdecoded.type.symm
    · exact h.setPoint.trans hdecoded.setPoint.symm
  · rintro rfl
    exact decodeCtrl_inForce ctrl

/-- No word decodes to the action of a boot. -/
theorem initActionInfomation_not_inForce (ctrl : U16) : ¬InForce ctrl initActionInfomation := by
  intro h
  have hpoint : (0 : Int) ≤ initActionInfomation.setPoint.toInt := by
    rw [h.setPoint]
    omega
  exact absurd hpoint (by decide)

theorem writeRegister_ctrl (v : U16) (m : Module) :
    (writeRegister regCtrl v m).info.ctrl = v ∧ (writeRegister regCtrl v m).action = decodeCtrl v :=
  ⟨rfl, rfl⟩

theorem writeRegister_not_ctrl (h : reg ≠ regCtrl) (v : U16) (m : Module) :
    (writeRegister reg v m).info.ctrl = m.info.ctrl ∧
      (writeRegister reg v m).action = m.action := by
  unfold writeRegister modbusCommand
  cases hr : Register.decode reg
  case ctrl => exact absurd (decode_eq_number hr trivial) h
  all_goals simp only [writeNowTime, writeNowTime1, and_self]

theorem action_of_run (flash : List U8) (rtc : Rtc) (uniqueId : Fin 12 → U8)
    (events : List Event) :
    (run events (powerUp flash rtc uniqueId)).action =
      if writtenSinceBoot regCtrl events (powerUp flash rtc uniqueId) then
        decodeCtrl (run events (powerUp flash rtc uniqueId)).info.ctrl
      else initActionInfomation := by
  refine run_writtenSinceBoot
    (R := fun m written => m.action = if written then decodeCtrl m.info.ctrl else initActionInfomation)
    (fun _ _ _ => rfl) (fun m m' written hsame h => ?_) (fun r v m written h => ?_)
    flash rtc uniqueId events
  · rw [hsame.action, hsame.ctrl]
    exact h
  · by_cases hr : r = regCtrl
    · subst hr
      exact (writeRegister_ctrl v m).2
    · obtain ⟨hctrl, haction⟩ := writeRegister_not_ctrl hr v m
      rw [hctrl, haction, if_neg hr]
      exact h

/-- In every run from a power-up the word read back is the one in force exactly
when it was written since the last boot. -/
theorem ctrl_in_force (flash : List U8) (rtc : Rtc) (uniqueId : Fin 12 → U8)
    (events : List Event) (data : U16) :
    InForce (readValue regCtrl data (run events (powerUp flash rtc uniqueId)))
        (run events (powerUp flash rtc uniqueId)).action ↔
      writtenSinceBoot regCtrl events (powerUp flash rtc uniqueId) = true := by
  have hread (m : Module) : readValue regCtrl data m = m.info.ctrl := rfl
  rw [hread, action_of_run]
  cases writtenSinceBoot regCtrl events (powerUp flash rtc uniqueId) with
  | true => exact iff_of_true (decodeCtrl_inForce _) rfl
  | false => exact iff_of_false (initActionInfomation_not_inForce _) Bool.false_ne_true

/-- The slave is enabled with a set point of 25 degrees, and saves this. -/
def enabledAndSaved : List Event :=
  registered ++ [.input (sealFrame [0x01, 0x06, 0x04, 0x01, 0x80, 0x19]), .poll ⟨true, true⟩,
    .every10s true .succeed]

/-- After a power cycle it reports this word, and is disabled. -/
theorem ctrl_in_force_fails :
    ¬∀ written after, writtenSinceBoot regCtrl written blank = true →
      InForce (readValue regCtrl 0 (run (written ++ .every10s true .succeed :: after) blank))
        (run (written ++ .every10s true .succeed :: after) blank).action := by
  intro h
  have hword := h enabledAndSaved [.reboot] (by decide +kernel)
  rw [inForce_iff] at hword
  exact absurd hword (by decide +kernel)

end Hvac
