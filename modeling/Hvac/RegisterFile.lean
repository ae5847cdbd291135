import Hvac.Run
import Hvac.Lib.Store

/-!
# The register file

Seen from the bus, the read-write registers are a store: `ModbusCommand` with a
write puts a word, with a read it gives what was kept of it. Five registers have
a 16-bit field in the settings record, the other four keep the low byte.
-/

namespace Hvac

/-- What reads of a setting give, by its field in the record. -/
def TypeInfo.setting (info : TypeInfo) : Register → U16
  | .ctrl => info.ctrl
  | .unit => info.unit.setWidth 16
  | .mode => info.mode.setWidth 16
  | .deadband => info.deadBand.setWidth 16
  | .daySetpoint => info.daySetPoint
  | .nightSetpoint => info.nightSetPoint
  | .tempFrom => info.tempFrom.setWidth 16
  | .dayStart => info.dayStartTime
  | .dayEnd => info.dayEndTime
  | _ => 0

/-- The settings whose field is a `u8`. -/
def Register.IsNarrow : Register → Prop
  | .unit | .mode | .deadband | .tempFrom => True
  | _ => False

instance (r : Register) : Decidable r.IsNarrow := by
  cases r <;> unfold Register.IsNarrow <;> infer_instance

/-- The number of a setting. -/
def Register.number : Register → U16
  | .ctrl => 0x0401
  | .unit => 0x0403
  | .mode => 0x0404
  | .deadband => 0x0405
  | .daySetpoint => 0x0407
  | .nightSetpoint => 0x0408
  | .tempFrom => 0x040D
  | .dayStart => 0x040E
  | .dayEnd => 0x040F
  | _ => 0

def Register.keeps (r : Register) (v : U16) : U16 :=
  if ¬r.IsSetting then 0 else if r.IsNarrow then (v.setWidth 8).setWidth 16 else v

/-- The settings as a store by register number; a number that is no setting holds zero. -/
def Module.settings (m : Module) (reg : U16) : U16 := m.info.setting (Register.decode reg)

abbrev writeRegisters (writes : List (U16 × U16)) (m : Module) : Module :=
  writes.foldl (fun m w => writeRegister w.1 w.2 m) m

theorem readValue_setting (h : (Register.decode reg).IsSetting) (data : U16) (m : Module) :
    readValue reg data m = m.settings reg := by
  unfold readValue modbusCommand Module.settings
  cases hr : Register.decode reg <;> rw [hr] at h <;> first | exact h.elim | rfl

theorem setting_of_not_isSetting (h : ¬r.IsSetting) (info : TypeInfo) : info.setting r = 0 := by
  cases r <;> first | exact absurd trivial h | rfl

/-- A write to a setting changes what that setting reads as, and no other. -/
theorem setting_writeRegister (h : (Register.decode reg).IsSetting) (v : U16) (m : Module)
    (r : Register) :
    (writeRegister reg v m).info.setting r =
      if r = Register.decode reg then r.keeps v else m.info.setting r := by
  unfold writeRegister modbusCommand
  cases hr : Register.decode reg <;> rw [hr] at h <;> first | exact h.elim | cases r <;> rfl

theorem setting_writeRegister_of_not (h : ¬(Register.decode reg).IsSetting) (v : U16) (m : Module)
    (r : Register) : (writeRegister reg v m).info.setting r = m.info.setting r := by
  obtain ⟨_, _, _, hw⟩ : ReportsOnly m (writeRegister reg v m) := writeRegister_report h
  rw [hw]

theorem decode_eq_number (h : Register.decode reg = r) (hr : r.IsSetting) : reg = r.number := by
  apply BitVec.eq_of_toNat_eq
  unfold Register.decode at h
  split at h <;> subst h <;> first | exact hr.elim | assumption

theorem decode_inj (h : (Register.decode reg).IsSetting)
    (heq : Register.decode other = Register.decode reg) : other = reg := by
  exact (decode_eq_number heq h).trans (decode_eq_number rfl h).symm

/-- The code's write is the store's. -/
theorem settings_writeRegister (reg v : U16) (m : Module) :
    (writeRegister reg v m).settings =
      Store.put (fun reg => (Register.decode reg).keeps) (reg, v) m.settings := by
  funext k
  unfold Module.settings
  by_cases hk : k = reg
  · subst hk
    rw [Store.put_self]
    by_cases h : (Register.decode k).IsSetting
    · rw [setting_writeRegister h, if_pos rfl]
    · rw [setting_of_not_isSetting h, Register.keeps, if_pos h]
  · rw [Store.put_of_ne hk]
    by_cases h : (Register.decode reg).IsSetting
    · rw [setting_writeRegister h, if_neg fun heq => hk (decode_inj h heq)]
    · rw [setting_writeRegister_of_not h]

theorem settings_writeRegisters (writes : List (U16 × U16)) (m : Module) :
    (writeRegisters writes m).settings =
      Store.putAll (fun reg => (Register.decode reg).keeps) writes m.settings := by
  induction writes generalizing m with
  | nil => rfl
  | cons w rest ih =>
    rw [writeRegisters, List.foldl_cons, ih, settings_writeRegister]
    rfl

/-- A setting reads back what it keeps of the last word written to it, five of
them the word and four its low byte; a write elsewhere does not show in it. -/
theorem register_file_law (h : (Register.decode reg).IsSetting) (m : Module) :
    (∀ v data, readValue reg data (writeRegister reg v m) =
      if (Register.decode reg).IsNarrow then (v.setWidth 8).setWidth 16 else v) ∧
    (∀ other v data, other ≠ reg →
      readValue reg data (writeRegister other v m) = readValue reg data m) ∧
    (∀ writes data, readValue reg data (writeRegisters writes m) =
      ((Store.lastWrite writes reg).map (Register.decode reg).keeps).getD
        (readValue reg data m)) := by
  simp only [readValue_setting h]
  refine ⟨fun v _ => ?_, fun other v _ hne => ?_, fun writes _ => ?_⟩
  · rw [settings_writeRegister, Store.put_self, Register.keeps, if_neg (not_not_intro h)]
  · rw [settings_writeRegister, Store.put_of_ne hne.symm]
  · rw [settings_writeRegisters, Store.putAll_eq_lastWrite]

theorem register_file_law_unit :
    readValue 0x0403 0
      (writeRegisters [(0x0403, 0x0102), (0x0404, 0x0003)] blank) = 0x0002 :=
  (register_file_law (by decide) blank).2.2 [(0x0403, 0x0102), (0x0404, 0x0003)] 0

/-- A word with a high byte is acknowledged, and not what is read back. -/
theorem register_file_law_fails :
    ¬∀ (m : Module) (reg v data : U16), (Register.decode reg).IsSetting →
      readValue reg data (writeRegister reg v m) = v := by
  intro h
  exact absurd (h blank 0x0403 0x0102 0 (by decide)) (by decide)

end Hvac
