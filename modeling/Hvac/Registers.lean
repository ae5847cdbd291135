import Hvac.State

/-!
# Registers

`ModbusCommand`: one register is read or written. What a read, a write of a
setting and a write of a report may touch is stated once here, for the frame
decoder to use.
-/

namespace Hvac

-- ---------------------------------------------------------------------------
-- The command
-- ---------------------------------------------------------------------------

def decodeCtrl (ctrl : U16) : TypeAction where
  en := (ctrl >>> 15).setWidth 8
  type := (ctrl >>> 8).setWidth 8 &&& 0x0F
  setPoint := (ctrl &&& 0x00FF) * 10

def Relays.portState (relays : Relays) : U16 :=
  (if relays.y2 then 0x0010 else 0) ||| (if relays.w2 then 0x0008 else 0) |||
    (if relays.g then 0x0004 else 0) ||| (if relays.y then 0x0002 else 0) |||
    (if relays.w then 0x0001 else 0)

/-- The first half of a time broadcast: `*data << 16` is a 32-bit `int`, and
its sign goes along when it is widened. -/
def writeNowTime (data : U16) (m : Module) : Module :=
  { m with timeCorrect := (data.setWidth 32 <<< 16).signExtend 64 }

/-- The second half: the time is complete and the clock is set. -/
def writeNowTime1 (data : U16) (m : Module) : Module :=
  let timeCorrect := m.timeCorrect ||| data.setWidth 64
  let timeFor := getSysTimeByTimestamp timeCorrect.toInt
  { m with
    timeCorrect := timeCorrect
    sensor.time := timeCorrect
    rtc := setTime (setDate m.rtc timeFor.year timeFor.month timeFor.day)
      timeFor.hour timeFor.minute timeFor.second }

/-- `ModbusCommand`: the state and the value behind `data` after the call. -/
def modbusCommand (rw : Rw) (reg : U16) (data : U16) (m : Module) : Module × U16 :=
  match Register.decode reg, rw with
  | .location, .readCmd => ({ m with locationFlag := true }, 0x0000)
  | .portSize, .readCmd => (m, 0x05)
  | .ctrl, .readCmd => (m, m.info.ctrl)
  | .ctrl, .writeCmd => ({ m with info.ctrl := data, action := decodeCtrl data }, data)
  | .portState, .readCmd => (m, m.relays.portState)
  | .unit, .readCmd => (m, m.info.unit.setWidth 16)
  | .unit, .writeCmd => ({ m with info.unit := data.setWidth 8 }, data)
  | .mode, .readCmd => (m, m.info.mode.setWidth 16)
  | .mode, .writeCmd => ({ m with info.mode := data.setWidth 8 }, data)
  | .deadband, .readCmd => (m, m.info.deadBand.setWidth 16)
  | .deadband, .writeCmd => ({ m with info.deadBand := data.setWidth 8 }, data)
  | .ctrlMode, .readCmd => (m, 0x00)
  | .daySetpoint, .readCmd => (m, m.info.daySetPoint)
  | .daySetpoint, .writeCmd => ({ m with info.daySetPoint := data }, data)
  | .nightSetpoint, .readCmd => (m, m.info.nightSetPoint)
  | .nightSetpoint, .writeCmd => ({ m with info.nightSetPoint := data }, data)
  | .dayCool, _ => (m, 0xFFFF)
  | .dayHeat, _ => (m, 0xFFFF)
  | .nightCool, _ => (m, 0xFFFF)
  | .nightHeat, _ => (m, 0xFFFF)
  | .tempFrom, .readCmd => (m, m.info.tempFrom.setWidth 16)
  | .tempFrom, .writeCmd => ({ m with info.tempFrom := data.setWidth 8 }, data)
  | .dayStart, .readCmd => (m, m.info.dayStartTime)
  | .dayStart, .writeCmd => ({ m with info.dayStartTime := data }, data)
  | .dayEnd, .readCmd => (m, m.info.dayEndTime)
  | .dayEnd, .writeCmd => ({ m with info.dayEndTime := data }, data)
  | .nowCo2, .writeCmd => ({ m with sensor.co2 := data.toNat }, data)
  | .nowHumi, .writeCmd => ({ m with sensor.humi := data.toNat }, data)
  | .nowTemp, .writeCmd => ({ m with sensor.temp := data.toNat }, data)
  | .nowLight, .writeCmd => ({ m with sensor.light := data.toNat }, data)
  | .nowTime, .writeCmd => (writeNowTime data m, data)
  | .nowTime1, .writeCmd => (writeNowTime1 data m, data)
  | .unknown, _ => (m, 0xFFFF)
  -- a direction the register does not have leaves everything as it is
  | _, _ => (m, data)

def readValue (reg data : U16) (m : Module) : U16 := (modbusCommand .readCmd reg data m).2

def writeRegister (reg data : U16) (m : Module) : Module := (modbusCommand .writeCmd reg data m).1

-- ---------------------------------------------------------------------------
-- What a read may touch
-- ---------------------------------------------------------------------------

theorem modbusCommand_read (reg data : U16) (m : Module) :
    modbusCommand .readCmd reg data m =
      (if Register.decode reg = .location then { m with locationFlag := true } else m,
        readValue reg data m) := by
  unfold readValue modbusCommand
  cases Register.decode reg <;> rfl

@[simp] theorem readValue_locationFlag (reg data : U16) (m : Module) (flag : Bool) :
    readValue reg data { m with locationFlag := flag } = readValue reg data m := by
  unfold readValue modbusCommand
  cases Register.decode reg <;> rfl

-- ---------------------------------------------------------------------------
-- What a write may touch
-- ---------------------------------------------------------------------------

/-- Nothing but settings and the action in force differs. -/
def SettingsOnly (m m' : Module) : Prop :=
  ∃ info action, m' = { m with info, action } ∧
    info.registerState = m.info.registerState ∧ info.addr = m.info.addr ∧
    info.connected = m.info.connected

/-- Nothing but sensor readings and the clock differs. -/
def ReportsOnly (m m' : Module) : Prop :=
  ∃ sensor timeCorrect rtc, m' = { m with sensor, timeCorrect, rtc }

theorem ReportsOnly.refl (m : Module) : ReportsOnly m m := ⟨_, _, _, rfl⟩

theorem ReportsOnly.trans (h : ReportsOnly m₁ m₂) (h' : ReportsOnly m₂ m₃) :
    ReportsOnly m₁ m₃ := by
  obtain ⟨_, _, _, rfl⟩ := h
  obtain ⟨_, _, _, rfl⟩ := h'
  exact ⟨_, _, _, rfl⟩

theorem writeRegister_setting (h : (Register.decode reg).IsSetting) :
    SettingsOnly m (writeRegister reg data m) := by
  unfold writeRegister modbusCommand
  cases hr : Register.decode reg <;> rw [hr] at h <;>
    first | exact h.elim | exact ⟨_, _, rfl, rfl, rfl, rfl⟩

theorem writeRegister_report (h : ¬(Register.decode reg).IsSetting) :
    ReportsOnly m (writeRegister reg data m) := by
  unfold writeRegister modbusCommand
  cases hr : Register.decode reg <;> rw [hr] at h <;>
    first | exact absurd trivial h | exact ⟨_, _, _, rfl⟩

/-- A register that is neither setting nor report ignores a write. -/
theorem writeRegister_none (hs : ¬(Register.decode reg).IsSetting)
    (hr : ¬(Register.decode reg).IsReport) : writeRegister reg data m = m := by
  unfold writeRegister modbusCommand
  cases h : Register.decode reg <;> rw [h] at hs hr <;>
    first | exact absurd trivial hs | exact absurd trivial hr

/-- The part of the state no register access reaches: the registration, the
connection, the control state, the receive slot and the identity. -/
structure Kept (m m' : Module) : Prop where
  registerState : m'.info.registerState = m.info.registerState
  addr : m'.info.addr = m.info.addr
  connected : m'.info.connected = m.info.connected
  timeRun : m'.timeRun = m.timeRun
  lastConnectTime : m'.lastConnectTime = m.lastConnectTime
  control : m'.control = m.control
  relays : m'.relays = m.relays
  rx : m'.rx = m.rx
  uniqueId : m'.uniqueId = m.uniqueId

theorem Kept.refl (m : Module) : Kept m m := ⟨rfl, rfl, rfl, rfl, rfl, rfl, rfl, rfl, rfl⟩

theorem Kept.trans (h : Kept m₁ m₂) (h' : Kept m₂ m₃) : Kept m₁ m₃ :=
  ⟨h'.1.trans h.1, h'.2.trans h.2, h'.3.trans h.3, h'.4.trans h.4, h'.5.trans h.5,
    h'.6.trans h.6, h'.7.trans h.7, h'.8.trans h.8, h'.9.trans h.9⟩

theorem SettingsOnly.kept (h : SettingsOnly m m') : Kept m m' := by
  obtain ⟨info, action, rfl, hstate, haddr, hconnected⟩ := h
  exact ⟨hstate, haddr, hconnected, rfl, rfl, rfl, rfl, rfl, rfl⟩

theorem ReportsOnly.kept (h : ReportsOnly m m') : Kept m m' := by
  obtain ⟨_, _, _, rfl⟩ := h
  exact ⟨rfl, rfl, rfl, rfl, rfl, rfl, rfl, rfl, rfl⟩

theorem writeRegister_kept (reg data : U16) (m : Module) : Kept m (writeRegister reg data m) := by
  by_cases h : (Register.decode reg).IsSetting
  · exact (writeRegister_setting h).kept
  · exact (writeRegister_report h).kept

@[simp] theorem writeRegister_sendMsgList (reg data : U16) (m : Module) :
    (writeRegister reg data m).sendMsgList = m.sendMsgList := by
  by_cases h : (Register.decode reg).IsSetting
  · obtain ⟨_, _, he, -⟩ := writeRegister_setting (m := m) h
    rw [he]
  · obtain ⟨_, _, _, he⟩ := writeRegister_report (m := m) h
    rw [he]

end Hvac
