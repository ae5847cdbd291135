import Mathlib.Logic.Basic

/-!
# Data of a module

The widths, constants and records of `typedef.h`, `Control.h`,
`GlobalConfig.h`, `Communicate.h` and `UartDataLayer.h`. A fixed-width C integer
is a bit vector; a signed one is read through `BitVec.toInt`. A C `int` that
cannot overflow here is an `Int`, the seconds since boot are a `Nat`.
-/

namespace Hvac

abbrev U8 := BitVec 8
abbrev U16 := BitVec 16
abbrev U32 := BitVec 32
/-- An `s16`: the bits of the two's complement word. -/
abbrev S16 := BitVec 16

-- ---------------------------------------------------------------------------
-- Constants
-- ---------------------------------------------------------------------------

def no : U8 := 0x00
def yes : U8 := 0x01

def valueNull : Int := -9999

def timeout : Nat := 30

def moduleSlave : U8 := 0
def moduleMaster : U8 := 1

def actionTypeUseMaster : U8 := 0
def actionTypeByAuto : U8 := 5

def norun : U8 := 0x00
def cooling : U8 := 0x01
def heating : U8 := 0x02

def fanAuto : U8 := 0x00
def fanOpenAlways : U8 := 0x01

def mode1Conventional : U8 := 0x01
def mode2O : U8 := 0x02
def mode3B : U8 := 0x03

def unitCentigrade : U8 := 0x01
def unitFahrenheit : U8 := 0x02

def tempFromRemote : U8 := 0x01
def tempFromLocal : U8 := 0x02

def hvacType : U8 := 0x61
def defaultAddr : U8 := 0x01
def defaultSetPoint : S16 := 250
def defaultDayStart : U16 := 0x0800
def defaultDayEnd : U16 := 0x1200
def defaultDeadband : U8 := 50

def msgSize : Nat := 20
def msgListMax : Nat := 20

def registerCode : U8 := 0xFA
def registerAnser : U8 := 0x80

def readMuti : U8 := 0x03
def writeSingle : U8 := 0x06
def writeMuti : U8 := 0x10

-- ---------------------------------------------------------------------------
-- Records
-- ---------------------------------------------------------------------------

structure TypeAction where
  en : U8
  type : U8
  setPoint : S16
  deriving DecidableEq, Repr

/-- `type_info_t`, in the order of the packed record. -/
structure TypeInfo where
  registerState : U8
  type : U8
  addr : U8
  daySetPoint : S16
  nightSetPoint : S16
  temp : U16
  deadBand : U8
  mode : U8
  unit : U8
  tempFrom : U8
  dayStartTime : U16
  dayEndTime : U16
  ctrl : U16
  coolOrHeat : U8
  connected : U8
  moduleMode : U8
  fanRun : U8
  crc : U16
  deriving DecidableEq, Repr

/-- `type_sensor_t`: the values the master broadcasts. -/
structure TypeSensor where
  co2 : Int
  humi : Int
  temp : Int
  light : Int
  time : BitVec 64
  deriving DecidableEq, Repr

structure ControlStatics where
  lastTime : Nat := 0
  lastTemp : Int := 0
  stage : U8 := 1
  coolOrHeat : U8 := norun
  deriving DecidableEq, Repr

-- ---------------------------------------------------------------------------
-- Relays
-- ---------------------------------------------------------------------------

inductive Relay
  | w | y | g | w2 | y2
  deriving DecidableEq, Repr

structure Relays where
  w : Bool := false
  y : Bool := false
  g : Bool := false
  w2 : Bool := false
  y2 : Bool := false
  deriving DecidableEq, Repr

def Relays.off : Relays := {}

def Relays.write (relays : Relays) (relay : Relay) (value : Bool) : Relays :=
  match relay with
  | .w => { relays with w := value }
  | .y => { relays with y := value }
  | .g => { relays with g := value }
  | .w2 => { relays with w2 := value }
  | .y2 => { relays with y2 := value }

def Relays.writeAll (relays : Relays) (writes : List (Relay × Bool)) : Relays :=
  writes.foldl (fun relays pin => relays.write pin.1 pin.2) relays

-- ---------------------------------------------------------------------------
-- Registers
-- ---------------------------------------------------------------------------

inductive Register
  | location | nowTime | nowTime1
  | portSize | ctrl | portState | unit | mode | deadband | ctrlMode
  | daySetpoint | nightSetpoint | dayCool | dayHeat | nightCool | nightHeat
  | tempFrom | dayStart | dayEnd
  | nowCo2 | nowHumi | nowTemp | nowLight
  | unknown
  deriving DecidableEq, Repr

/-- The `case` a register number falls under. -/
def Register.decode (reg : U16) : Register :=
  match reg.toNat with
  | 0x0000 => .location
  | 0x0009 => .nowTime
  | 0x000A => .nowTime1
  | 0x0400 => .portSize
  | 0x0401 => .ctrl
  | 0x0402 => .portState
  | 0x0403 => .unit
  | 0x0404 => .mode
  | 0x0405 => .deadband
  | 0x0406 => .ctrlMode
  | 0x0407 => .daySetpoint
  | 0x0408 => .nightSetpoint
  | 0x0409 => .dayCool
  | 0x040A => .dayHeat
  | 0x040B => .nightCool
  | 0x040C => .nightHeat
  | 0x040D => .tempFrom
  | 0x040E => .dayStart
  | 0x040F => .dayEnd
  | 0xF000 => .nowCo2
  | 0xF001 => .nowHumi
  | 0xF002 => .nowTemp
  | 0xF003 => .nowLight
  | _ => .unknown

/-- The settings a master may write: the read-write registers. -/
def Register.IsSetting : Register → Prop
  | .ctrl | .unit | .mode | .deadband | .daySetpoint | .nightSetpoint
  | .tempFrom | .dayStart | .dayEnd => True
  | _ => False

/-- The registers that only take values from the bus: sensors and clock. -/
def Register.IsReport : Register → Prop
  | .nowTime | .nowTime1 | .nowCo2 | .nowHumi | .nowTemp | .nowLight => True
  | _ => False

instance (r : Register) : Decidable r.IsSetting := by
  cases r <;> unfold Register.IsSetting <;> infer_instance

instance (r : Register) : Decidable r.IsReport := by
  cases r <;> unfold Register.IsReport <;> infer_instance

inductive Rw
  | readCmd | writeCmd
  deriving DecidableEq, Repr

end Hvac
