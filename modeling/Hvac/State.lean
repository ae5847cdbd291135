import Hvac.Clock
import Hvac.Communicate
import Hvac.Crc

/-!
# The state of a module

Everything the firmware keeps between two calls: its globals and function
statics, the pins it drives, the clock chip and the flash page.
-/

namespace Hvac

/-- `struct rx_msg`: what the last call of `Uart1_input` left. -/
structure RxMsg where
  size : Nat := 0
  messageFlag : U8 := no
  data : Nat → U8 := fun _ => 0

/-- The scroll window of the settings page, `min` and `max` of `SettingPage`. -/
structure MenuWindow where
  min : U8 := 1
  max : U8 := 5
  deriving DecidableEq, Repr

structure Module where
  info : TypeInfo
  sensor : TypeSensor
  action : TypeAction
  -- seconds since boot, counted by the main loop
  timeRun : Nat
  lastConnectTime : Nat
  control : ControlStatics
  relays : Relays
  locationFlag : Bool
  -- the static variable of `ModbusCommand`: a time broadcast half received
  timeCorrect : BitVec 64
  rtc : Rtc
  -- the samples of `GetNtcValue`, newest first
  ntcList : List Int
  rx : RxMsg
  sendMsgList : List Msg
  menu : MenuWindow
  -- the static variable of `SaveGlobalInfo`
  lastCrc : U16
  -- the bytes at `DATA_BLOCK_START`
  flash : List U8
  -- the twelve bytes at `ID_ADDR1`
  uniqueId : Fin 12 → U8

def readUniqueId (uniqueId : Fin 12 → U8) : U32 := crc32Cal (List.ofFn uniqueId)

def Module.id (m : Module) : U32 := readUniqueId m.uniqueId

/-- `InitGlobalInformation`: the record is zeroed, then these fields are set. -/
def initGlobalInformation : TypeInfo where
  registerState := no
  type := hvacType
  addr := defaultAddr
  daySetPoint := defaultSetPoint
  nightSetPoint := defaultSetPoint
  temp := 0
  deadBand := defaultDeadband
  mode := mode1Conventional
  unit := unitCentigrade
  tempFrom := tempFromRemote
  dayStartTime := defaultDayStart
  dayEndTime := defaultDayEnd
  ctrl := 0
  coolOrHeat := norun
  connected := no
  moduleMode := moduleSlave
  fanRun := fanAuto
  crc := 0

def initSensorInfomation : TypeSensor where
  co2 := valueNull
  humi := valueNull
  temp := valueNull
  light := valueNull
  time := 0

def initActionInfomation : TypeAction where
  en := no
  type := actionTypeByAuto
  setPoint := BitVec.ofInt 16 valueNull

end Hvac
