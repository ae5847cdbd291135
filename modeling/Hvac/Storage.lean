import Hvac.State

/-!
# Stored settings

`Uart.c`: the packed settings record, its page in flash, and what a boot makes
of it.
-/

namespace Hvac

def le16 (v : U16) : List U8 := [v.setWidth 8, (v >>> 8).setWidth 8]

/-- The 23 bytes of `type_info_t` the CRC covers. -/
def TypeInfo.covered (info : TypeInfo) : List U8 :=
  [info.registerState, info.type, info.addr] ++ le16 info.daySetPoint ++
    le16 info.nightSetPoint ++ le16 info.temp ++
    [info.deadBand, info.mode, info.unit, info.tempFrom] ++ le16 info.dayStartTime ++
    le16 info.dayEndTime ++ le16 info.ctrl ++
    [info.coolOrHeat, info.connected, info.moduleMode, info.fanRun]

def TypeInfo.toBytes (info : TypeInfo) : List U8 := info.covered ++ le16 info.crc

def TypeInfo.ofBytes (bytes : List U8) : TypeInfo :=
  let byte (i : Nat) : U8 := bytes.getD i 0
  let half (i : Nat) : U16 := (byte (i + 1)).setWidth 16 <<< 8 ||| (byte i).setWidth 16
  { registerState := byte 0
    type := byte 1
    addr := byte 2
    daySetPoint := half 3
    nightSetPoint := half 5
    temp := half 7
    deadBand := byte 9
    mode := byte 10
    unit := byte 11
    tempFrom := byte 12
    dayStartTime := half 13
    dayEndTime := half 15
    ctrl := half 17
    coolOrHeat := byte 19
    connected := byte 20
    moduleMode := byte 21
    fanRun := byte 22
    crc := half 23 }

/-- What the flash controller answers during one `flash_write`. -/
structure FlashOps where
  erase : Bool
  program : Nat → Bool

/-- `flash_write` of a record: erase the page, then program it eight bytes at a
time. A double word that was not programmed stays erased. -/
def flashWrite (ops : FlashOps) (record flash : List U8) : List U8 :=
  if ops.erase then record.mapIdx fun i byte => if ops.program (i / 8) then byte else 0xFF
  else flash

def takeGlobalInfo (flash : List U8) : TypeInfo :=
  let info := TypeInfo.ofBytes flash
  if usModbusRtuCrc info.covered ≠ info.crc then initGlobalInformation else info

def saveGlobalInfo (ops : FlashOps) (m : Module) : Module :=
  let crc := usModbusRtuCrc m.info.covered
  if m.lastCrc ≠ crc then
    let info := { m.info with crc := crc }
    { m with lastCrc := crc, info := info, flash := flashWrite ops info.toBytes m.flash }
  else m

/-- The state `UartEntry` enters its loop with, the main loop not having run:
flash, clock chip and identity are the hardware's, all else is fresh. -/
def powerUp (flash : List U8) (rtc : Rtc) (uniqueId : Fin 12 → U8) : Module where
  info := { takeGlobalInfo flash with registerState := no }
  sensor := initSensorInfomation
  action := initActionInfomation
  timeRun := 0
  lastConnectTime := 0
  control := {}
  relays := .off
  locationFlag := false
  timeCorrect := 0
  rtc := rtc
  ntcList := []
  rx := {}
  sendMsgList := []
  menu := {}
  lastCrc := 0
  flash := flash
  uniqueId := uniqueId

def reboot (m : Module) : Module := powerUp m.flash m.rtc m.uniqueId

@[simp] theorem saveGlobalInfo_sendMsgList :
    (saveGlobalInfo ops m).sendMsgList = m.sendMsgList := by
  unfold saveGlobalInfo; dsimp only; split <;> rfl

end Hvac
