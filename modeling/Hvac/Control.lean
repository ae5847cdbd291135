import Hvac.State
import Hvac.Ntc

/-!
# Temperature control

`Control.c`: the choice of the set point, the temperature, the thermostat with
its two stages, the relay patterns and the watch over the connection.
-/

namespace Hvac

-- ---------------------------------------------------------------------------
-- Set point and temperature
-- ---------------------------------------------------------------------------

inductive DayNight
  | inDay | inNight
  deriving DecidableEq, Repr

def identifyDayAndNight (m : Module) : DayNight :=
  let time := getTimeForMat m.rtc
  let now := time.hour.toNat * 3600 + time.minute.toNat * 60 + time.second.toNat
  let start := (m.info.dayStartTime >>> 8).toNat * 3600 +
    (m.info.dayStartTime.setWidth 8).toNat * 60
  let finish := (m.info.dayEndTime >>> 8).toNat * 3600 +
    (m.info.dayEndTime.setWidth 8).toNat * 60
  if finish > start then
    if now > start ∧ now ≤ finish then .inDay else .inNight
  else
    if now > start ∨ now ≤ finish then .inNight else .inDay

def scheduledSetPoint (m : Module) : S16 :=
  match identifyDayAndNight m with
  | .inDay => m.info.daySetPoint
  | .inNight => m.info.nightSetPoint

def getSetPoint (m : Module) : Int :=
  if m.info.moduleMode = moduleSlave then
    if m.action.type = actionTypeByAuto then (scheduledSetPoint m).toInt
    else if m.action.type = actionTypeUseMaster then m.action.setPoint.toInt
    else valueNull
  else (scheduledSetPoint m).toInt

structure Adc where
  first : AdcSample
  second : AdcSample
  deriving DecidableEq, Repr

def getTempValue (adc : Adc) (m : Module) : List Int × Int :=
  if m.info.tempFrom = tempFromRemote then (m.ntcList, m.sensor.temp)
  else if m.info.tempFrom = tempFromLocal then
    -- The value that is checked is not the value that is returned: each call
    -- takes a sample of its own.
    let (list, checked) := getNtcValue adc.first m.ntcList
    if checked ≤ -20 then (list, valueNull)
    else getNtcValue adc.second list
  else (m.ntcList, valueNull)

-- ---------------------------------------------------------------------------
-- Relays
-- ---------------------------------------------------------------------------

def ctrlRelayWrites (coolOrHeat stage en mode : U8) : List (Relay × Bool) :=
  if en = yes then
    if coolOrHeat = cooling then
      if stage = 1 then
        if mode = mode1Conventional then
          [(.y, true), (.g, true), (.w, false), (.w2, false), (.y2, false)]
        else if mode = mode2O then
          [(.w, true), (.y, true), (.g, true), (.w2, false), (.y2, false)]
        else if mode = mode3B then
          [(.y, true), (.g, true), (.w, false), (.w2, false), (.y2, false)]
        else []
      else if stage = 2 then
        if mode = mode1Conventional then
          [(.y, true), (.g, true), (.y2, true), (.w, false), (.w2, false)]
        else if mode = mode2O then
          [(.w, true), (.y, true), (.g, true), (.y2, true), (.w2, false)]
        else if mode = mode3B then
          [(.y, true), (.g, true), (.y2, true), (.w, false), (.w2, false)]
        else []
      else []
    else if coolOrHeat = heating then
      if stage = 1 then
        if mode = mode1Conventional then
          [(.w, true), (.g, true), (.y, false), (.y2, false), (.w2, false)]
        else if mode = mode2O then
          [(.y, true), (.g, true), (.w, false), (.y2, false), (.w2, false)]
        else if mode = mode3B then
          [(.w, true), (.y, true), (.g, true), (.y2, false), (.w2, false)]
        else []
      else if stage = 2 then
        if mode = mode1Conventional then
          [(.w, true), (.g, true), (.w2, true), (.y, false), (.y2, false)]
        else if mode = mode2O then
          [(.y, true), (.g, true), (.w2, true), (.w, false), (.y2, false)]
        else if mode = mode3B then
          [(.w, true), (.y, true), (.g, true), (.w2, true), (.y2, false)]
        else []
      else []
    else []
  else [(.w, false), (.y, false), (.g, false), (.w2, false), (.y2, false)]

def ctrlRelay (coolOrHeat stage en : U8) (m : Module) : Module :=
  { m with relays := m.relays.writeAll (ctrlRelayWrites coolOrHeat stage en m.info.mode) }

/-- `info->CoolOrHeat = NORUN; CtrlRelay(RT_NULL, RT_NULL, NO);` -/
def stop (m : Module) : Module := ctrlRelay 0 0 no { m with info.coolOrHeat := norun }

-- ---------------------------------------------------------------------------
-- The control program
-- ---------------------------------------------------------------------------

def tempMin (point deadband : Int) : Int := if point > deadband then point - deadband else 0
def tempMax (point deadband : Int) : Int := point + deadband

/-- Step 1 of the normal operation: what the temperature asks for. -/
def compareTemperature (temperature point : Int) (m : Module) : Module :=
  let deadband : Int := m.info.deadBand.toNat
  if temperature > tempMax point deadband then { m with info.coolOrHeat := cooling }
  else if temperature < tempMin point deadband then { m with info.coolOrHeat := heating }
  else stop m

/-- A change of direction starts over at the first stage. -/
def followChange (temperature : Int) (m : Module) : Module :=
  if m.control.coolOrHeat ≠ m.info.coolOrHeat then
    { m with control := ⟨m.timeRun, temperature, 1, m.info.coolOrHeat⟩ }
  else m

/-- Step 2: after five minutes within one degree, the second stage. -/
def raiseStage (nowTime : Nat) (temperature : Int) (m : Module) : Module :=
  if nowTime > m.control.lastTime + 300 ∧ (temperature - m.control.lastTemp).natAbs ≤ 10 then
    { m with control.stage := 2 }
  else m

/-- Step 3: drive the relays, unless the master is lost. -/
def driveRelays (controlMode : U8) (m : Module) : Module :=
  if m.info.connected = no ∧ controlMode = moduleSlave then stop m
  else ctrlRelay m.info.coolOrHeat m.control.stage yes m

def getControlMode (m : Module) : U8 := m.info.mode

/-- The samples `GetTempValue` takes, whoever asks for the temperature. -/
def takeSamples (adc : Adc) (m : Module) : Module := { m with ntcList := (getTempValue adc m).1 }

def controlProgram (adc : Adc) (m : Module) : Module :=
  let temperature := (getTempValue adc m).2
  let m := takeSamples adc m
  let point := getSetPoint m
  let nowTime := m.timeRun
  let controlMode := getControlMode m
  if temperature = valueNull ∨ point = valueNull then stop m
  else if m.action.en = no ∧ controlMode = moduleSlave then stop m
  else
    driveRelays controlMode
      (raiseStage nowTime temperature
        (followChange temperature (compareTemperature temperature point m)))

-- ---------------------------------------------------------------------------
-- Connection
-- ---------------------------------------------------------------------------

/-- `MonitorConnectedState` takes the master for lost: nothing was heard since
boot, or nothing for longer than the timeout. -/
def Module.Lost (m : Module) : Prop :=
  m.lastConnectTime = 0 ∨ m.timeRun > m.lastConnectTime + timeout

instance (m : Module) : Decidable m.Lost :=
  inferInstanceAs (Decidable (m.lastConnectTime = 0 ∨ m.timeRun > m.lastConnectTime + timeout))

def monitorConnectedState (m : Module) : Module :=
  if m.Lost then { m with info.connected := no, info.registerState := no }
  else { m with info.connected := yes }

def timeRunning (m : Module) : Module := { m with timeRun := m.timeRun + 1 }

end Hvac
