import Hvac.Gpio
import Hvac.Run

/-!
# The main loop

`LedProgram` and the loop of `main`: every twenty milliseconds the two timers
and the LED, every second the time, the control program and the watch over the
connection.
-/

namespace Hvac

-- ---------------------------------------------------------------------------
-- The LED
-- ---------------------------------------------------------------------------

def ledNormal : U8 := 0
def ledFast : U8 := 1

/-- How long the LED is to flash fast, in seconds. -/
def locationTime : Nat := 60

/-- The statics of `LedProgram`, and the pin it drives. -/
structure LedStatics where
  cnt : U16 := 0
  flag : U8 := 0
  locationFlag : Bool := false
  lastTime : Nat := 0
  mode : U8 := ledNormal
  powerLed : U8 := 0
  deriving DecidableEq, Repr

structure LedTask where
  module : Module
  led : LedStatics

/-- The copy follows the flag, and a rise of it starts the minute. -/
def followLocation (m : Module) (led : LedStatics) : LedStatics :=
  if led.locationFlag ≠ m.locationFlag then
    { led with
      locationFlag := m.locationFlag
      lastTime := if m.locationFlag = true then m.timeRun else led.lastTime }
  else led

def chooseMode (s : LedTask) : LedTask :=
  if s.led.locationFlag = true then
    if s.module.timeRun > s.led.lastTime + locationTime then
      { module := closeModuleLocation s.module, led := { s.led with mode := ledNormal } }
    else { s with led.mode := ledFast }
  else s

/-- The pin changes once the count has reached the limit of the mode. -/
def blink (limit : Nat) (led : LedStatics) : LedStatics :=
  if led.cnt.toNat < limit then { led with cnt := led.cnt + 1 }
  else
    { led with
      flag := if led.flag = 0 then 1 else if led.flag = 1 then 0 else led.flag
      cnt := 0 }

def LedStatics.drive (period : U8) (led : LedStatics) : LedStatics :=
  let led :=
    if led.mode = ledNormal then blink (1000 / period.toNat) led
    else if led.mode = ledFast then blink (100 / period.toNat) led
    else led
  { led with powerLed := led.flag }

def ledProgram (period : U8) (s : LedTask) : LedTask :=
  let s := chooseMode { s with led := followLocation s.module s.led }
  { s with led := s.led.drive period }

-- ---------------------------------------------------------------------------
-- The loop
-- ---------------------------------------------------------------------------

/-- What the loop works on: the module, and the statics of its own. -/
structure MainTask extends LedTask where
  time1S : U16 := 0
  time10S : U16 := 0

/-- The work of a second. -/
def everySecond (adc : Adc) (m : Module) : Module :=
  monitorConnectedState (controlProgram adc (timeRunning m))

/-- One pass of the loop of `main`. Nothing is done with what the call of
`IdentifyDaYAndNight` every ten seconds returns. -/
def mainRound (adc : Adc) (s : MainTask) : MainTask :=
  let (time1S, timer1sTouch) := timerTask s.time1S (1000 / 20)
  let (time10S, _) := timerTask s.time10S (10000 / 20)
  let leds := ledProgram 20 s.toLedTask
  { leds with
    module := if timer1sTouch = yes then everySecond adc leds.module else leds.module
    time1S
    time10S }

inductive MainEvent
  | round (adc : Adc)
  -- a step of one of the other threads
  | other (e : Event)

def mainStep : MainEvent → MainTask → MainTask
  | .round adc, s => mainRound adc s
  | .other e, s => { s with module := step e s.module }

-- ---------------------------------------------------------------------------
-- What the LED may touch
-- ---------------------------------------------------------------------------

@[simp] theorem LedStatics.drive_mode (period : U8) (led : LedStatics) :
    (led.drive period).mode = led.mode := by
  unfold LedStatics.drive blink
  dsimp only
  repeat' split
  all_goals rfl

theorem LedStatics.drive_location (period : U8) (led : LedStatics) :
    (led.drive period).locationFlag = led.locationFlag ∧
      (led.drive period).lastTime = led.lastTime := by
  unfold LedStatics.drive blink
  dsimp only
  repeat' split
  all_goals exact ⟨rfl, rfl⟩

/-- Of the module the LED touches nothing but the location flag. -/
theorem ledProgram_module (period : U8) (s : LedTask) :
    ∃ flag, (ledProgram period s).module = { s.module with locationFlag := flag } := by
  unfold ledProgram chooseMode
  dsimp only
  repeat' split
  · exact ⟨false, rfl⟩
  · exact ⟨s.module.locationFlag, rfl⟩
  · exact ⟨s.module.locationFlag, rfl⟩

@[simp] theorem ledProgram_timeRun (period : U8) (s : LedTask) :
    (ledProgram period s).module.timeRun = s.module.timeRun := by
  obtain ⟨flag, h⟩ := ledProgram_module period s
  rw [h]

end Hvac
