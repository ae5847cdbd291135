import Hvac.Control
import Hvac.DataLayer
import Hvac.Menu
import Hvac.Storage
import Hvac.Lib.Machine

/-!
# Runs of a module

The steps the threads of the firmware take, each atomic, in any order: the
receive callback, the loop of `UartEntry` (its receive-or-send part and its
ten-second part), the second's work of the main loop, the display's reads, the
settings page, the clock chip and a reboot.
-/

namespace Hvac

inductive Event
  -- `Uart1_input` with the bytes of one chunk
  | input (chunk : List U8)
  -- the test-clear-analyse step of `UartEntry`, or `SendMsgHandle`
  | poll (alloc : Alloc)
  -- the ten-second part of `UartEntry`
  | every10s (calloc : Bool) (ops : FlashOps)
  | timeRunning
  | controlProgram (adc : Adc)
  | monitorConnectedState
  -- `HomePage` reads the temperature, which takes samples
  | homePage (adc : Adc)
  | settingPage (page : TypePage)
  -- the registers of the clock chip, which counts by itself
  | rtcTick (rtc : Rtc)
  | reboot

def Module.Pending (m : Module) : Prop := m.rx.messageFlag = yes

instance (m : Module) : Decidable m.Pending := inferInstanceAs (Decidable (_ = _))

def uart1CleanRecvFlag (m : Module) : Module := { m with rx := { m.rx with messageFlag := no } }

/-- The length `Uart1Analysis` is called with: the size, cut to eight bits. -/
def Module.handedLen (m : Module) : U8 := BitVec.ofNat 8 m.rx.size

/-- A call of `Uart1Analysis`: its arguments, and the state it is made in. -/
structure AnalysisCall where
  data : Nat → U8
  len : U8
  module : Module

/-- The call in a round of the loop of `UartEntry`, if the flag is set. -/
def analysisCall (m : Module) : Option AnalysisCall :=
  if m.Pending then
    some { data := m.rx.data, len := m.handedLen, module := uart1CleanRecvFlag m }
  else none

def uartPoll (alloc : Alloc) (m : Module) : Module :=
  match analysisCall m with
  | some call => (uart1Analysis alloc call.data call.len call.module).module
  | none => { m with sendMsgList := (sendMsgHandle m.sendMsgList).1 }

def uartEvery10s (calloc : Bool) (ops : FlashOps) (m : Module) : Module :=
  let m := if m.info.registerState = no then
    { m with sendMsgList := queue calloc (generateRegisterData m) m.sendMsgList } else m
  saveGlobalInfo ops m

def step : Event → Module → Module
  | .input chunk, m => uart1Input chunk m
  | .poll alloc, m => uartPoll alloc m
  | .every10s calloc ops, m => uartEvery10s calloc ops m
  | .timeRunning, m => timeRunning m
  | .controlProgram adc, m => controlProgram adc m
  | .monitorConnectedState, m => monitorConnectedState m
  | .homePage adc, m => takeSamples adc m
  | .settingPage page, m => (settingPage page m).2
  | .rtcTick rtc, m => { m with rtc }
  | .reboot, m => reboot m

def sends : Event → Module → Option (List U8)
  | .poll _, m => if m.Pending then none else (sendMsgHandle m.sendMsgList).2
  | _, _ => none

/-- The first power-up, whatever the flash and the clock chip hold. -/
def PoweredUp (m : Module) : Prop := ∃ flash rtc uniqueId, m = powerUp flash rtc uniqueId

abbrev run : List Event → Module → Module := Machine.run step

abbrev Reachable : Module → Prop := Machine.Reachable step PoweredUp

theorem PoweredUp.reboot (m : Module) : PoweredUp (reboot m) := ⟨_, _, _, rfl⟩

/-- A module with an empty flash and an identifier of zeros. -/
def blank : Module := powerUp [] {} fun _ => 0

/-- It receives the master's answer to its registration, and has address one. -/
def registered : List Event :=
  [.input (sealFrame [0xFA, 0x80, 0x7B, 0xD5, 0xC6, 0x6F, 0x00, 0x01]), .poll ⟨true, true⟩]

theorem reachable_run (events : List Event) : Reachable (run events blank) :=
  ⟨blank, events, ⟨_, _, _, rfl⟩, rfl⟩

end Hvac
