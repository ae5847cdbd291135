import Hvac.Locate
import Hvac.Navigation
import Hvac.Traffic

/-!
# The firmware

All threads with their statics. A turn of a thread is what it does between two
points where another may come in: the calls of a second in the loop of `main`
are turns of their own, and so is the ten-second part of `UartEntry`. Every run
of the firmware is, for the module, a run of its steps.
-/

namespace Hvac

-- ---------------------------------------------------------------------------
-- The threads
-- ---------------------------------------------------------------------------

/-- Where the loop of `main` is: at the start of a round, or before one of the
calls of a second. -/
inductive MainPosition
  | round | timeRunning | controlProgram | monitorConnectedState
  deriving DecidableEq, Repr

/-- Where the loop of `UartEntry` is: at the start of a round, or before its
ten-second part. -/
inductive UartPosition
  | round | every10s
  deriving DecidableEq, Repr

structure Firmware where
  module : Module
  -- of `main`
  led : LedStatics := {}
  mainTime1S : U16 := 0
  mainTime10S : U16 := 0
  mainAt : MainPosition := .round
  -- of `UartEntry`
  uartTime1S : U16 := 0
  uartTime10S : U16 := 0
  uartAt : UartPosition := .round
  -- of `OledEntry`
  oled : OledStatics := {}
  -- of `ButtonTaskEntry`, after `ButtonRegister`
  buttonList : Fin 3 → Button := buttonRegister

namespace Firmware

def display (s : Firmware) : OledTask := { module := s.module, oled := s.oled }

def withDisplay (s : Firmware) (t : OledTask) : Firmware :=
  { s with module := t.module, oled := t.oled }

/-- A turn of `main`. The call of `IdentifyDaYAndNight` every ten seconds is for nothing. -/
def mainTurn (adc : Adc) (s : Firmware) : Firmware :=
  match s.mainAt with
  | .round =>
    let (time1S, timer1sTouch) := timerTask s.mainTime1S (1000 / 20)
    let (time10S, _) := timerTask s.mainTime10S (10000 / 20)
    let leds := ledProgram 20 { module := s.module, led := s.led }
    { s with
      module := leds.module
      led := leds.led
      mainTime1S := time1S
      mainTime10S := time10S
      mainAt := if timer1sTouch = yes then .timeRunning else .round }
  | .timeRunning => { s with module := timeRunning s.module, mainAt := .controlProgram }
  | .controlProgram =>
    { s with module := controlProgram adc s.module, mainAt := .monitorConnectedState }
  | .monitorConnectedState => { s with module := monitorConnectedState s.module, mainAt := .round }

/-- A turn of `UartEntry`. -/
def uartTurn (alloc : Alloc) (ops : FlashOps) (s : Firmware) : Firmware :=
  match s.uartAt with
  | .round =>
    let (time1S, _) := timerTask s.uartTime1S (1000 / 20)
    let (time10S, timer10sTouch) := timerTask s.uartTime10S (10000 / 20)
    { s with
      module := uartPoll alloc s.module
      uartTime1S := time1S
      uartTime10S := time10S
      uartAt := if timer10sTouch = yes then .every10s else .round }
  | .every10s => { s with module := uartEvery10s alloc.calloc ops s.module, uartAt := .round }

def oledTurn (adc : Adc) (s : Firmware) : Firmware := s.withDisplay (oledEntry adc s.display)

/-- The callback `ButtonRegister` gives an entry of the list. -/
def callBack (index : Fin 3) : PressType → OledTask → OledTask :=
  match index.val with
  | 0 => enterBtnCallBack
  | 1 => upBtnCallBack
  | _ => downBtnCallBack

/-- A turn of `ButtonTaskEntry`. -/
def buttonTurn (reads : PinReads) (s : Firmware) : Firmware :=
  let buttonList := buttonStep reads s.buttonList
  let t := (List.finRange 3).foldl (fun t index => callBack index (buttonList index).type t)
    s.display
  { s.withDisplay t with buttonList }

end Firmware

inductive FirmwareEvent
  -- `Uart1_input`, from the interrupt
  | input (chunk : List U8)
  | rtcTick (rtc : Rtc)
  | main (adc : Adc)
  | uart (alloc : Alloc) (ops : FlashOps)
  | oled (adc : Adc)
  | button (reads : PinReads)
  | reboot

def firmwareStep : FirmwareEvent → Firmware → Firmware
  | .input chunk, s => { s with module := uart1Input chunk s.module }
  | .rtcTick rtc, s => { s with module := step (.rtcTick rtc) s.module }
  | .main adc, s => s.mainTurn adc
  | .uart alloc ops, s => s.uartTurn alloc ops
  | .oled adc, s => s.oledTurn adc
  | .button reads, s => s.buttonTurn reads
  | .reboot, s => { module := reboot s.module }

/-- What is given to `SendToMaster`. -/
def firmwareSends : FirmwareEvent → Firmware → Option (List U8)
  | .uart alloc _, s => if s.uartAt = .round then sends (.poll alloc) s.module else none
  | _, _ => none

def Firmware.start (flash : List U8) (rtc : Rtc) (uniqueId : Fin 12 → U8) : Firmware :=
  { module := powerUp flash rtc uniqueId }

def FirmwareStart (s : Firmware) : Prop := ∃ flash rtc uniqueId, s = .start flash rtc uniqueId

abbrev firmwareRun : List FirmwareEvent → Firmware → Firmware := Machine.run firmwareStep

abbrev FirmwareReachable : Firmware → Prop := Machine.Reachable firmwareStep FirmwareStart

-- ---------------------------------------------------------------------------
-- But for the location flag
-- ---------------------------------------------------------------------------

def Module.withLocation (flag : Bool) (m : Module) : Module := { m with locationFlag := flag }

/-- The same but for the location flag, which the LED takes back. -/
def ButLocation (m m' : Module) : Prop := ∃ flag, m' = m.withLocation flag

theorem ButLocation.refl (m : Module) : ButLocation m m := ⟨m.locationFlag, rfl⟩

theorem ButLocation.trans (h : ButLocation m₁ m₂) (h' : ButLocation m₂ m₃) : ButLocation m₁ m₃ := by
  obtain ⟨_, rfl⟩ := h
  obtain ⟨flag, rfl⟩ := h'
  exact ⟨flag, rfl⟩

/-- Neither uses the flag nor changes it. -/
def LocationFree (f : Module → Module) : Prop :=
  ∀ flag m, f (m.withLocation flag) = (f m).withLocation flag

theorem LocationFree.butLocation (h : LocationFree f) (hm : ButLocation m m') :
    ButLocation (f m) (f m') := by
  obtain ⟨flag, rfl⟩ := hm
  exact ⟨flag, h flag m⟩

theorem LocationFree.comp (hg : LocationFree g) (hf : LocationFree f) :
    LocationFree fun m => g (f m) := by
  intro flag m
  show g (f _) = _
  rw [hf flag m, hg flag (f m)]

theorem LocationFree.ite {c : Module → Prop} [DecidablePred c]
    (hc : ∀ flag m, c (m.withLocation flag) ↔ c m) (hf : LocationFree f)
    (hg : LocationFree g) : LocationFree fun m => if c m then f m else g m := by
  intro flag m
  dsimp only
  by_cases h : c m
  · rw [if_pos h, if_pos ((hc flag m).mpr h)]
    exact hf flag m
  · rw [if_neg h, if_neg (mt (hc flag m).mp h)]
    exact hg flag m

theorem locationFree_writeRegister (reg data : U16) : LocationFree (writeRegister reg data) := by
  intro flag m
  unfold writeRegister modbusCommand
  cases Register.decode reg <;> rfl

theorem locationFree_saveGlobalInfo (ops : FlashOps) : LocationFree (saveGlobalInfo ops) :=
  .ite (c := fun m => m.lastCrc ≠ usModbusRtuCrc m.info.covered) (fun _ _ => Iff.rfl)
    (fun _ _ => rfl) fun _ _ => rfl

theorem locationFree_uartEvery10s (calloc : Bool) (ops : FlashOps) :
    LocationFree (uartEvery10s calloc ops) :=
  (locationFree_saveGlobalInfo ops).comp
    (.ite (c := fun m => m.info.registerState = no) (fun _ _ => Iff.rfl) (fun _ _ => rfl)
      fun _ _ => rfl)

theorem locationFree_stop : LocationFree stop := fun _ _ => rfl

theorem locationFree_compareTemperature (temperature point : Int) :
    LocationFree (compareTemperature temperature point) :=
  .ite (fun _ _ => Iff.rfl) (fun _ _ => rfl)
    (.ite (fun _ _ => Iff.rfl) (fun _ _ => rfl) locationFree_stop)

theorem locationFree_followChange (temperature : Int) : LocationFree (followChange temperature) :=
  .ite (fun _ _ => Iff.rfl) (fun _ _ => rfl) fun _ _ => rfl

theorem locationFree_raiseStage (nowTime : Nat) (temperature : Int) :
    LocationFree (raiseStage nowTime temperature) :=
  .ite (fun _ _ => Iff.rfl) (fun _ _ => rfl) fun _ _ => rfl

theorem locationFree_driveRelays (controlMode : U8) : LocationFree (driveRelays controlMode) :=
  .ite (fun _ _ => Iff.rfl) locationFree_stop fun _ _ => rfl

theorem locationFree_controlProgram (adc : Adc) : LocationFree (controlProgram adc) := by
  have hrun (temperature : Int) : LocationFree fun m =>
      driveRelays (getControlMode m) (raiseStage m.timeRun temperature (followChange temperature
        (compareTemperature temperature (getSetPoint m) m))) := fun flag m =>
    (locationFree_driveRelays _).comp ((locationFree_raiseStage _ _).comp
      ((locationFree_followChange _).comp (locationFree_compareTemperature _ _))) flag m
  have hknown (temperature : Int) : LocationFree fun m =>
      if temperature = valueNull ∨ getSetPoint m = valueNull then stop m
      else if m.action.en = no ∧ getControlMode m = moduleSlave then stop m
      else driveRelays (getControlMode m) (raiseStage m.timeRun temperature
        (followChange temperature (compareTemperature temperature (getSetPoint m) m))) :=
    .ite (fun _ _ => Iff.rfl) locationFree_stop
      (.ite (fun _ _ => Iff.rfl) locationFree_stop (hrun temperature))
  exact fun flag m => hknown (getTempValue adc m).2 flag (takeSamples adc m)

/-- The same of what is done in a pass over the rows of the settings page. -/
def PassLocationFree (f : SettingPass → SettingPass) : Prop :=
  ∀ flag s, f { s with module := s.module.withLocation flag } =
    { f s with module := (f s).module.withLocation flag }

theorem passLocationFree_settingField (cusor : U8) (hadd : PassLocationFree add)
    (hsub : PassLocationFree sub) : PassLocationFree (settingField cusor add sub) := by
  intro flag s
  unfold settingField
  dsimp only
  split
  · by_cases hup : s.page.up = yes
    · simp only [if_pos hup]
      rw [hadd flag s]
      split
      · rw [hsub flag { add s with page := { s.page with up := no } }]
      · rfl
    · simp only [if_neg hup]
      split
      · rw [hsub flag s]
      · rfl
  · rfl

theorem passLocationFree_settingRow (i : Int) : PassLocationFree (settingRow i) := by
  unfold settingRow
  split
  case h_13 => exact fun _ _ => rfl
  case h_9 | h_10 =>
    intro flag s
    dsimp only
    rw [passLocationFree_settingField _ (fun _ _ => rfl) (fun _ _ => rfl) flag s,
      passLocationFree_settingField _ (fun _ _ => rfl) (fun _ _ => rfl) flag _,
      passLocationFree_settingField _ (fun _ _ => rfl) (fun _ _ => rfl) flag _]
  case h_11 | h_12 =>
    intro flag s
    dsimp only
    rw [passLocationFree_settingField _ (fun _ _ => rfl) (fun _ _ => rfl) flag s,
      passLocationFree_settingField _ (fun _ _ => rfl) (fun _ _ => rfl) flag _]
  all_goals exact passLocationFree_settingField _ (fun _ _ => rfl) (fun _ _ => rfl)

theorem locationFree_settingPage (page : TypePage) :
    LocationFree fun m => (settingPage page m).2 := by
  have hrows (rows : List Int) : PassLocationFree
      fun s => rows.foldl (fun s i => settingRow i s) s := by
    induction rows with
    | nil => exact fun _ _ => rfl
    | cons i rest ih =>
      intro flag s
      simp only [List.foldl_cons, passLocationFree_settingRow i flag s]
      exact ih flag (settingRow i s)
  intro flag m
  exact congrArg SettingPass.module (hrows _ flag
    { page, timeFor := getTimeForMat m.rtc,
      module := { m with menu := scroll (showMenu page.cusor) m.menu } })

theorem locationFree_monitorConnectedState : LocationFree monitorConnectedState :=
  .ite (c := fun m => m.Lost) (fun _ _ => Iff.rfl) (fun _ _ => rfl) fun _ _ => rfl

theorem locationFree_writeRegisters (writes : List (U16 × U16)) :
    LocationFree (writeRegisters writes) := by
  induction writes with
  | nil => exact fun _ _ => rfl
  | cons w rest ih => exact ih.comp (locationFree_writeRegister _ _)

theorem afterCommand_butLocation (data : Nat → U8) (alloc : Alloc) (flag : Bool) (m : Module) :
    ButLocation (afterCommand data alloc m) (afterCommand data alloc (m.withLocation flag)) := by
  obtain ⟨own, h⟩ := afterCommand_writeRegisters data alloc m
  obtain ⟨other, h'⟩ := afterCommand_writeRegisters data alloc (m.withLocation flag)
  rw [h, h', locationFree_writeRegisters]
  exact ⟨other, rfl⟩

/-- An answer does not tell whether the flag is up. -/
theorem readTest_withLocation (reg : U16) (flag : Bool) (m : Module) (n : Nat) :
    readTest reg (m.withLocation flag) n = readTest reg m n := by
  induction n with
  | zero => rfl
  | succ n ih =>
    rw [readTest, readTest, ih]
    exact readValue_locationFlag ..

theorem answerOf_withLocation (alloc : Alloc) (data : Nat → U8) (flag : Bool) (m : Module) :
    answerOf alloc data (m.withLocation flag) = answerOf alloc data m := by
  simp only [answerOf, readAnswer, readWords, readTest_withLocation]

theorem locationFree_register (data : Nat → U8) : LocationFree (register data) :=
  .ite (c := fun m => data 1 = registerAnser ∧ readId data = m.id) (fun _ _ => Iff.rfl)
    (fun _ _ => rfl) fun _ _ => rfl

theorem uart1Analysis_butLocation (alloc : Alloc) (data : Nat → U8) (len : U8) (flag : Bool)
    (m : Module) :
    ButLocation (uart1Analysis alloc data len m).module
      (uart1Analysis alloc data len (m.withLocation flag)).module := by
  obtain ⟨hok, hcode, he⟩ | ⟨hd, he⟩ | ⟨hreg, hcmd, he⟩ := uart1Analysis_cases alloc data len m
  · rw [he, uart1Analysis_register hok hcode]
    exact ⟨flag, congrArg setLastConnectTime (locationFree_register data flag m)⟩
  · rw [he, uart1Analysis_dispatch (m := m.withLocation flag) hd]
    obtain ⟨other, hafter⟩ := afterCommand_butLocation data alloc flag m
    dsimp only
    rw [modbusCommandAnalysis_module, modbusCommandAnalysis_module, answerOf_withLocation, hafter]
    refine ⟨other, ?_⟩
    have htime : (afterCommand data alloc m).timeRun = m.timeRun :=
      (afterCommand_kept data alloc m).timeRun
    cases answerOf alloc data m <;> rfl
  · rw [he, uart1Analysis_ignored (m := m.withLocation flag) hreg hcmd]
    exact ⟨flag, rfl⟩

theorem uartPoll_butLocation (alloc : Alloc) (h : ButLocation m m') :
    ButLocation (uartPoll alloc m) (uartPoll alloc m') := by
  obtain ⟨flag, rfl⟩ := h
  by_cases hp : m.Pending
  · rw [uartPoll_pending hp, uartPoll_pending (m := m.withLocation flag) hp]
    exact uart1Analysis_butLocation alloc m.rx.data m.handedLen flag (uart1CleanRecvFlag m)
  · rw [uartPoll_idle hp, uartPoll_idle (m := m.withLocation flag) hp]
    exact ⟨flag, rfl⟩

theorem step_butLocation (e : Event) (h : ButLocation m m') :
    ButLocation (step e m) (step e m') := by
  cases e with
  | poll alloc => exact uartPoll_butLocation alloc h
  | every10s calloc ops => exact (locationFree_uartEvery10s calloc ops).butLocation h
  | controlProgram adc => exact (locationFree_controlProgram adc).butLocation h
  | settingPage page => exact (locationFree_settingPage page).butLocation h
  | monitorConnectedState =>
    exact locationFree_monitorConnectedState.butLocation h
  | input chunk => exact LocationFree.butLocation (f := uart1Input chunk) (fun _ _ => rfl) h
  | timeRunning => exact LocationFree.butLocation (f := timeRunning) (fun _ _ => rfl) h
  | homePage adc => exact LocationFree.butLocation (f := takeSamples adc) (fun _ _ => rfl) h
  | rtcTick rtc => exact LocationFree.butLocation (f := step (.rtcTick rtc)) (fun _ _ => rfl) h
  | reboot =>
    obtain ⟨flag, rfl⟩ := h
    exact .refl _

theorem sends_butLocation (e : Event) (h : ButLocation m m') : sends e m' = sends e m := by
  obtain ⟨flag, rfl⟩ := h
  cases e <;> rfl

theorem run_butLocation (events : List Event) (h : ButLocation m m') :
    ButLocation (run events m) (run events m') := by
  induction events generalizing m m' with
  | nil => exact h
  | cons e rest ih => exact ih (step_butLocation e h)

-- ---------------------------------------------------------------------------
-- The steps of a turn
-- ---------------------------------------------------------------------------

/-- The steps of the module in an event of the firmware. -/
def firmwareView : FirmwareEvent → Firmware → List Event
  | .input chunk, _ => [.input chunk]
  | .rtcTick rtc, _ => [.rtcTick rtc]
  | .main adc, s =>
    match s.mainAt with
    | .round => []
    | .timeRunning => [.timeRunning]
    | .controlProgram => [.controlProgram adc]
    | .monitorConnectedState => [.monitorConnectedState]
  | .uart alloc ops, s =>
    match s.uartAt with
    | .round => [.poll alloc]
    | .every10s => [.every10s alloc.calloc ops]
  | .oled adc, s => moduleEvents (.oledEntry adc) s.display
  | .button _, _ => []
  | .reboot, _ => [.reboot]

/-- The display is as its thread keeps it, and the module is one that its steps lead to. -/
structure Tracked (t : OledTask) (m : Module) : Prop where
  module : ButLocation m t.module
  navigation : Navigation t
  noTimePage : NoTimePage t

theorem Tracked.oledStep (h : Tracked t m) (e : OledEvent) :
    Tracked (oledStep e t) (run (moduleEvents e t) m) := by
  obtain ⟨hmodule, hno⟩ := oledStep_module h.navigation h.noTimePage e
  refine ⟨?_, h.navigation.oledStep e, hno⟩
  rw [hmodule]
  exact run_butLocation _ h.module

theorem Tracked.other (h : Tracked t m) (hforeign : ¬e.OfDisplay) (hboot : e ≠ .reboot) :
    Tracked { t with module := step e t.module } (step e m) := by
  have hstep := h.oledStep (.other e hforeign)
  rwa [oledStep_other hforeign hboot] at hstep

theorem Tracked.ledProgram (h : Tracked t m) (period : U8) (led : LedStatics) :
    Tracked { t with module := (ledProgram period { module := t.module, led }).module } m := by
  obtain ⟨flag, hm⟩ := ledProgram_module period { module := t.module, led }
  obtain ⟨hmodule, ⟨hstack, hlimits, hlow, hhigh, hwindow⟩, hno⟩ := h
  rw [hm]
  exact ⟨hmodule.trans ⟨flag, rfl⟩, ⟨hstack, hlimits, hlow, hhigh, hwindow⟩, hno⟩

theorem Tracked.callBack (h : Tracked t m) (index : Fin 3) (type : PressType) :
    Tracked (Firmware.callBack index type t) m := by
  match index with
  | 0 => exact h.oledStep (.enterBtn type)
  | 1 => exact h.oledStep (.upBtn type)
  | 2 => exact h.oledStep (.downBtn type)

theorem Tracked.buttonTurn {s : Firmware} (h : Tracked s.display m) (reads : PinReads) :
    Tracked (s.buttonTurn reads).display m := by
  have hcalls (types : Fin 3 → PressType) (indices : List (Fin 3)) (t : OledTask)
      (h : Tracked t m) :
      Tracked (indices.foldl (fun t index => Firmware.callBack index (types index) t) t) m := by
    induction indices generalizing t with
    | nil => exact h
    | cons index rest ih => exact ih _ (h.callBack index (types index))
  exact hcalls (fun index => (buttonStep reads s.buttonList index).type) _ _ h

theorem Tracked.mainTurn {s : Firmware} (h : Tracked s.display m) (adc : Adc) :
    Tracked (s.mainTurn adc).display (run (firmwareView (.main adc) s) m) := by
  cases hat : s.mainAt with
  | round =>
    simp only [Firmware.mainTurn, firmwareView, hat]
    exact h.ledProgram 20 s.led
  | timeRunning =>
    simp only [Firmware.mainTurn, firmwareView, hat]
    exact h.other (e := .timeRunning) id (by simp)
  | controlProgram =>
    simp only [Firmware.mainTurn, firmwareView, hat]
    exact h.other (e := .controlProgram adc) id (by simp)
  | monitorConnectedState =>
    simp only [Firmware.mainTurn, firmwareView, hat]
    exact h.other (e := .monitorConnectedState) id (by simp)

theorem Tracked.uartTurn {s : Firmware} (h : Tracked s.display m) (alloc : Alloc)
    (ops : FlashOps) :
    Tracked (s.uartTurn alloc ops).display (run (firmwareView (.uart alloc ops) s) m) := by
  cases hat : s.uartAt with
  | round =>
    simp only [Firmware.uartTurn, firmwareView, hat]
    exact h.other (e := .poll alloc) id (by simp)
  | every10s =>
    simp only [Firmware.uartTurn, firmwareView, hat]
    exact h.other (e := .every10s alloc.calloc ops) id (by simp)

theorem firmwareStep_tracked (e : FirmwareEvent) (s : Firmware) (m : Module)
    (h : Tracked s.display m) :
    Tracked (firmwareStep e s).display (run (firmwareView e s) m) := by
  cases e with
  | input chunk => exact h.other (e := .input chunk) id (by simp)
  | rtcTick rtc => exact h.other (e := .rtcTick rtc) id (by simp)
  | oled adc => exact h.oledStep (.oledEntry adc)
  | button reads => exact h.buttonTurn reads
  | reboot => exact h.oledStep (.other .reboot id)
  | main adc => exact h.mainTurn adc
  | uart alloc ops => exact h.uartTurn alloc ops

theorem trace_moduleEvents (adc : Adc) (t : OledTask) (m : Module) :
    Machine.trace step sends (moduleEvents (.oledEntry adc) t) m = [] := by
  unfold moduleEvents
  dsimp only
  split
  · split <;> rfl
  · rfl

theorem firmwareSends_eq (e : FirmwareEvent) (s : Firmware) (m : Module)
    (h : Tracked s.display m) :
    (firmwareSends e s).toList = Machine.trace step sends (firmwareView e s) m := by
  cases e with
  | oled adc => exact (trace_moduleEvents adc s.display m).symm
  | main adc => cases hat : s.mainAt <;> simp only [firmwareView, hat] <;> rfl
  | uart alloc ops =>
    cases hat : s.uartAt with
    | round =>
      have hsame : sends (.poll alloc) s.module = sends (.poll alloc) m :=
        sends_butLocation (.poll alloc) h.module
      simp only [firmwareView, firmwareSends, hat, if_true, hsame]
      exact (List.append_nil _).symm
    | every10s =>
      simp only [firmwareView, firmwareSends, hat]
      rfl
  | _ => rfl

-- ---------------------------------------------------------------------------
-- Every run
-- ---------------------------------------------------------------------------

theorem tracked_start (flash : List U8) (rtc : Rtc) (uniqueId : Fin 12 → U8) :
    Tracked (Firmware.start flash rtc uniqueId).display (powerUp flash rtc uniqueId) :=
  ⟨.refl _, .boot rfl, show (0 : U8) ≠ timeSelectPageNumber by decide⟩

theorem Tracked.firmwareRun {s : Firmware} (h : Tracked s.display m)
    (events : List FirmwareEvent) :
    Tracked (firmwareRun events s).display
        (run (Machine.expand firmwareStep firmwareView events s) m) ∧
      Machine.trace firmwareStep firmwareSends events s =
        Machine.trace step sends (Machine.expand firmwareStep firmwareView events s) m :=
  ⟨Machine.run_expand (R := fun (s : Firmware) m => Tracked s.display m) firmwareStep_tracked h,
    Machine.trace_expand (R := fun (s : Firmware) m => Tracked s.display m) firmwareStep_tracked
      firmwareSends_eq h⟩

/-- What any run of the steps from power-up keeps, any run of the firmware keeps. -/
theorem FirmwareReachable.tracked (h : FirmwareReachable s) :
    ∃ m, Reachable m ∧ Tracked s.display m := by
  obtain ⟨_, events, ⟨flash, rtc, uniqueId, rfl⟩, rfl⟩ := h
  exact ⟨_, ⟨_, _, ⟨flash, rtc, uniqueId, rfl⟩, rfl⟩,
    ((tracked_start flash rtc uniqueId).firmwareRun events).1⟩

/-- Whatever way the threads, the interrupt and the power come in between each
other's turns, the module is where the steps of these turns lead it, but for the
location flag, and what is sent is what these steps send. -/
theorem firmware_refines_steps (flash : List U8) (rtc : Rtc) (uniqueId : Fin 12 → U8)
    (events : List FirmwareEvent) :
    let start := Firmware.start flash rtc uniqueId
    let steps := Machine.expand firmwareStep firmwareView events start
    ButLocation (run steps start.module) (firmwareRun events start).module ∧
      Machine.trace firmwareStep firmwareSends events start =
        Machine.trace step sends steps start.module := by
  intro start steps
  obtain ⟨htracked, hsends⟩ := (tracked_start flash rtc uniqueId).firmwareRun events
  exact ⟨htracked.module, hsends⟩

end Hvac
