import Hvac.State

/-!
# The settings page

`SettingPage` of `Pages.c`, less the drawing: the scroll window follows the
cursor, and each visible row edits its field when the cursor is on it.
-/

namespace Hvac

structure TypePage where
  cusor : U8
  changeValue : U8
  up : U8
  down : U8
  deriving DecidableEq, Repr

-- ---------------------------------------------------------------------------
-- Steps of a value
-- ---------------------------------------------------------------------------

def addData (min max data : BitVec w) : BitVec w := if data < max then data + 1 else min

def subData (min max data : BitVec w) : BitVec w := if data > min then data - 1 else max

def addSetPoint (point : S16) : S16 := if point.toInt < 490 then point + 10 else 0
def subSetPoint (point : S16) : S16 := if point.toInt > 10 then point - 10 else 500

def addDeadband (deadband : U8) : U8 := if deadband < 50 then deadband + 10 else 10
def subDeadband (deadband : U8) : U8 := if deadband > 10 then deadband - 10 else 50

/-- A step of the byte at the field's address plus one, its high byte. -/
def stepHigh (step : U8 → U8) (v : U16) : U16 :=
  (step ((v >>> 8).setWidth 8)).setWidth 16 <<< 8 ||| (v.setWidth 8 : U8).setWidth 16

def stepLow (step : U8 → U8) (v : U16) : U16 :=
  (v >>> 8) <<< 8 ||| (step (v.setWidth 8)).setWidth 16

-- ---------------------------------------------------------------------------
-- Rows
-- ---------------------------------------------------------------------------

/-- One pass over the rows: the page, the time shown, the module. -/
structure SettingPass where
  page : TypePage
  timeFor : SysTime
  module : Module

/-- The edit of one cursor position: each key that is down steps the value and
is cleared. -/
def settingField (cusor : U8) (add sub : SettingPass → SettingPass) (s : SettingPass) :
    SettingPass :=
  if s.page.cusor = cusor ∧ s.page.changeValue = yes then
    let s := if s.page.up = yes then { add s with page := { s.page with up := no } } else s
    if s.page.down = yes then { sub s with page := { s.page with down := no } } else s
  else s

def onInfo (f : TypeInfo → TypeInfo) (s : SettingPass) : SettingPass :=
  { s with module := { s.module with info := f s.module.info } }

/-- A step of the date: the clock is set at once. -/
def onDate (f : SysTime → SysTime) (s : SettingPass) : SettingPass :=
  let t := f s.timeFor
  { s with timeFor := t, module := { s.module with rtc := setDate s.module.rtc t.year t.month t.day } }

def onTime (f : SysTime → SysTime) (s : SettingPass) : SettingPass :=
  let t := f s.timeFor
  { s with
    timeFor := t
    module := { s.module with rtc := setTime s.module.rtc t.hour t.minute t.second } }

/-- The body of the row loop, less the drawing. -/
def settingRow (i : Int) (s : SettingPass) : SettingPass :=
  match i with
  | 0 => settingField 1
      (onInfo fun info => { info with moduleMode := addData moduleSlave moduleMaster info.moduleMode })
      (onInfo fun info => { info with moduleMode := subData moduleSlave moduleMaster info.moduleMode })
      s
  | 1 => settingField 2
      (onInfo fun info => { info with mode := addData mode1Conventional mode3B info.mode })
      (onInfo fun info => { info with mode := subData mode1Conventional mode3B info.mode })
      s
  | 2 => settingField 3
      (onInfo fun info => { info with unit := addData unitCentigrade unitFahrenheit info.unit })
      (onInfo fun info => { info with unit := subData unitCentigrade unitFahrenheit info.unit })
      s
  | 3 => settingField 4
      (onInfo fun info => { info with daySetPoint := addSetPoint info.daySetPoint })
      (onInfo fun info => { info with daySetPoint := subSetPoint info.daySetPoint })
      s
  | 4 => settingField 5
      (onInfo fun info => { info with nightSetPoint := addSetPoint info.nightSetPoint })
      (onInfo fun info => { info with nightSetPoint := subSetPoint info.nightSetPoint })
      s
  | 5 => settingField 6
      (onInfo fun info => { info with deadBand := addDeadband info.deadBand })
      (onInfo fun info => { info with deadBand := subDeadband info.deadBand })
      s
  | 6 => settingField 7
      (onInfo fun info => { info with fanRun := addData fanAuto fanOpenAlways info.fanRun })
      (onInfo fun info => { info with fanRun := subData fanAuto fanOpenAlways info.fanRun })
      s
  | 7 => settingField 8
      (onInfo fun info => { info with tempFrom := addData tempFromRemote tempFromLocal info.tempFrom })
      (onInfo fun info => { info with tempFrom := subData tempFromRemote tempFromLocal info.tempFrom })
      s
  | 8 =>
    let s := settingField 9
      (onDate fun t => { t with year := addData 2000 2100 t.year })
      (onDate fun t => { t with year := subData 2000 2100 t.year }) s
    let s := settingField 10
      (onDate fun t => { t with month := addData 1 12 t.month })
      (onDate fun t => { t with month := subData 1 12 t.month }) s
    settingField 11
      (onDate fun t => { t with day := addData 1 31 t.day })
      (onDate fun t => { t with day := subData 1 31 t.day }) s
  | 9 =>
    let s := settingField 12
      (onTime fun t => { t with hour := addData 0 23 t.hour })
      (onTime fun t => { t with hour := subData 0 23 t.hour }) s
    let s := settingField 13
      (onTime fun t => { t with minute := addData 0 59 t.minute })
      (onTime fun t => { t with minute := subData 0 59 t.minute }) s
    settingField 14
      (onTime fun t => { t with second := addData 0 59 t.second })
      (onTime fun t => { t with second := subData 0 59 t.second }) s
  | 10 =>
    let s := settingField 15
      (onInfo fun info => { info with dayStartTime := stepHigh (addData 0 23) info.dayStartTime })
      (onInfo fun info => { info with dayStartTime := stepHigh (subData 0 23) info.dayStartTime }) s
    settingField 16
      (onInfo fun info => { info with dayStartTime := stepLow (addData 0 59) info.dayStartTime })
      (onInfo fun info => { info with dayStartTime := stepLow (subData 0 59) info.dayStartTime }) s
  | 11 =>
    let s := settingField 17
      (onInfo fun info => { info with dayEndTime := stepHigh (addData 0 23) info.dayEndTime })
      (onInfo fun info => { info with dayEndTime := stepHigh (subData 0 23) info.dayEndTime }) s
    settingField 18
      (onInfo fun info => { info with dayEndTime := stepLow (addData 0 59) info.dayEndTime })
      (onInfo fun info => { info with dayEndTime := stepLow (subData 0 59) info.dayEndTime }) s
  | _ => s

-- ---------------------------------------------------------------------------
-- The page
-- ---------------------------------------------------------------------------

def showMenu (cusor : U8) : U8 :=
  if cusor < 9 then cusor
  else if cusor = 9 ∨ cusor = 10 ∨ cusor = 11 then 9
  else if cusor = 12 ∨ cusor = 13 ∨ cusor = 14 then 10
  else if cusor = 15 ∨ cusor = 16 then 11
  else if cusor = 17 ∨ cusor = 18 then 12
  else 0

def scroll (show' : U8) (menu : MenuWindow) : MenuWindow :=
  if show' < menu.min then { min := show', max := show' + 4 }
  else if show' > menu.max then { min := show' - 4, max := show' }
  else menu

/-- The rows `min - 1`, up to and without `max`. -/
def MenuWindow.rows (menu : MenuWindow) : List Int :=
  (List.range (menu.max.toNat + 1 - menu.min.toNat)).map fun k => (menu.min.toNat : Int) - 1 + k

def settingPage (page : TypePage) (m : Module) : TypePage × Module :=
  let menu := scroll (showMenu page.cusor) m.menu
  let pass := menu.rows.foldl (fun s i => settingRow i s)
    { page, timeFor := getTimeForMat m.rtc, module := { m with menu } }
  (pass.page, pass.module)

-- ---------------------------------------------------------------------------
-- What the page may touch
-- ---------------------------------------------------------------------------

/-- Nothing but settings, clock and window differs; of the record, not the
registration, the connection, the decision or the control word. -/
structure MenuOnly (m m' : Module) : Prop where
  shape : ∃ info rtc menu, m' = { m with info, rtc, menu }
  registerState : m'.info.registerState = m.info.registerState
  addr : m'.info.addr = m.info.addr
  connected : m'.info.connected = m.info.connected
  coolOrHeat : m'.info.coolOrHeat = m.info.coolOrHeat
  ctrl : m'.info.ctrl = m.info.ctrl

theorem MenuOnly.refl (m : Module) : MenuOnly m m := ⟨⟨_, _, _, rfl⟩, rfl, rfl, rfl, rfl, rfl⟩

theorem MenuOnly.trans (h : MenuOnly m₁ m₂) (h' : MenuOnly m₂ m₃) : MenuOnly m₁ m₃ := by
  obtain ⟨⟨_, _, _, rfl⟩, hr, ha, hc, hd, hw⟩ := h
  obtain ⟨⟨_, _, _, rfl⟩, hr', ha', hc', hd', hw'⟩ := h'
  exact ⟨⟨_, _, _, rfl⟩, hr'.trans hr, ha'.trans ha, hc'.trans hc, hd'.trans hd, hw'.trans hw⟩

theorem settingField_menuOnly
    (hadd : ∀ s, MenuOnly s.module (add s).module) (hsub : ∀ s, MenuOnly s.module (sub s).module)
    (s : SettingPass) : MenuOnly s.module (settingField cusor add sub s).module := by
  unfold settingField
  dsimp only
  split
  · by_cases hup : s.page.up = yes
    · simp only [if_pos hup]
      split
      · exact (hadd s).trans (hsub { add s with page := { s.page with up := no } })
      · exact hadd s
    · simp only [if_neg hup]
      split
      · exact hsub s
      · exact .refl _
  · exact .refl _

theorem onDate_menuOnly (f : SysTime → SysTime) (s : SettingPass) :
    MenuOnly s.module (onDate f s).module := ⟨⟨_, _, _, rfl⟩, rfl, rfl, rfl, rfl, rfl⟩

theorem onTime_menuOnly (f : SysTime → SysTime) (s : SettingPass) :
    MenuOnly s.module (onTime f s).module := ⟨⟨_, _, _, rfl⟩, rfl, rfl, rfl, rfl, rfl⟩

theorem settingRow_menuOnly (i : Int) (s : SettingPass) :
    MenuOnly s.module (settingRow i s).module := by
  have three {c₁ c₂ c₃ : U8} {a₁ b₁ a₂ b₂ a₃ b₃ : SettingPass → SettingPass}
      (h₁ : ∀ s, MenuOnly s.module (a₁ s).module) (k₁ : ∀ s, MenuOnly s.module (b₁ s).module)
      (h₂ : ∀ s, MenuOnly s.module (a₂ s).module) (k₂ : ∀ s, MenuOnly s.module (b₂ s).module)
      (h₃ : ∀ s, MenuOnly s.module (a₃ s).module) (k₃ : ∀ s, MenuOnly s.module (b₃ s).module) :
      MenuOnly s.module
        (settingField c₃ a₃ b₃ (settingField c₂ a₂ b₂ (settingField c₁ a₁ b₁ s))).module :=
    ((settingField_menuOnly h₁ k₁ s).trans (settingField_menuOnly h₂ k₂ _)).trans
      (settingField_menuOnly h₃ k₃ _)
  unfold settingRow
  split
  case h_9 =>
    exact three (onDate_menuOnly _) (onDate_menuOnly _) (onDate_menuOnly _) (onDate_menuOnly _)
      (onDate_menuOnly _) (onDate_menuOnly _)
  case h_10 =>
    exact three (onTime_menuOnly _) (onTime_menuOnly _) (onTime_menuOnly _) (onTime_menuOnly _)
      (onTime_menuOnly _) (onTime_menuOnly _)
  case h_13 => exact .refl _
  case h_11 | h_12 =>
    refine (settingField_menuOnly ?_ ?_ s).trans (settingField_menuOnly ?_ ?_ _) <;>
      exact fun s => ⟨⟨_, _, _, rfl⟩, rfl, rfl, rfl, rfl, rfl⟩
  all_goals
    refine settingField_menuOnly ?_ ?_ s <;>
      exact fun s => ⟨⟨_, _, _, rfl⟩, rfl, rfl, rfl, rfl, rfl⟩

theorem settingPage_menuOnly (page : TypePage) (m : Module) :
    MenuOnly m (settingPage page m).2 := by
  have hrows (rows : List Int) (s : SettingPass) :
      MenuOnly s.module (rows.foldl (fun s i => settingRow i s) s).module := by
    induction rows generalizing s with
    | nil => exact .refl _
    | cons i rest ih => exact (settingRow_menuOnly i s).trans (ih _)
  let menu := scroll (showMenu page.cusor) m.menu
  have hscroll : MenuOnly m { m with menu } := ⟨⟨_, _, _, rfl⟩, rfl, rfl, rfl, rfl, rfl⟩
  exact hscroll.trans
    (hrows menu.rows { page, timeFor := getTimeForMat m.rtc, module := { m with menu } })

end Hvac
