import Hvac.Button
import Hvac.Gpio
import Hvac.Run

/-!
# The display

`Oled.c` and the callbacks of `Pages.c`, less the drawing: the stack of pages,
the record of the cursor that the buttons and the display share, and the loop of
the display's thread.
-/

namespace Hvac

-- ---------------------------------------------------------------------------
-- State
-- ---------------------------------------------------------------------------

def homePageNumber : U8 := 0x00
def settingPageNumber : U8 := 0x01
def timeSelectPageNumber : U8 := 0x02

/-- `type_page_t`: with what `SettingPage` works on, the bounds of the cursor. -/
structure PageSelect extends TypePage where
  cusorShow : U8
  cusorHome : U8
  cusorMax : U8
  select : U8
  lastCusor : U8
  deriving DecidableEq, Repr

/-- The globals and statics of `Oled.c` and `Pages.c`, and the pin of the light. -/
structure OledStatics where
  pageSelect : PageSelect := ⟨⟨0, 0, 0, 0⟩, 0, 0, 0, 0, 0⟩
  pageInfor : BitVec 64 := 0
  reflashFlag : U8 := no
  backlightTime : Nat := 0
  lcdBk : U8 := no
  -- of `pageProgram`
  pagePre : U8 := 0
  timeFor : SysTime := ⟨0, 0, 0, 0, 0, 0⟩
  timeForPre : SysTime := ⟨0, 0, 0, 0, 0, 0⟩
  -- of `OledEntry`, and whether it has reached its loop
  nowPagePre : U8 := 0xFF
  time1S : U16 := 0
  started : Bool := false

structure OledTask where
  module : Module
  oled : OledStatics

-- ---------------------------------------------------------------------------
-- Pages
-- ---------------------------------------------------------------------------

def OledStatics.nowPage (o : OledStatics) : U8 := o.pageInfor.setWidth 8

def OledStatics.pushPage (page : U8) (o : OledStatics) : OledStatics :=
  { o with pageInfor := o.pageInfor <<< 8 ||| page.setWidth 64 }

def backPage (o : OledStatics) : OledStatics :=
  { o with
    pageInfor := o.pageInfor >>> 8
    pageSelect := { o.pageSelect with lastCusor := o.pageSelect.cusor } }

def pageSelectSet (cusorShow home max : U8) (o : OledStatics) : OledStatics :=
  { o with pageSelect :=
    { o.pageSelect with cusorShow, cusorHome := home, cusor := home, cusorMax := max } }

def pageSetting (page : U8) (o : OledStatics) : OledStatics :=
  if page = homePageNumber then pageSelectSet yes 1 1 o
  else if page = settingPageNumber then pageSelectSet yes 1 18 o
  else if page = timeSelectPageNumber then pageSelectSet yes 1 4 o
  else o

/-- Step 1 of `pageProgram`: the time is kept when the settings are entered, and
set if it has changed when they are come back to. -/
def switchPage (page : U8) (s : OledTask) : OledTask :=
  if s.oled.pagePre ≠ page then
    let s :=
      if s.oled.pagePre = homePageNumber ∧ page = settingPageNumber then
        let timeFor := getTimeForMat s.module.rtc
        { s with oled := { s.oled with timeFor, timeForPre := timeFor } }
      else if s.oled.pagePre = timeSelectPageNumber ∧ page = settingPageNumber then
        let t := s.oled.timeFor
        if s.oled.timeForPre ≠ t then
          { s with module.rtc :=
            setTime (setDate s.module.rtc t.year t.month t.day) t.hour t.minute t.second }
        else s
      else s
    { s with oled.pagePre := page }
  else s

def homeProgram (adc : Adc) (s : OledTask) : OledTask :=
  let o := s.oled
  { module := takeSamples adc s.module
    oled :=
      if o.pageSelect.select = yes then
        let o :=
          if o.pageSelect.cusor = 1 then
            let o := o.pushPage settingPageNumber
            { o with pageSelect := { o.pageSelect with changeValue := no } }
          else o
        { o with pageSelect := { o.pageSelect with select := no } }
      else o }

/-- Enter turns the editing of values on and off. -/
def toggleChange (o : OledStatics) : OledStatics :=
  if o.pageSelect.select = yes then
    if o.pageSelect.changeValue = no then
      { o with pageSelect :=
        { o.pageSelect with changeValue := yes, up := no, down := no, select := no } }
    else { o with pageSelect := { o.pageSelect with changeValue := no, select := no } }
  else o

def runSettingPage (s : OledTask) : OledTask :=
  let (page, m) := settingPage s.oled.pageSelect.toTypePage s.module
  { module := m, oled := { s.oled with pageSelect := { s.oled.pageSelect with toTypePage := page } } }

/-- The state `pageProgram` calls `SettingPage` in. -/
def atSettingPage (s : OledTask) : OledTask :=
  let s := switchPage settingPageNumber s
  { s with oled := toggleChange s.oled }

def pageProgram (adc : Adc) (page : U8) (s : OledTask) : OledTask :=
  let s :=
    if page = homePageNumber then homeProgram adc (switchPage page s)
    else if page = settingPageNumber then runSettingPage (atSettingPage s)
    else switchPage page s
  { s with oled := { s.oled with
    pageSelect := { s.oled.pageSelect with select := no }, reflashFlag := no } }

-- ---------------------------------------------------------------------------
-- The thread
-- ---------------------------------------------------------------------------

def wakeUpOledBackLight (s : OledTask) : OledTask :=
  { s with oled := { s.oled with backlightTime := s.module.timeRun, lcdBk := yes } }

def monitorBackLight (s : OledTask) : OledTask :=
  if s.oled.backlightTime + 60 < s.module.timeRun then
    { s with oled := backPage { s.oled with lcdBk := no } }
  else s

/-- `OledEntry` up to its loop. -/
def oledStart (s : OledTask) : OledTask :=
  wakeUpOledBackLight { s with oled := { s.oled.pushPage homePageNumber with started := true } }

/-- The page that is drawn in a round, and the state it is drawn in: a new page
with its first cursor, or the page there is if it is to be refreshed. -/
def drawnPage (s : OledTask) : Option (U8 × OledTask) :=
  let nowPage := s.oled.nowPage
  if s.oled.nowPagePre ≠ nowPage then
    some (nowPage, { s with oled := pageSetting nowPage s.oled })
  else if s.oled.reflashFlag = yes then some (nowPage, s)
  else none

def drawRound (adc : Adc) (s : OledTask) : OledTask :=
  match drawnPage s with
  | some (page, drawn) =>
    let s := pageProgram adc page drawn
    { s with oled.nowPagePre := page }
  | none => s

/-- The work of a second, for the page of this round. -/
def watchRound (nowPage : U8) (s : OledTask) : OledTask :=
  let s := monitorBackLight s
  if nowPage = homePageNumber ∨ nowPage = settingPageNumber ∨ nowPage = timeSelectPageNumber then
    { s with oled.reflashFlag := yes }
  else s

/-- A round of the loop of `OledEntry`. -/
def oledRound (adc : Adc) (s : OledTask) : OledTask :=
  let (time1S, timer1sTouch) := timerTask s.oled.time1S 10
  let s : OledTask := { s with oled.time1S := time1S }
  let nowPage := s.oled.nowPage
  let s := drawRound adc s
  if timer1sTouch = yes then watchRound nowPage s else s

def oledEntry (adc : Adc) (s : OledTask) : OledTask :=
  if s.oled.started = true then oledRound adc s else oledStart s

-- ---------------------------------------------------------------------------
-- The buttons
-- ---------------------------------------------------------------------------

def setReflash (s : OledTask) : OledTask := { s with oled.reflashFlag := yes }

def onPageSelect (f : PageSelect → PageSelect) (s : OledTask) : OledTask :=
  { s with oled := { s.oled with pageSelect := f s.oled.pageSelect } }

def enterBtnCallBack (type : PressType) (s : OledTask) : OledTask :=
  match type with
  | .shortPress =>
    setReflash (onPageSelect (fun p => { p with select := yes }) (wakeUpOledBackLight s))
  | .longPress => setReflash { s with oled := backPage s.oled }
  | .nullPress => s

/-- Towards the first position, and from there to the last. -/
def cusorUp (p : PageSelect) : PageSelect :=
  if p.changeValue = no then
    { p with cusor := if p.cusor > p.cusorHome then p.cusor - 1 else p.cusorMax }
  else p

def cusorDown (p : PageSelect) : PageSelect :=
  if p.changeValue = no then
    if p.cusorMax > 0 then
      { p with cusor := if p.cusor < p.cusorMax then p.cusor + 1 else p.cusorHome }
    else p
  else p

def upBtnCallBack (type : PressType) (s : OledTask) : OledTask :=
  match type with
  | .shortPress =>
    let s := setReflash (wakeUpOledBackLight (onPageSelect cusorUp s))
    onPageSelect (fun p => { p with up := yes }) s
  | _ => s

def downBtnCallBack (type : PressType) (s : OledTask) : OledTask :=
  match type with
  | .shortPress =>
    let s := setReflash (wakeUpOledBackLight (onPageSelect cusorDown s))
    onPageSelect (fun p => { p with down := yes }) s
  | _ => s

-- ---------------------------------------------------------------------------
-- Steps
-- ---------------------------------------------------------------------------

/-- The steps the display's own thread takes, as far as the module sees them. -/
def Event.OfDisplay : Event → Prop
  | .homePage _ | .settingPage _ => True
  | _ => False

inductive OledEvent
  | enterBtn (type : PressType)
  | upBtn (type : PressType)
  | downBtn (type : PressType)
  | oledEntry (adc : Adc)
  -- a step of one of the other threads, or a reboot
  | other (e : Event) (h : ¬e.OfDisplay)

def oledStep : OledEvent → OledTask → OledTask
  | .enterBtn type, s => enterBtnCallBack type s
  | .upBtn type, s => upBtnCallBack type s
  | .downBtn type, s => downBtnCallBack type s
  | .oledEntry adc, s => oledEntry adc s
  | .other .reboot _, s => { module := reboot s.module, oled := {} }
  | .other e _, s => { s with module := step e s.module }

/-- What a step of the thread draws. -/
def drawnNow (s : OledTask) : Option (U8 × OledTask) :=
  if s.oled.started = true then
    drawnPage { s with oled.time1S := (timerTask s.oled.time1S 10).1 }
  else none

/-- The state in which a step calls `SettingPage`, if it does. -/
def settingPageCall : OledEvent → OledTask → Option OledTask
  | .oledEntry _, s =>
    match drawnNow s with
    | some (page, drawn) => if page = settingPageNumber then some (atSettingPage drawn) else none
    | none => none
  | _, _ => none

end Hvac
