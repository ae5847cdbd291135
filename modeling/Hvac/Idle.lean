import Hvac.FailSafe
import Hvac.Requests

/-!
# An untouched display

`MonitorBackLight` looks every second of the display's thread whether a minute has
passed since the last press. When it has, the light goes out and the page on top
is left, and the home page is drawn at the next turn.
-/

namespace Hvac

open Machine (Within)

-- ---------------------------------------------------------------------------
-- What drawing keeps
-- ---------------------------------------------------------------------------

/-- What no page changes. -/
structure SameWatch (o o' : OledStatics) : Prop where
  backlightTime : o'.backlightTime = o.backlightTime
  lcdBk : o'.lcdBk = o.lcdBk
  started : o'.started = o.started
  time1S : o'.time1S = o.time1S

theorem SameWatch.refl (o : OledStatics) : SameWatch o o := ⟨rfl, rfl, rfl, rfl⟩

theorem SameWatch.trans (h : SameWatch o₁ o₂) (h' : SameWatch o₂ o₃) : SameWatch o₁ o₃ :=
  ⟨h'.1.trans h.1, h'.2.trans h.2, h'.3.trans h.3, h'.4.trans h.4⟩

/-- A page is shown and left, unless Enter was pressed on the home page. -/
structure Drew (o o' : OledStatics) : Prop where
  watch : SameWatch o o'
  select : o'.pageSelect.select = no
  reflashFlag : o'.reflashFlag = no
  stack : o.pageSelect.select ≠ yes → o'.pageInfor = o.pageInfor

theorem switchPage_oled (page : U8) (s : OledTask) :
    SameWatch s.oled (switchPage page s).oled ∧
      (switchPage page s).oled.pageInfor = s.oled.pageInfor ∧
      (switchPage page s).oled.pageSelect = s.oled.pageSelect := by
  unfold switchPage
  dsimp only
  repeat' split
  all_goals exact ⟨⟨rfl, rfl, rfl, rfl⟩, rfl, rfl⟩

theorem homeProgram_oled (adc : Adc) (s : OledTask) :
    SameWatch s.oled (homeProgram adc s).oled ∧
      (s.oled.pageSelect.select ≠ yes → (homeProgram adc s).oled.pageInfor = s.oled.pageInfor) := by
  unfold homeProgram OledStatics.pushPage
  dsimp only
  repeat' split
  · rename_i hselect _
    exact ⟨⟨rfl, rfl, rfl, rfl⟩, fun hnot => absurd hselect hnot⟩
  · exact ⟨⟨rfl, rfl, rfl, rfl⟩, fun _ => rfl⟩
  · exact ⟨⟨rfl, rfl, rfl, rfl⟩, fun _ => rfl⟩

theorem toggleChange_watch (o : OledStatics) :
    SameWatch o (toggleChange o) ∧ (toggleChange o).pageInfor = o.pageInfor := by
  unfold toggleChange
  repeat' split
  all_goals exact ⟨⟨rfl, rfl, rfl, rfl⟩, rfl⟩

theorem pageDone_drew {o : OledStatics} (s : OledTask) (h : SameWatch o s.oled)
    (hstack : o.pageSelect.select ≠ yes → s.oled.pageInfor = o.pageInfor) :
    Drew o (pageDone s).oled :=
  ⟨⟨h.1, h.2, h.3, h.4⟩, rfl, rfl, hstack⟩

theorem pageProgram_drew (adc : Adc) (page : U8) (s : OledTask) :
    Drew s.oled (pageProgram adc page s).oled := by
  obtain ⟨hwatch, hstack, hselect⟩ := switchPage_oled page s
  by_cases hhome : page = homePageNumber
  · subst hhome
    obtain ⟨hwatch', hstack'⟩ := homeProgram_oled adc (switchPage homePageNumber s)
    rw [pageProgram_home]
    rw [hselect, hstack] at hstack'
    exact pageDone_drew _ (hwatch.trans hwatch') hstack'
  by_cases hsetting : page = settingPageNumber
  · subst hsetting
    obtain ⟨hwatch', hstack'⟩ := toggleChange_watch (switchPage settingPageNumber s).oled
    rw [pageProgram_setting]
    obtain ⟨htime, hlight, hstarted, htimer⟩ := hwatch.trans hwatch'
    exact pageDone_drew _ ⟨htime, hlight, hstarted, htimer⟩ fun _ => hstack'.trans hstack
  · have hother : pageProgram adc page s = pageDone (switchPage page s) := by
      unfold pageProgram
      rw [if_neg hhome, if_neg hsetting]
      rfl
    rw [hother]
    exact pageDone_drew _ hwatch fun _ => hstack

theorem pageSetting_drawn (page : U8) (o : OledStatics) :
    SameWatch o (pageSetting page o) ∧ (pageSetting page o).pageInfor = o.pageInfor ∧
      (pageSetting page o).pageSelect.select = o.pageSelect.select := by
  unfold pageSetting pageSelectSet
  repeat' split
  all_goals exact ⟨⟨rfl, rfl, rfl, rfl⟩, rfl, rfl⟩

/-- A round draws the page on top, or there is nothing new. -/
theorem drawRound_cases (adc : Adc) (s : OledTask) :
    (Drew s.oled (drawRound adc s).oled ∧ (drawRound adc s).oled.nowPagePre = s.oled.nowPage) ∨
      (drawRound adc s = s ∧ s.oled.nowPagePre = s.oled.nowPage ∧ s.oled.reflashFlag ≠ yes) := by
  unfold drawRound drawnPage
  dsimp only
  by_cases hnew : s.oled.nowPagePre ≠ s.oled.nowPage
  · rw [if_pos hnew]
    obtain ⟨hwatch, hstack, hselect⟩ := pageSetting_drawn s.oled.nowPage s.oled
    obtain ⟨hwatch', hdone, hflag, hstack'⟩ := pageProgram_drew adc s.oled.nowPage
      { s with oled := pageSetting s.oled.nowPage s.oled }
    rw [hselect, hstack] at hstack'
    exact .inl ⟨⟨hwatch.trans ⟨hwatch'.1, hwatch'.2, hwatch'.3, hwatch'.4⟩, hdone, hflag, hstack'⟩,
      rfl⟩
  · rw [if_neg hnew]
    by_cases hflag : s.oled.reflashFlag = yes
    · rw [if_pos hflag]
      obtain ⟨hwatch, hdone, hdone', hstack⟩ := pageProgram_drew adc s.oled.nowPage s
      exact .inl ⟨⟨⟨hwatch.1, hwatch.2, hwatch.3, hwatch.4⟩, hdone, hdone', hstack⟩, rfl⟩
    · rw [if_neg hflag]
      exact .inr ⟨rfl, not_not.mp hnew, hflag⟩

-- ---------------------------------------------------------------------------
-- Turns
-- ---------------------------------------------------------------------------

/-- The watch finds that a minute has passed since the last press. -/
def Overdue (t : OledTask) : Prop := t.oled.backlightTime + 60 < t.module.timeRun

instance decidableOverdue (t : OledTask) : Decidable (Overdue t) :=
  inferInstanceAs (Decidable (_ < _))

/-- What the watch leaves. -/
structure WatchRound (t t' : OledTask) : Prop where
  module : t'.module = t.module
  backlightTime : t'.oled.backlightTime = t.oled.backlightTime
  started : t'.oled.started = t.oled.started
  time1S : t'.oled.time1S = t.oled.time1S
  nowPagePre : t'.oled.nowPagePre = t.oled.nowPagePre
  select : t'.oled.pageSelect.select = t.oled.pageSelect.select
  reflashFlag : t.oled.reflashFlag = yes → t'.oled.reflashFlag = yes
  stack : t'.oled.pageInfor = if Overdue t then t.oled.pageInfor >>> 8 else t.oled.pageInfor
  lcdBk : t'.oled.lcdBk = if Overdue t then no else t.oled.lcdBk

theorem watchRound_spec (nowPage : U8) (t : OledTask) : WatchRound t (watchRound nowPage t) := by
  unfold watchRound monitorBackLight
  by_cases h : Overdue t
  · have hpassed : t.oled.backlightTime + 60 < t.module.timeRun := h
    simp only [hpassed, if_true]
    split
    · exact ⟨rfl, rfl, rfl, rfl, rfl, rfl, fun _ => rfl, (if_pos h).symm, (if_pos h).symm⟩
    · exact ⟨rfl, rfl, rfl, rfl, rfl, rfl, fun hflag => hflag, (if_pos h).symm, (if_pos h).symm⟩
  · have hnot : ¬t.oled.backlightTime + 60 < t.module.timeRun := h
    simp only [hnot, if_false]
    split
    · exact ⟨rfl, rfl, rfl, rfl, rfl, rfl, fun _ => rfl, (if_neg h).symm, (if_neg h).symm⟩
    · exact ⟨rfl, rfl, rfl, rfl, rfl, rfl, fun hflag => hflag, (if_neg h).symm, (if_neg h).symm⟩

theorem run_display_timeRun {events : List Event} (h : ∀ e ∈ events, e.OfDisplay) (m : Module) :
    (run events m).timeRun = m.timeRun := by
  induction events generalizing m with
  | nil => rfl
  | cons e rest ih =>
    refine (ih (fun e he => h e (List.mem_cons_of_mem _ he)) _).trans ?_
    have hdisplay := h e List.mem_cons_self
    cases e with
    | homePage adc => rfl
    | settingPage page => exact (settingPage_menuOnly page m).bystander.timeRun
    | _ => exact hdisplay.elim

theorem drawRound_timeRun {t : OledTask} (h : Navigation t) (hpre : NoTimePage t) (adc : Adc) :
    (drawRound adc t).module.timeRun = t.module.timeRun := by
  rw [(drawRound_module h hpre adc).1]
  refine run_display_timeRun ?_ t.module
  intro e he
  repeat' split at he
  · rw [List.mem_singleton.mp he]
    trivial
  · rw [List.mem_singleton.mp he]
    trivial
  · cases he

/-- What holds of the display whenever its thread is about to run: its timer is within
its limit, an Enter is drawn at the next turn, and no press is to come. -/
structure Watched (t : OledTask) : Prop where
  navigation : Navigation t
  noTimePage : NoTimePage t
  limit : t.oled.time1S.toNat ≤ 10
  select : t.oled.pageSelect.select = yes → t.oled.reflashFlag = yes
  time : t.oled.backlightTime ≤ t.module.timeRun

/-- A round up to the watch. -/
def beforeWatch (adc : Adc) (t : OledTask) : OledTask :=
  drawRound adc { t with oled.time1S := (timerTask t.oled.time1S 10).1 }

/-- A round draws, and comes to the watch when its timer is due. -/
theorem oledEntry_started (h : t.oled.started = true) (adc : Adc) :
    oledEntry adc t = if (timerTask t.oled.time1S 10).2 = yes then
      watchRound t.oled.nowPage (beforeWatch adc t) else beforeWatch adc t := by
  unfold oledEntry
  rw [if_pos h]
  rfl

/-- Before the watch an Enter has been seen to. -/
structure BeforeWatch (t t' : OledTask) : Prop where
  timeRun : t'.module.timeRun = t.module.timeRun
  backlightTime : t'.oled.backlightTime = t.oled.backlightTime
  lcdBk : t'.oled.lcdBk = t.oled.lcdBk
  started : t'.oled.started = t.oled.started
  time1S : t'.oled.time1S = (timerTask t.oled.time1S 10).1
  select : t'.oled.pageSelect.select ≠ yes
  nowPagePre : t'.oled.nowPagePre = t.oled.nowPage
  stack : t.oled.pageSelect.select ≠ yes → t'.oled.pageInfor = t.oled.pageInfor

theorem Watched.beforeWatch (h : Watched t) (adc : Adc) : BeforeWatch t (beforeWatch adc t) := by
  obtain ⟨hstack, hlimits, hlow, hhigh, hwindow⟩ := h.navigation
  have htime := drawRound_timeRun (t := { t with oled.time1S := (timerTask t.oled.time1S 10).1 })
    ⟨hstack, hlimits, hlow, hhigh, hwindow⟩ h.noTimePage adc
  unfold Hvac.beforeWatch
  obtain ⟨⟨⟨hback, hlight, hstarted, htimer⟩, hselect, -, hkept⟩, hpre⟩ | ⟨hsame, hpre, hflag⟩ :=
    drawRound_cases adc { t with oled.time1S := (timerTask t.oled.time1S 10).1 }
  · refine ⟨htime, hback, hlight, hstarted, htimer, ?_, hpre, hkept⟩
    rw [hselect]
    decide
  · rw [hsame]
    exact ⟨rfl, rfl, rfl, rfl, rfl, fun hselect => hflag (h.select hselect), hpre, fun _ => rfl⟩

/-- The time passes with the second's work and stands still otherwise. -/
theorem step_timeRun (hboot : e ≠ .reboot) (m : Module) :
    (step e m).timeRun = if e matches .timeRunning then m.timeRun + 1 else m.timeRun := by
  cases e with
  | timeRunning => rfl
  | controlProgram adc => exact (controlProgram_thermostatOnly adc m).bystander.timeRun
  | reboot => exact absurd rfl hboot
  | _ => exact (step_between ⟨by simp, by simp, by simp⟩ m).2.2

theorem step_timeRun_le (hboot : e ≠ .reboot) (m : Module) :
    m.timeRun ≤ (step e m).timeRun := by
  rw [step_timeRun hboot]
  split
  · exact Nat.le_succ _
  · exact Nat.le_refl _

theorem timerTask_limit (h : time.toNat ≤ limit) (hlimit : limit < 65536) :
    (timerTask time (BitVec.ofNat 16 limit)).1.toNat ≤ limit := by
  obtain ⟨hcount, -⟩ := timerTask_eq_call time (BitVec.ofNat 16 limit)
  rw [BitVec.toNat_ofNat, Nat.mod_eq_of_lt hlimit] at hcount
  exact hcount.trans_le (Prescaler.call_position h).1

/-- The select flag is raised with the refresh flag, and the time of a press is now. -/
theorem Watched.oledStep (h : Watched t) (e : OledEvent) : Watched (oledStep e t) := by
  have hnav := h.navigation.oledStep e
  have hno := (oledStep_module h.navigation h.noTimePage e).2
  have ⟨_, _, hlimit, hselect, htime⟩ := h
  cases e with
  | enterBtn type =>
    cases type with
    | nullPress => exact ⟨hnav, hno, hlimit, hselect, htime⟩
    | shortPress => exact ⟨hnav, hno, hlimit, fun _ => rfl, Nat.le_refl _⟩
    | longPress => exact ⟨hnav, hno, hlimit, fun _ => rfl, htime⟩
  | upBtn type =>
    cases type with
    | shortPress => exact ⟨hnav, hno, hlimit, fun _ => rfl, Nat.le_refl _⟩
    | _ => exact ⟨hnav, hno, hlimit, hselect, htime⟩
  | downBtn type =>
    cases type with
    | shortPress => exact ⟨hnav, hno, hlimit, fun _ => rfl, Nat.le_refl _⟩
    | _ => exact ⟨hnav, hno, hlimit, hselect, htime⟩
  | other e hforeign =>
    by_cases hboot : e = .reboot
    · subst hboot
      exact ⟨hnav, hno, Nat.zero_le _, (fun hyes => nomatch hyes), Nat.zero_le _⟩
    · rw [oledStep_other hforeign hboot] at hnav hno ⊢
      exact ⟨hnav, hno, hlimit, hselect, htime.trans (step_timeRun_le hboot t.module)⟩
  | oledEntry adc =>
    by_cases hstart : t.oled.started = true
    · obtain ⟨hrun, hback, -, -, htimer, hselect', -, -⟩ := h.beforeWatch adc
      have hlimit' : (Hvac.beforeWatch adc t).oled.time1S.toNat ≤ 10 := by
        rw [htimer]
        exact timerTask_limit hlimit (by decide)
      have htime' : (Hvac.beforeWatch adc t).oled.backlightTime ≤
          (Hvac.beforeWatch adc t).module.timeRun := by
        rw [hback, hrun]
        exact htime
      simp only [Hvac.oledStep, oledEntry_started hstart] at hnav hno ⊢
      by_cases hdue : (timerTask t.oled.time1S 10).2 = yes
      · rw [if_pos hdue] at hnav hno ⊢
        have hwatch := watchRound_spec t.oled.nowPage (Hvac.beforeWatch adc t)
        refine ⟨hnav, hno, ?_, fun hyes => ?_, ?_⟩
        · rwa [hwatch.time1S]
        · exact absurd (hwatch.select.symm.trans hyes) hselect'
        · rwa [hwatch.backlightTime, hwatch.module]
      · rw [if_neg hdue] at hnav hno ⊢
        exact ⟨hnav, hno, hlimit', fun hyes => absurd hyes hselect', htime'⟩
    · have hfirst : Hvac.oledEntry adc t = oledStart t := if_neg hstart
      simp only [Hvac.oledStep, hfirst] at hnav hno ⊢
      exact ⟨hnav, hno, hlimit, hselect, Nat.le_refl _⟩

/-- The location flag is none of the display's business. -/
theorem Watched.withLocation (h : Watched t) (flag : Bool) :
    Watched { t with module := t.module.withLocation flag } := by
  obtain ⟨⟨hstack, hlimits, hlow, hhigh, hwindow⟩, hno, hlimit, hselect, htime⟩ := h
  exact ⟨⟨hstack, hlimits, hlow, hhigh, hwindow⟩, hno, hlimit, hselect, htime⟩

theorem watched_start (flash : List U8) (rtc : Rtc) (uniqueId : Fin 12 → U8) :
    Watched (Firmware.start flash rtc uniqueId).display :=
  ⟨.boot rfl, show (0 : U8) ≠ timeSelectPageNumber by decide, Nat.zero_le _,
    (fun hyes => nomatch hyes), Nat.zero_le _⟩

/-- An event of the firmware is for the display a step of its own, if not of the LED. -/
theorem firmwareStep_display {P : OledTask → Prop} (hstep : ∀ e t, P t → P (oledStep e t))
    (hled : ∀ flag t, P t → P { t with module := t.module.withLocation flag })
    (e : FirmwareEvent) (s : Firmware) (h : P s.display) : P (firmwareStep e s).display := by
  cases e with
  | input chunk => exact hstep (.other (.input chunk) id) s.display h
  | rtcTick rtc => exact hstep (.other (.rtcTick rtc) id) s.display h
  | oled adc => exact hstep (.oledEntry adc) s.display h
  | reboot => exact hstep (.other .reboot id) s.display h
  | button reads =>
    have hcall (index : Fin 3) (type : PressType) (t : OledTask) (h : P t) :
        P (Firmware.callBack index type t) := by
      match index with
      | 0 => exact hstep (.enterBtn type) t h
      | 1 => exact hstep (.upBtn type) t h
      | 2 => exact hstep (.downBtn type) t h
    exact List.foldlRecOn _ _ h fun t ht index _ => hcall index _ t ht
  | main adc =>
    cases hat : s.mainAt with
    | round =>
      obtain ⟨flag, hm⟩ := ledProgram_module 20 { module := s.module, led := s.led }
      have hdisplay : (firmwareStep (.main adc) s).display =
          { s.display with module := s.module.withLocation flag } := by
        simp only [firmwareStep, Firmware.mainTurn, hat, Firmware.display, hm]
        rfl
      rw [hdisplay]
      exact hled flag s.display h
    | timeRunning =>
      simp only [firmwareStep, Firmware.mainTurn, hat]
      exact hstep (.other .timeRunning id) s.display h
    | controlProgram =>
      simp only [firmwareStep, Firmware.mainTurn, hat]
      exact hstep (.other (.controlProgram adc) id) s.display h
    | monitorConnectedState =>
      simp only [firmwareStep, Firmware.mainTurn, hat]
      exact hstep (.other .monitorConnectedState id) s.display h
  | uart alloc ops =>
    cases hat : s.uartAt with
    | round =>
      simp only [firmwareStep, Firmware.uartTurn, hat]
      exact hstep (.other (.poll alloc) id) s.display h
    | every10s =>
      simp only [firmwareStep, Firmware.uartTurn, hat]
      exact hstep (.other (.every10s alloc.calloc ops) id) s.display h

theorem FirmwareReachable.watched (h : FirmwareReachable s) : Watched s.display := by
  refine Machine.Reachable.invariant (P := fun s => Watched (Firmware.display s)) h ?_ ?_
  · rintro _ ⟨flash, rtc, uniqueId, rfl⟩
    exact watched_start flash rtc uniqueId
  · exact firmwareStep_display (fun e _ h => h.oledStep e) fun flag _ h => h.withLocation flag

-- ---------------------------------------------------------------------------
-- The seconds of the main loop
-- ---------------------------------------------------------------------------

def FirmwareEvent.isMain : FirmwareEvent → Bool
  | .main _ => true
  | _ => false

def FirmwareEvent.isOled : FirmwareEvent → Bool
  | .oled _ => true
  | _ => false

def mainTurns : List FirmwareEvent → Firmware → Nat :=
  Machine.counted firmwareStep fun e _ => e.isMain

def oledTurns : List FirmwareEvent → Firmware → Nat :=
  Machine.counted firmwareStep fun e _ => e.isOled

/-- The turns of `main` to a second: 51 rounds of the loop and the calls of the second. -/
def secondTurns : Nat := 54

/-- How far `main` is in its second. The time is counted at the turn before the last but
one, and the position is counted from there. -/
def Firmware.mainPosition (s : Firmware) : Nat :=
  match s.mainAt with
  | .round => s.mainTime1S.toNat + 2
  | .timeRunning => 53
  | .controlProgram => 0
  | .monitorConnectedState => 1

structure MainTimed (s : Firmware) : Prop where
  limit : s.mainTime1S.toNat ≤ 50
  due : s.mainAt ≠ .round → s.mainTime1S = 0

/-- All turns of `main` that are counted in the time or in its position. -/
def Firmware.mainClock (s : Firmware) : Nat := s.module.timeRun * secondTurns + s.mainPosition

theorem MainTimed.position_lt (h : MainTimed s) : s.mainPosition < secondTurns := by
  have hlimit := h.limit
  unfold Firmware.mainPosition secondTurns
  split <;> omega

theorem MainTimed.mainTurn (h : MainTimed s) (adc : Adc) :
    MainTimed (s.mainTurn adc) ∧ (s.mainTurn adc).mainClock = s.mainClock + 1 := by
  obtain ⟨hlimit, hdue⟩ := h
  cases hat : s.mainAt with
  | timeRunning =>
    have hzero := hdue (by simp [hat])
    simp only [Firmware.mainTurn, Firmware.mainClock, Firmware.mainPosition, hat]
    refine ⟨⟨hlimit, fun _ => hzero⟩, ?_⟩
    simp [timeRunning, secondTurns, Nat.add_mul]
  | controlProgram =>
    have hzero := hdue (by simp [hat])
    simp only [Firmware.mainTurn, Firmware.mainClock, Firmware.mainPosition, hat]
    refine ⟨⟨hlimit, fun _ => hzero⟩, ?_⟩
    rw [(controlProgram_thermostatOnly adc s.module).bystander.timeRun]
  | monitorConnectedState =>
    have hzero := hdue (by simp [hat])
    simp only [Firmware.mainTurn, Firmware.mainClock, Firmware.mainPosition, hat]
    refine ⟨⟨hlimit, fun hnot => absurd rfl hnot⟩, ?_⟩
    simp [hzero]
  | round =>
    have hperiod : (1000 / 20 : U16) = 50 := by decide
    obtain ⟨hcount, hflag⟩ := timerTask_eq_call s.mainTime1S 50
    rw [show (50 : U16).toNat = 50 from rfl, Prescaler.call] at hcount hflag
    simp only [Firmware.mainTurn, Firmware.mainClock, Firmware.mainPosition, hat, hperiod,
      ledProgram_timeRun]
    split at hcount <;> rename_i hlt
    · have hquiet : ¬(timerTask s.mainTime1S 50).2 = yes := by
        rw [hflag, if_pos hlt]
        exact Bool.false_ne_true
      rw [if_neg hquiet]
      exact ⟨⟨hcount.trans_le hlt, fun hnot => absurd rfl hnot⟩, by simp only [hcount]; omega⟩
    · have hnow : (timerTask s.mainTime1S 50).2 = yes := by
        rw [hflag, if_neg hlt]
      rw [if_pos hnow]
      exact ⟨⟨hcount.trans_le (Nat.zero_le _), fun _ => BitVec.eq_of_toNat_eq hcount⟩,
        by simp only; omega⟩

/-- No button is pressed, and the power stays on. -/
def NoPress (e : FirmwareEvent) (s : Firmware) : Prop :=
  match e with
  | .button reads => ∀ index, (buttonStep reads s.buttonList index).type = .nullPress
  | .reboot => False
  | _ => True

instance decidableNoPress : (e : FirmwareEvent) → (s : Firmware) → Decidable (NoPress e s)
  | .button reads, s => inferInstanceAs
    (Decidable (∀ index, (buttonStep reads s.buttonList index).type = .nullPress))
  | .reboot, _ => inferInstanceAs (Decidable False)
  | .input _, _ | .rtcTick _, _ | .main _, _ | .uart _ _, _ | .oled _, _ =>
    inferInstanceAs (Decidable True)

/-- The callbacks of a round of the buttons, one after the other. -/
theorem buttonTurn_display (reads : PinReads) (s : Firmware) (P : OledTask → Prop)
    (hcall : ∀ index t, P t →
      P (Firmware.callBack index (buttonStep reads s.buttonList index).type t))
    (h : P s.display) : P (s.buttonTurn reads).display :=
  List.foldlRecOn _ _ h fun t ht index _ => hcall index t ht

theorem callBack_nullPress (index : Fin 3) (t : OledTask) :
    Firmware.callBack index .nullPress t = t := by
  match index with
  | 0 | 1 | 2 => rfl

theorem callBack_timeRun (index : Fin 3) (type : PressType) (t : OledTask) :
    (Firmware.callBack index type t).module.timeRun = t.module.timeRun := by
  match index with
  | 0 | 1 | 2 => cases type <;> rfl

theorem buttonTurn_timeRun (reads : PinReads) (s : Firmware) :
    (s.buttonTurn reads).module.timeRun = s.module.timeRun :=
  buttonTurn_display reads s (fun t => t.module.timeRun = s.module.timeRun)
    (fun index t ht => (callBack_timeRun index _ t).trans ht) rfl

/-- A round of the display keeps the time. -/
theorem Watched.oledEntry_timeRun (h : Watched t) (adc : Adc) :
    (oledEntry adc t).module.timeRun = t.module.timeRun := by
  by_cases hstart : t.oled.started = true
  · rw [oledEntry_started hstart]
    have hrun := (h.beforeWatch adc).timeRun
    split
    · rw [(watchRound_spec t.oled.nowPage (Hvac.beforeWatch adc t)).module]
      exact hrun
    · exact hrun
  · have hfirst : oledEntry adc t = oledStart t := if_neg hstart
    rw [hfirst]
    rfl

/-- No event but a turn of `main` moves its clock. -/
theorem MainTimed.step (h : MainTimed s) (hwatched : Watched s.display) (hboot : e ≠ .reboot) :
    MainTimed (firmwareStep e s) ∧
      (firmwareStep e s).mainClock = s.mainClock + e.isMain.toNat := by
  have hsame {s' : Firmware} (htimer : s'.mainTime1S = s.mainTime1S) (hat : s'.mainAt = s.mainAt)
      (htime : s'.module.timeRun = s.module.timeRun) :
      MainTimed s' ∧ s'.mainClock = s.mainClock := by
    obtain ⟨hlimit, hdue⟩ := h
    refine ⟨⟨?_, ?_⟩, ?_⟩
    · rwa [htimer]
    · rwa [htimer, hat]
    · simp only [Firmware.mainClock, Firmware.mainPosition, htimer, hat, htime]
  cases e with
  | main adc => exact h.mainTurn adc
  | reboot => exact absurd rfl hboot
  | input chunk => exact hsame rfl rfl rfl
  | rtcTick rtc => exact hsame rfl rfl rfl
  | oled adc => exact hsame rfl rfl (hwatched.oledEntry_timeRun adc)
  | button reads => exact hsame rfl rfl (buttonTurn_timeRun reads s)
  | uart alloc ops =>
    have hpoll : (uartPoll alloc s.module).timeRun = s.module.timeRun :=
      step_timeRun (e := .poll alloc) (by simp) s.module
    have hsave : (uartEvery10s alloc.calloc ops s.module).timeRun = s.module.timeRun :=
      step_timeRun (e := .every10s alloc.calloc ops) (by simp) s.module
    cases hat : s.uartAt with
    | round =>
      simp only [firmwareStep, Firmware.uartTurn, hat]
      exact hsame rfl rfl hpoll
    | every10s =>
      simp only [firmwareStep, Firmware.uartTurn, hat]
      exact hsame rfl rfl hsave

theorem FirmwareReachable.mainTimed (h : FirmwareReachable s) : MainTimed s := by
  obtain ⟨_, events, ⟨flash, rtc, uniqueId, rfl⟩, rfl⟩ := h
  induction events using List.reverseRecOn with
  | nil => exact ⟨Nat.zero_le _, fun _ => rfl⟩
  | append_singleton events e ih =>
    rw [Machine.run_append]
    by_cases hboot : e = .reboot
    · subst hboot
      exact ⟨Nat.zero_le _, fun _ => rfl⟩
    · exact (ih.step (FirmwareReachable.watched ⟨_, events, ⟨flash, rtc, uniqueId, rfl⟩, rfl⟩)
        hboot).1

/-- The clock of `main` over a run without a restart. -/
theorem FirmwareReachable.mainClock (h : FirmwareReachable s)
    (hon : Within firmwareStep (fun e _ => e ≠ .reboot) events s) :
    (firmwareRun events s).mainClock = s.mainClock + mainTurns events s := by
  induction events generalizing s with
  | nil => rfl
  | cons e rest ih =>
    have hclock := (h.mainTimed.step h.watched hon.1).2
    refine (ih (h.step e) hon.2).trans ?_
    rw [hclock, Nat.add_assoc]
    rfl

-- ---------------------------------------------------------------------------
-- Nobody presses
-- ---------------------------------------------------------------------------

theorem NoPress.ne_reboot (h : NoPress e s) : e ≠ .reboot := by
  rintro rfl
  exact h

/-- The buttons leave the display alone. -/
theorem NoPress.oled (h : NoPress e s) (hnot : e.isOled = false) :
    (firmwareStep e s).oled = s.oled := by
  cases e with
  | input chunk => rfl
  | rtcTick rtc => rfl
  | reboot => exact h.elim
  | oled adc => cases hnot
  | main adc => cases hat : s.mainAt <;> simp only [firmwareStep, Firmware.mainTurn, hat]
  | uart alloc ops => cases hat : s.uartAt <;> simp only [firmwareStep, Firmware.uartTurn, hat]
  | button reads =>
    have hsame := buttonTurn_display reads s (· = s.display) (fun index t ht => by
      rw [h index, callBack_nullPress, ht]) rfl
    exact congrArg OledTask.oled hsame

/-- What a round of the display leaves, in terms of the round before. -/
structure OledRound (t t' : OledTask) : Prop where
  backlightTime : t'.oled.backlightTime = t.oled.backlightTime
  started : t'.oled.started = true
  select : t'.oled.pageSelect.select ≠ yes
  nowPagePre : t'.oled.nowPagePre = t.oled.nowPage

theorem Watched.round (h : Watched t) (hstart : t.oled.started = true) (adc : Adc) :
    OledRound t (oledEntry adc t) := by
  obtain ⟨-, hback, -, hstarted, -, hselect, hpre, -⟩ := h.beforeWatch adc
  rw [oledEntry_started hstart]
  split
  · have hwatch := watchRound_spec t.oled.nowPage (Hvac.beforeWatch adc t)
    refine ⟨hwatch.backlightTime.trans hback, hwatch.started.trans (hstarted.trans hstart), ?_,
      hwatch.nowPagePre.trans hpre⟩
    rwa [hwatch.select]
  · exact ⟨hback, hstarted.trans hstart, hselect, hpre⟩

/-- The display runs, and the last press was at this time. -/
structure Idle (last : Nat) (s : Firmware) : Prop where
  reachable : FirmwareReachable s
  started : s.oled.started = true
  pressed : s.oled.backlightTime = last

theorem Idle.step (h : Idle last s) (hg : NoPress e s) : Idle last (firmwareStep e s) := by
  obtain ⟨hreach, hstart, hpressed⟩ := h
  cases holed : e.isOled with
  | false =>
    have hsame := hg.oled holed
    exact ⟨hreach.step e, by rwa [hsame], by rwa [hsame]⟩
  | true =>
    cases e with
    | oled adc =>
      obtain ⟨hback, hstarted, -, -⟩ := hreach.watched.round hstart adc
      exact ⟨hreach.step _, hstarted, hback.trans hpressed⟩
    | _ => cases holed

theorem Idle.run (h : Idle last s) (hg : Within firmwareStep NoPress events s) :
    Idle last (firmwareRun events s) := by
  induction events generalizing s with
  | nil => exact h
  | cons e rest ih => exact ih (h.step hg.1) hg.2

theorem timeRun_le_step (hreach : FirmwareReachable s) (hboot : e ≠ .reboot) :
    s.module.timeRun ≤ (firmwareStep e s).module.timeRun := by
  have hposition := hreach.mainTimed.position_lt
  have hposition' := (hreach.step e).mainTimed.position_lt
  have hclock := (hreach.mainTimed.step hreach.watched hboot).2
  unfold Firmware.mainClock secondTurns at *
  omega

/-- The light is off, and nothing but the home page is on the stack. -/
structure Dark (o : OledStatics) : Prop where
  light : o.lcdBk = no
  stack : o.pageInfor = 0
  select : o.pageSelect.select ≠ yes

structure Out (last : Nat) (s : Firmware) : Prop where
  idle : Idle last s
  overdue : last + 60 < s.module.timeRun

theorem Out.step (h : Out last s) (hg : NoPress e s) : Out last (firmwareStep e s) :=
  ⟨h.idle.step hg, h.overdue.trans_le (timeRun_le_step h.idle.reachable hg.ne_reboot)⟩

theorem Out.overdue_display (h : Out last s) : Overdue s.display := by
  have hpressed := h.idle.pressed
  have hover := h.overdue
  show s.oled.backlightTime + 60 < s.module.timeRun
  rwa [hpressed]

/-- The page that is left is the only one over the home page. -/
theorem Navigation.popped (h : Navigation t) : t.oled.pageInfor >>> 8 = 0 := by
  obtain hzero | ⟨-, hone⟩ := h.stack
  · rw [hzero]
    rfl
  · rw [hone]
    rfl

/-- A dark display stays dark in a round, and the home page is drawn. -/
theorem Dark.oledEntry (h : Dark t.oled) (hwatched : Watched t) (hstart : t.oled.started = true)
    (adc : Adc) :
    Dark (oledEntry adc t).oled ∧ (oledEntry adc t).oled.nowPagePre = homePageNumber := by
  obtain ⟨hlight, hstack, hselect⟩ := h
  obtain ⟨-, -, hlight', -, -, -, -, hkept⟩ := hwatched.beforeWatch adc
  obtain ⟨-, -, hselect', hpre⟩ := hwatched.round hstart adc
  have hhome : t.oled.nowPage = homePageNumber := by
    rw [OledStatics.nowPage, hstack]
    rfl
  have hbefore := (hkept hselect).trans hstack
  refine ⟨⟨?_, ?_, hselect'⟩, hpre.trans hhome⟩ <;> rw [oledEntry_started hstart] <;> split
  · rw [(watchRound_spec t.oled.nowPage (Hvac.beforeWatch adc t)).lcdBk, hlight', hlight, ite_self]
  · exact hlight'.trans hlight
  · rw [(watchRound_spec t.oled.nowPage (Hvac.beforeWatch adc t)).stack, hbefore]
    split <;> rfl
  · exact hbefore

/-- When the watch is due, the display goes dark. -/
theorem Watched.goesDark (h : Watched t) (hstart : t.oled.started = true) (hover : Overdue t)
    (hdue : (timerTask t.oled.time1S 10).2 = yes) (adc : Adc) : Dark (oledEntry adc t).oled := by
  obtain ⟨hstack, hlimits, hlow, hhigh, hwindow⟩ := h.navigation
  have hnext : Navigation (Hvac.beforeWatch adc t) := Navigation.drawRound
    (s := { t with oled.time1S := (timerTask t.oled.time1S 10).1 })
    ⟨hstack, hlimits, hlow, hhigh, hwindow⟩ hstart adc
  obtain ⟨htime, hback, -, -, -, -, -, -⟩ := h.beforeWatch adc
  have hover' : Overdue (Hvac.beforeWatch adc t) := by
    show _ + 60 < _
    rwa [hback, htime]
  obtain ⟨-, -, hselect, -⟩ := h.round hstart adc
  have hwatch := watchRound_spec t.oled.nowPage (Hvac.beforeWatch adc t)
  refine ⟨?_, ?_, hselect⟩ <;> rw [oledEntry_started hstart, if_pos hdue]
  · rw [hwatch.lcdBk, if_pos hover']
  · rw [hwatch.stack, if_pos hover']
    exact hnext.popped

instance decidableDark (o : OledStatics) : Decidable (Dark o) :=
  decidable_of_iff (o.lcdBk = no ∧ o.pageInfor = 0 ∧ o.pageSelect.select ≠ yes)
    ⟨fun ⟨hlight, hstack, hselect⟩ => ⟨hlight, hstack, hselect⟩,
      fun ⟨hlight, hstack, hselect⟩ => ⟨hlight, hstack, hselect⟩⟩

/-- Rounds until the display is dark, less one. -/
def roundsToDark (o : OledStatics) : Nat := if Dark o then 0 else 11 - o.time1S.toNat

/-- A round of a display that is not dark brings it nearer to that. -/
theorem Out.round (h : Out last s) (hdark : ¬Dark s.oled) (adc : Adc) :
    roundsToDark (oledEntry adc s.display).oled + 1 ≤ roundsToDark s.oled := by
  have hwatched := h.idle.reachable.watched
  have hlimit : s.oled.time1S.toNat ≤ 10 := hwatched.limit
  obtain ⟨hcount, hflag⟩ := timerTask_eq_call s.oled.time1S 10
  rw [show (10 : U16).toNat = 10 from rfl, Prescaler.call] at hcount hflag
  have hrank : roundsToDark s.oled = 11 - s.oled.time1S.toNat := if_neg hdark
  rw [hrank]
  by_cases hdue : (timerTask s.oled.time1S 10).2 = yes
  · have hnext := hwatched.goesDark h.idle.started h.overdue_display hdue adc
    rw [roundsToDark, if_pos hnext]
    omega
  · have hlt : s.oled.time1S.toNat < 10 := by
      by_contra hnot
      rw [if_neg hnot] at hflag
      exact hdue (hflag.mpr rfl)
    rw [if_pos hlt] at hcount
    have hentry : oledEntry adc s.display = Hvac.beforeWatch adc s.display := by
      rw [oledEntry_started h.idle.started]
      exact if_neg hdue
    have htimer : (oledEntry adc s.display).oled.time1S.toNat = s.oled.time1S.toNat + 1 := by
      rw [hentry, (hwatched.beforeWatch adc).time1S]
      exact hcount
    unfold roundsToDark
    split <;> omega

/-- The home page of a dark display. -/
structure Home (last : Nat) (s : Firmware) : Prop where
  out : Out last s
  dark : Dark s.oled
  drawn : s.oled.nowPagePre = homePageNumber

theorem Home.step (h : Home last s) (hg : NoPress e s) : Home last (firmwareStep e s) := by
  obtain ⟨hout, hdark, hdrawn⟩ := h
  have hnext := hout.step hg
  cases holed : e.isOled with
  | false =>
    have hsame := hg.oled holed
    exact ⟨hnext, by rwa [hsame], by rwa [hsame]⟩
  | true =>
    cases e with
    | oled adc =>
      obtain ⟨hdark', hdrawn'⟩ := hdark.oledEntry hout.idle.reachable.watched hout.idle.started adc
      exact ⟨hnext, hdark', hdrawn'⟩
    | _ => cases holed

theorem Out.darker (h : Out last s) (hg : NoPress e s) :
    Home last (firmwareStep e s) ∨ Out last (firmwareStep e s) ∧
      roundsToDark (firmwareStep e s).oled + e.isOled.toNat ≤ roundsToDark s.oled := by
  have hnext := h.step hg
  cases holed : e.isOled with
  | false =>
    refine .inr ⟨hnext, ?_⟩
    rw [hg.oled holed]
    exact Nat.le_refl _
  | true =>
    cases e with
    | oled adc =>
      by_cases hdark : Dark s.oled
      · obtain ⟨hdark', hdrawn'⟩ := hdark.oledEntry h.idle.reachable.watched h.idle.started adc
        exact .inl ⟨hnext, hdark', hdrawn'⟩
      · exact .inr ⟨hnext, h.round hdark adc⟩
    | _ => cases holed

/-- From any reachable state in which the display's thread is in its loop, and with no power
cycle from there on: when no button has been pressed for 61 seconds of `main`, and then for
12 rounds of the display, the light is off, the settings are left and the home page is what
is drawn. The order of the threads' turns and what is received are free. -/
theorem unpressed_goes_dark (s : Firmware) (minute after : List FirmwareEvent)
    (hreach : FirmwareReachable s) (hstarted : s.oled.started = true)
    (h : Within firmwareStep NoPress (minute ++ after) s)
    (hmain : 61 * secondTurns ≤ mainTurns minute s)
    (holed : 12 ≤ oledTurns after (firmwareRun minute s)) :
    let s' := firmwareRun (minute ++ after) s
    s'.oled.lcdBk = no ∧ s'.oled.pageInfor = 0 ∧ s'.oled.nowPagePre = homePageNumber := by
  intro s'
  obtain ⟨hminute, hafter⟩ := Machine.within_append.mp h
  have hidle : Idle s.oled.backlightTime s := ⟨hreach, hstarted, rfl⟩
  have hlater := hidle.run hminute
  have hpressed : s.oled.backlightTime ≤ s.module.timeRun := hreach.watched.time
  have hclock := hreach.mainClock (hminute.mono fun _ _ h => h.ne_reboot)
  have hposition := hlater.reachable.mainTimed.position_lt
  unfold Firmware.mainClock secondTurns at *
  have hover : s.oled.backlightTime + 60 < (firmwareRun minute s).module.timeRun := by omega
  have hrank :
      roundsToDark (firmwareRun minute s).oled < oledTurns after (firmwareRun minute s) := by
    refine Nat.lt_of_le_of_lt (?_ : _ ≤ 11) holed
    unfold roundsToDark
    split <;> omega
  have hreached := Machine.Within.reaches firmwareSends (Out s.oled.backlightTime)
    (Home s.oled.backlightTime) (fun _ => False) (fun s => roundsToDark s.oled) hafter
    (fun _ _ hg hhome => .inl (hhome.step hg))
    (fun _ _ hg hout => (hout.darker hg).imp_right .inr) ⟨hlater, hover⟩ hrank
  obtain ⟨hout, ⟨hlight, hstack, -⟩, hdrawn⟩ | ⟨_, -, hfalse⟩ := hreached
  · rw [← Machine.run_append] at hlight hstack hdrawn
    exact ⟨hlight, hstack, hdrawn⟩
  · exact hfalse.elim

/-- The display of a module that has just been given power. -/
def litDisplay : Firmware := firmwareStep (.oled noConverter) firstPower

theorem litDisplay_reachable : FirmwareReachable litDisplay :=
  ⟨firstPower, [.oled noConverter], ⟨_, _, _, rfl⟩, rfl⟩

def quietSeconds : List FirmwareEvent := List.replicate (61 * secondTurns) (.main noConverter)

def quietRounds : List FirmwareEvent := List.replicate 12 (.oled noConverter)

theorem unpressed_goes_dark_alone :
    let s' := firmwareRun (quietSeconds ++ quietRounds) litDisplay
    s'.oled.lcdBk = no ∧ s'.oled.pageInfor = 0 ∧ s'.oled.nowPagePre = homePageNumber :=
  unpressed_goes_dark litDisplay quietSeconds quietRounds litDisplay_reachable
    (by decide +kernel) (by decide +kernel) (by decide +kernel) (by decide +kernel)

-- ---------------------------------------------------------------------------
-- Somebody presses
-- ---------------------------------------------------------------------------

/-- The light is on, and there was a press at this time or after it. -/
structure Lit (since : Nat) (o : OledStatics) : Prop where
  light : o.lcdBk = yes
  pressed : since ≤ o.backlightTime

/-- A callback lights the display up if the press was short, and never turns it off. -/
theorem Lit.callBack (h : Lit since t.oled) (hsince : since ≤ t.module.timeRun) (index : Fin 3)
    (type : PressType) : Lit since (Firmware.callBack index type t).oled := by
  obtain ⟨hlight, hpressed⟩ := h
  match index with
  | 0 | 1 | 2 =>
    cases type with
    | shortPress => exact ⟨rfl, hsince⟩
    | longPress => exact ⟨hlight, hpressed⟩
    | nullPress => exact ⟨hlight, hpressed⟩

theorem Lit.oledEntry (h : Lit since t.oled) (hwatched : Watched t)
    (htime : t.module.timeRun ≤ since + 60) (hsince : since ≤ t.module.timeRun) (adc : Adc) :
    Lit since (oledEntry adc t).oled := by
  obtain ⟨hlight, hpressed⟩ := h
  by_cases hstart : t.oled.started = true
  · obtain ⟨hrun, hback, hlight', -, -, -, -, -⟩ := hwatched.beforeWatch adc
    have hwatch := watchRound_spec t.oled.nowPage (Hvac.beforeWatch adc t)
    have hnot : ¬Overdue (Hvac.beforeWatch adc t) := by
      unfold Overdue
      omega
    rw [oledEntry_started hstart]
    split
    · refine ⟨?_, ?_⟩
      · rw [hwatch.lcdBk, if_neg hnot, hlight', hlight]
      · rwa [hwatch.backlightTime, hback]
    · exact ⟨hlight'.trans hlight, by rwa [hback]⟩
  · have hfirst : Hvac.oledEntry adc t = oledStart t := if_neg hstart
    rw [hfirst]
    exact ⟨rfl, hsince⟩

theorem Lit.step (h : Lit since s.oled) (hreach : FirmwareReachable s)
    (htime : s.module.timeRun ≤ since + 60) (hsince : since ≤ s.module.timeRun)
    (hboot : e ≠ .reboot) : Lit since (firmwareStep e s).oled := by
  cases e with
  | input chunk => exact h
  | rtcTick rtc => exact h
  | reboot => exact absurd rfl hboot
  | oled adc => exact h.oledEntry hreach.watched htime hsince adc
  | main adc =>
    cases hat : s.mainAt <;> simp only [firmwareStep, Firmware.mainTurn, hat] <;> exact h
  | uart alloc ops =>
    cases hat : s.uartAt <;> simp only [firmwareStep, Firmware.uartTurn, hat] <;> exact h
  | button reads =>
    have hkept := buttonTurn_display reads s
      (fun t => since ≤ t.module.timeRun ∧ Lit since t.oled) (fun index t ht =>
        ⟨(callBack_timeRun index _ t).ge.trans' ht.1, ht.2.callBack ht.1 index _⟩) ⟨hsince, h⟩
    exact hkept.2

theorem Lit.run (h : Lit since s.oled) (hreach : FirmwareReachable s)
    (hon : Within firmwareStep (fun e _ => e ≠ .reboot) events s)
    (hclock : s.mainClock + mainTurns events s < (since + 61) * secondTurns)
    (hsince : since ≤ s.module.timeRun) : Lit since (firmwareRun events s).oled := by
  induction events generalizing s with
  | nil => exact h
  | cons e rest ih =>
    have hturns : mainTurns (e :: rest) s = e.isMain.toNat + mainTurns rest (firmwareStep e s) :=
      rfl
    have hstep := (hreach.mainTimed.step hreach.watched hon.1).2
    have htime : s.module.timeRun ≤ since + 60 := by
      unfold Firmware.mainClock secondTurns at *
      omega
    refine ih (h.step hreach htime hsince hon.1) (hreach.step e) hon.2 ?_
      (hsince.trans (timeRun_le_step hreach hon.1))
    rw [hstep, Nat.add_assoc, ← hturns]
    exact hclock

theorem callBack_shortPress (index : Fin 3) (t : OledTask) :
    Lit t.module.timeRun (Firmware.callBack index .shortPress t).oled := by
  match index with
  | 0 | 1 | 2 => exact ⟨rfl, Nat.le_refl _⟩

/-- One short press among the three is enough. -/
theorem buttonTurn_lit (reads : PinReads) (s : Firmware)
    (hpress : ∃ index, (buttonStep reads s.buttonList index).type = .shortPress) :
    Lit s.module.timeRun (s.buttonTurn reads).oled := by
  obtain ⟨index, htype⟩ := hpress
  have hcalls (indices : List (Fin 3)) (t : OledTask) (htime : t.module.timeRun = s.module.timeRun)
      (h : index ∈ indices ∨ Lit s.module.timeRun t.oled) :
      Lit s.module.timeRun (indices.foldl (fun t index =>
        Firmware.callBack index (buttonStep reads s.buttonList index).type t) t).oled := by
    induction indices generalizing t with
    | nil => exact h.resolve_left (List.not_mem_nil)
    | cons i rest ih =>
      refine ih _ ((callBack_timeRun i _ t).trans htime) ?_
      obtain hmem | hlit := h
      · obtain rfl | hrest := List.mem_cons.mp hmem
        · dsimp only
          rw [htype, ← htime]
          exact .inr (callBack_shortPress index t)
        · exact .inl hrest
      · exact .inr (hlit.callBack htime.ge i _)
  exact hcalls _ _ rfl (.inl (List.mem_finRange index))

/-- From any reachable state, whatever the threads do, the buttons included, and whatever is
received: the light that a short press has turned on is on for 60 seconds of `main`. -/
theorem press_lights_display (s : Firmware) (reads : PinReads) (events : List FirmwareEvent)
    (hreach : FirmwareReachable s)
    (hpress : ∃ index, (buttonStep reads s.buttonList index).type = .shortPress)
    (hon : Within firmwareStep (fun e _ => e ≠ .reboot) events (firmwareStep (.button reads) s))
    (hturns : mainTurns events (firmwareStep (.button reads) s) ≤ 60 * secondTurns) :
    (firmwareRun events (firmwareStep (.button reads) s)).oled.lcdBk = yes := by
  have hnext := hreach.step (.button reads)
  have htime : (firmwareStep (.button reads) s).module.timeRun = s.module.timeRun :=
    buttonTurn_timeRun reads s
  have hlit : Lit s.module.timeRun (firmwareStep (.button reads) s).oled :=
    buttonTurn_lit reads s hpress
  generalize firmwareStep (.button reads) s = s' at *
  refine (hlit.run hnext hon ?_ htime.ge).light
  have hposition := hnext.mainTimed.position_lt
  unfold Firmware.mainClock secondTurns at *
  omega

/-- What the pins read while Enter is down, and while it is up again. -/
def enterDown : PinReads := ⟨0, fun index => if index.val = 0 then 0 else 1⟩

def noneDown : PinReads := ⟨1, fun _ => 1⟩

/-- Enter is let go after four rounds. -/
def enterPressed : Firmware :=
  firmwareRun (List.replicate 2 (.button noneDown) ++ List.replicate 4 (.button enterDown))
    firstPower

theorem press_lights_display_alone :
    (firmwareRun (List.replicate (60 * secondTurns) (.main noConverter))
      (firmwareStep (.button noneDown) enterPressed)).oled.lcdBk = yes :=
  press_lights_display enterPressed noneDown _ ⟨firstPower, _, ⟨_, _, _, rfl⟩, rfl⟩
    (by decide +kernel)
    (Machine.Within.mono (fun _ _ h => NoPress.ne_reboot h)
      (show Within firmwareStep NoPress _ _ by decide +kernel))
    (by decide +kernel)


end Hvac
