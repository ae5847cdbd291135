import Hvac.MenuEdit
import Hvac.Oled

/-!
# The menu in its bounds

The cursor, its limits and the page they belong to are changed by the buttons
and by the display's thread, and the scroll window outlives the page. Whenever
the settings page runs all four agree, and it indexes its table of names inside.
-/

namespace Hvac

/-- The table `name` of `SettingPage`. -/
def settingNames : List String :=
  ["Module", "Mode", "Uint", "Day Point", "Night Point", "DeadBand", "Fan", "Temp From", "Date",
    "Time", "Day Start", "Day End"]

-- ---------------------------------------------------------------------------
-- The window
-- ---------------------------------------------------------------------------

structure MenuWindow.Inside (menu : MenuWindow) : Prop where
  first : 1 ≤ menu.min.toNat
  size : menu.max.toNat = menu.min.toNat + 4
  last : menu.max.toNat ≤ 12

theorem showMenu_bounds (cusor : U8) (hmin : 1 ≤ cusor.toNat) (hmax : cusor.toNat ≤ 18) :
    1 ≤ (showMenu cusor).toNat ∧ (showMenu cusor).toNat ≤ 12 := by
  obtain ⟨n, rfl⟩ : ∃ n : Fin 19, cusor = BitVec.ofNat 8 n :=
    ⟨⟨cusor.toNat, by omega⟩, by simp⟩
  revert n
  decide

theorem scroll_cases (show' : U8) (menu : MenuWindow) :
    (show'.toNat < menu.min.toNat ∧ (scroll show' menu).min = show') ∨
      (menu.max.toNat < show'.toNat ∧ (scroll show' menu).max = show') ∨
      scroll show' menu = menu := by
  unfold scroll
  simp only [gt_iff_lt, BitVec.lt_def]
  split
  · rename_i hlow
    exact .inl ⟨hlow, rfl⟩
  split
  · rename_i hhigh
    exact .inr (.inl ⟨hhigh, rfl⟩)
  · exact .inr (.inr rfl)

theorem MenuWindow.Inside.scroll (h : menu.Inside) (hmin : 1 ≤ show'.toNat)
    (hmax : show'.toNat ≤ 12) : (scroll show' menu).Inside := by
  obtain ⟨hfirst, hsize, hlast⟩ := h
  obtain ⟨hsize', hlow, hhigh⟩ := scroll_bounds hsize show'
  obtain ⟨hlt, heq⟩ | ⟨hlt, heq⟩ | heq := scroll_cases show' menu
  · have htop : (Hvac.scroll show' menu).min.toNat = show'.toNat := congrArg BitVec.toNat heq
    exact ⟨by omega, hsize', by omega⟩
  · have hbottom : (Hvac.scroll show' menu).max.toNat = show'.toNat := congrArg BitVec.toNat heq
    exact ⟨by omega, hsize', by omega⟩
  · rw [heq]
    exact ⟨hfirst, hsize, hlast⟩

theorem MenuWindow.Inside.mem_rows {menu : MenuWindow} (h : menu.Inside) (hi : i ∈ menu.rows) :
    0 ≤ i ∧ i < settingNames.length := by
  obtain ⟨hfirst, hsize, hlast⟩ := h
  rw [rows_eq] at hi
  obtain ⟨k, hk, rfl⟩ := List.mem_map.mp hi
  have hlength : settingNames.length = 12 := rfl
  rw [List.mem_range] at hk
  omega

-- ---------------------------------------------------------------------------
-- A pass of the page
-- ---------------------------------------------------------------------------

/-- A pass leaves the cursor where it is and the window where it has scrolled to. -/
theorem settingPage_navigation (page : TypePage) (m : Module) :
    (settingPage page m).1.cusor = page.cusor ∧
      (settingPage page m).2.menu = scroll (showMenu page.cusor) m.menu := by
  have hrows (rows : List Int) (s : SettingPass) :
      (rows.foldl (fun s i => settingRow i s) s).page.cusor = s.page.cusor ∧
        (rows.foldl (fun s i => settingRow i s) s).module.menu = s.module.menu := by
    induction rows generalizing s with
    | nil => exact ⟨rfl, rfl⟩
    | cons i rest ih =>
      obtain ⟨hcusor, hmenu⟩ := ih (settingRow i s)
      exact ⟨hcusor.trans (settingRow_cusor i s), hmenu.trans (settingRow_menu i s)⟩
  exact hrows _ (startPass page m)

/-- What a call of `SettingPage` in this state relies on. -/
structure MenuInBounds (s : OledTask) : Prop where
  cusor : 1 ≤ s.oled.pageSelect.cusor.toNat ∧ s.oled.pageSelect.cusor.toNat ≤ 18
  window : (scroll (showMenu s.oled.pageSelect.cusor) s.module.menu).Inside
  row : rowOf s.oled.pageSelect.cusor ∈
    (scroll (showMenu s.oled.pageSelect.cusor) s.module.menu).rows
  names : ∀ i ∈ (scroll (showMenu s.oled.pageSelect.cusor) s.module.menu).rows,
    0 ≤ i ∧ i < settingNames.length

-- ---------------------------------------------------------------------------
-- The invariant
-- ---------------------------------------------------------------------------

/-- The limits of the cursor on a page; before the first page there are none. -/
inductive CusorLimits : U8 → U8 → U8 → Prop
  | none : CusorLimits 0xFF 0 0
  | home : CusorLimits homePageNumber 1 1
  | setting : CusorLimits settingPageNumber 1 18

/-- The cursor has the limits of the page and is within them, the stack has at
most one page over the home page, and the window lies inside the table. -/
structure OnPage (page : U8) (s : OledTask) : Prop where
  stack : s.oled.pageInfor = 0 ∨ s.oled.started = true ∧ s.oled.pageInfor = 1
  limits : CusorLimits page s.oled.pageSelect.cusorHome s.oled.pageSelect.cusorMax
  low : s.oled.pageSelect.cusorHome.toNat ≤ s.oled.pageSelect.cusor.toNat
  high : s.oled.pageSelect.cusor.toNat ≤ s.oled.pageSelect.cusorMax.toNat
  window : s.module.menu.Inside

def Navigation (s : OledTask) : Prop := OnPage s.oled.nowPagePre s

/-- On the settings page the next pass is in bounds. -/
theorem OnPage.inBounds (h : OnPage settingPageNumber s) : MenuInBounds s := by
  have hlimits := h.limits
  have hlow := h.low
  have hhigh := h.high
  have hwindow := h.window
  generalize s.oled.pageSelect.cusorHome = home at *
  generalize s.oled.pageSelect.cusorMax = max at *
  cases hlimits with
  | setting =>
    have hone : (1 : U8).toNat = 1 := rfl
    have hlast : (18 : U8).toNat = 18 := rfl
    obtain ⟨hmin, hmax⟩ := showMenu_bounds s.oled.pageSelect.cusor (by omega) (by omega)
    have hinside := hwindow.scroll hmin hmax
    exact ⟨⟨by omega, by omega⟩, hinside, rowOf_mem_scroll hwindow.size _,
      fun i hi => hinside.mem_rows hi⟩

-- ---------------------------------------------------------------------------
-- What a page does to it
-- ---------------------------------------------------------------------------

theorem OnPage.backPage (h : OnPage page s) : OnPage page { s with oled := backPage s.oled } := by
  refine ⟨.inl ?_, h.limits, h.low, h.high, h.window⟩
  obtain hstack | ⟨-, hstack⟩ := h.stack
  · simp [Hvac.backPage, hstack]
  · simp [Hvac.backPage, hstack]

theorem OnPage.switchPage (h : OnPage page s) (page' : U8) : OnPage page (switchPage page' s) := by
  unfold Hvac.switchPage
  dsimp only
  repeat' split
  all_goals exact ⟨h.stack, h.limits, h.low, h.high, h.window⟩

theorem OnPage.atSettingPage (h : OnPage page s) : OnPage page (atSettingPage s) := by
  obtain ⟨hstack, hlimits, hlow, hhigh, hwindow⟩ := h.switchPage settingPageNumber
  unfold Hvac.atSettingPage toggleChange
  dsimp only
  repeat' split
  all_goals exact ⟨hstack, hlimits, hlow, hhigh, hwindow⟩

theorem OnPage.runSettingPage (h : OnPage settingPageNumber s) :
    OnPage settingPageNumber (runSettingPage s) := by
  obtain ⟨hcusor, hmenu⟩ :=
    settingPage_navigation s.oled.pageSelect.toTypePage s.module
  have hinside := h.inBounds.window
  refine ⟨h.stack, h.limits, ?_, ?_, ?_⟩
  · exact hcusor.symm ▸ h.low
  · exact hcusor.symm ▸ h.high
  · exact hmenu.symm ▸ hinside

/-- The settings are put on the stack only over the home page. -/
theorem OnPage.homeProgram (h : OnPage page s) (hstart : s.oled.started = true)
    (hstack : s.oled.pageInfor = 0) (adc : Adc) : OnPage page (homeProgram adc s) := by
  have hpush : (s.oled.pushPage settingPageNumber).pageInfor = 1 := by
    simp [OledStatics.pushPage, hstack, settingPageNumber]
  unfold Hvac.homeProgram
  dsimp only
  repeat' split
  · exact ⟨.inr ⟨hstart, hpush⟩, h.limits, h.low, h.high, h.window⟩
  · exact ⟨h.stack, h.limits, h.low, h.high, h.window⟩
  · exact ⟨h.stack, h.limits, h.low, h.high, h.window⟩

/-- The page on top: the home page alone, or the settings over it. -/
theorem OnPage.nowPage (h : OnPage page s) :
    (s.oled.nowPage = homePageNumber ∧ s.oled.pageInfor = 0) ∨
      (s.oled.nowPage = settingPageNumber ∧ s.oled.started = true) := by
  unfold OledStatics.nowPage
  obtain hstack | ⟨hstart, hstack⟩ := h.stack <;> rw [hstack]
  · exact .inl ⟨rfl, rfl⟩
  · exact .inr ⟨rfl, hstart⟩

theorem switchPage_stack (page : U8) (s : OledTask) :
    (switchPage page s).oled.pageInfor = s.oled.pageInfor ∧
      (switchPage page s).oled.started = s.oled.started := by
  unfold switchPage
  dsimp only
  repeat' split
  all_goals exact ⟨rfl, rfl⟩

/-- The end of `pageProgram`. -/
def pageDone (s : OledTask) : OledTask :=
  { s with oled := { s.oled with
    pageSelect := { s.oled.pageSelect with select := no }, reflashFlag := no } }

theorem pageProgram_home (adc : Adc) (s : OledTask) :
    pageProgram adc homePageNumber s =
      pageDone (homeProgram adc (switchPage homePageNumber s)) := by
  unfold pageProgram
  rw [if_pos rfl]
  rfl

theorem pageProgram_setting (adc : Adc) (s : OledTask) :
    pageProgram adc settingPageNumber s = pageDone (runSettingPage (atSettingPage s)) := by
  have hother : settingPageNumber ≠ homePageNumber := by decide
  unfold pageProgram
  rw [if_neg hother, if_pos rfl]
  rfl

theorem OnPage.pageDone (h : OnPage page s) : OnPage page (pageDone s) :=
  ⟨h.stack, h.limits, h.low, h.high, h.window⟩

theorem OnPage.pageProgram (h : OnPage page s) (hstart : s.oled.started = true)
    (hnow : page = s.oled.nowPage) (adc : Adc) : OnPage page (pageProgram adc page s) := by
  obtain ⟨hpage, hstack⟩ | ⟨hpage, -⟩ := h.nowPage
  · obtain rfl : page = homePageNumber := hnow.trans hpage
    obtain ⟨hstack', hstart'⟩ := switchPage_stack homePageNumber s
    have hhome :=
      (h.switchPage homePageNumber).homeProgram (hstart'.trans hstart) (hstack'.trans hstack) adc
    rw [pageProgram_home]
    exact hhome.pageDone
  · obtain rfl : page = settingPageNumber := hnow.trans hpage
    rw [pageProgram_setting]
    exact h.atSettingPage.runSettingPage.pageDone

/-- A new page has the limits and the cursor of its own. -/
theorem OnPage.pageSetting (h : OnPage page s) :
    OnPage s.oled.nowPage { s with oled := pageSetting s.oled.nowPage s.oled } := by
  obtain ⟨hpage, -⟩ | ⟨hpage, -⟩ := h.nowPage <;> rw [hpage]
  · exact ⟨h.stack, .home, Nat.le_refl _, Nat.le_refl _, h.window⟩
  · have hfirst : (1 : U8).toNat ≤ (18 : U8).toNat := by decide
    exact ⟨h.stack, .setting, Nat.le_refl _, hfirst, h.window⟩

theorem Navigation.drawnPage (h : Navigation s) (hd : drawnPage s = some (page, drawn)) :
    OnPage page drawn ∧ page = drawn.oled.nowPage ∧ drawn.oled.started = s.oled.started := by
  unfold Hvac.drawnPage at hd
  dsimp only at hd
  split at hd
  · cases hd
    have hsame : (Hvac.pageSetting s.oled.nowPage s.oled).nowPage = s.oled.nowPage ∧
        (Hvac.pageSetting s.oled.nowPage s.oled).started = s.oled.started := by
      unfold Hvac.pageSetting
      repeat' split
      all_goals exact ⟨rfl, rfl⟩
    exact ⟨h.pageSetting, hsame.1.symm, hsame.2⟩
  · rename_i hpre
    split at hd
    · cases hd
      exact ⟨not_not.mp hpre ▸ h, rfl, rfl⟩
    · cases hd

-- ---------------------------------------------------------------------------
-- The steps
-- ---------------------------------------------------------------------------

theorem Navigation.drawRound (h : Navigation s) (hstart : s.oled.started = true) (adc : Adc) :
    Navigation (drawRound adc s) := by
  unfold Hvac.drawRound
  cases hd : Hvac.drawnPage s with
  | none => exact h
  | some drawn =>
    obtain ⟨page, drawn⟩ := drawn
    obtain ⟨hpage, hnow, hstart'⟩ := h.drawnPage hd
    obtain ⟨hs, hl, hlow, hhigh, hwindow⟩ := hpage.pageProgram (hstart'.trans hstart) hnow adc
    exact ⟨hs, hl, hlow, hhigh, hwindow⟩

theorem Navigation.watchRound (h : Navigation s) (nowPage : U8) :
    Navigation (watchRound nowPage s) := by
  have hlight : Navigation (monitorBackLight s) := by
    unfold monitorBackLight
    split
    · obtain ⟨hs, hl, hlow, hhigh, hwindow⟩ := OnPage.backPage h
      exact ⟨hs, hl, hlow, hhigh, hwindow⟩
    · exact h
  unfold Hvac.watchRound
  dsimp only
  split
  · exact ⟨hlight.stack, hlight.limits, hlight.low, hlight.high, hlight.window⟩
  · exact hlight

theorem Navigation.oledEntry (h : Navigation s) (adc : Adc) : Navigation (oledEntry adc s) := by
  unfold Hvac.oledEntry
  split
  · rename_i hstart
    have htimed : Navigation { s with oled.time1S := (timerTask s.oled.time1S 10).1 } :=
      ⟨h.stack, h.limits, h.low, h.high, h.window⟩
    have hdrawn := htimed.drawRound hstart adc
    unfold oledRound
    dsimp only
    split
    · exact hdrawn.watchRound _
    · exact hdrawn
  · rename_i hstart
    have hstack : s.oled.pageInfor = 0 := h.stack.resolve_right fun hpushed => hstart hpushed.1
    have hhome : (s.oled.pushPage homePageNumber).pageInfor = 0 := by
      simp [OledStatics.pushPage, hstack, homePageNumber]
    exact ⟨.inl hhome, h.limits, h.low, h.high, h.window⟩

/-- The limits are the same, and the cursor is within them. -/
structure WithinLimits (p p' : PageSelect) : Prop where
  home : p'.cusorHome = p.cusorHome
  max : p'.cusorMax = p.cusorMax
  low : p.cusorHome.toNat ≤ p'.cusor.toNat
  high : p'.cusor.toNat ≤ p.cusorMax.toNat

/-- Up and down are the steps of a value between the limits. -/
theorem cusor_withinLimits {p : PageSelect} (hlow : p.cusorHome.toNat ≤ p.cusor.toNat)
    (hhigh : p.cusor.toNat ≤ p.cusorMax.toNat) :
    WithinLimits p (cusorUp p) ∧ WithinLimits p (cusorDown p) := by
  obtain ⟨hadd, hsub, -⟩ := data_steps hlow hhigh
  constructor
  · unfold cusorUp
    split
    · exact ⟨rfl, rfl, hsub.1, hsub.2⟩
    · exact ⟨rfl, rfl, hlow, hhigh⟩
  · unfold cusorDown
    split
    · split
      · exact ⟨rfl, rfl, hadd.1, hadd.2⟩
      · exact ⟨rfl, rfl, hlow, hhigh⟩
    · exact ⟨rfl, rfl, hlow, hhigh⟩

theorem Navigation.onPageSelect (h : Navigation s) (hp : WithinLimits s.oled.pageSelect p) :
    Navigation { s with oled := { s.oled with pageSelect := p } } := by
  obtain ⟨hhome, hmax, hlow, hhigh⟩ := hp
  have hlimits : CusorLimits s.oled.nowPagePre p.cusorHome p.cusorMax := by
    rw [hhome, hmax]
    exact h.limits
  exact ⟨h.stack, hlimits, hhome.symm ▸ hlow, hmax.symm ▸ hhigh, h.window⟩

theorem Navigation.enterBtnCallBack (h : Navigation s) (type : PressType) :
    Navigation (enterBtnCallBack type s) := by
  cases type with
  | nullPress => exact h
  | shortPress => exact ⟨h.stack, h.limits, h.low, h.high, h.window⟩
  | longPress =>
    obtain ⟨hs, hl, hlow, hhigh, hwindow⟩ := OnPage.backPage h
    exact ⟨hs, hl, hlow, hhigh, hwindow⟩

theorem Navigation.upBtnCallBack (h : Navigation s) (type : PressType) :
    Navigation (upBtnCallBack type s) := by
  cases type with
  | shortPress =>
    obtain ⟨hs, hl, hlow, hhigh, hwindow⟩ :=
      h.onPageSelect (cusor_withinLimits h.low h.high).1
    exact ⟨hs, hl, hlow, hhigh, hwindow⟩
  | _ => exact h

theorem Navigation.downBtnCallBack (h : Navigation s) (type : PressType) :
    Navigation (downBtnCallBack type s) := by
  cases type with
  | shortPress =>
    obtain ⟨hs, hl, hlow, hhigh, hwindow⟩ :=
      h.onPageSelect (cusor_withinLimits h.low h.high).2
    exact ⟨hs, hl, hlow, hhigh, hwindow⟩
  | _ => exact h

/-- Where every boot starts, whatever the module is. -/
theorem Navigation.boot (h : m.menu = {}) : Navigation { module := m, oled := {} } := by
  have hwindow : MenuWindow.Inside {} := ⟨by decide, rfl, by decide⟩
  exact ⟨.inl rfl, .none, Nat.le_refl _, Nat.le_refl _, h.symm ▸ hwindow⟩

theorem oledStep_other (hforeign : ¬e.OfDisplay) (hboot : e ≠ .reboot) (s : OledTask) :
    oledStep (.other e hforeign) s = { s with module := step e s.module } := by
  rw [oledStep]
  exact hboot

theorem Navigation.oledStep (h : Navigation s) (e : OledEvent) : Navigation (oledStep e s) := by
  cases e with
  | enterBtn type => exact h.enterBtnCallBack type
  | upBtn type => exact h.upBtnCallBack type
  | downBtn type => exact h.downBtnCallBack type
  | oledEntry adc => exact h.oledEntry adc
  | other e hforeign =>
    by_cases hboot : e = .reboot
    · subst hboot
      exact .boot rfl
    · have hpage (page : TypePage) : e ≠ .settingPage page :=
        fun heq => hforeign (heq ▸ trivial)
      rw [oledStep_other hforeign hboot]
      exact ⟨h.stack, h.limits, h.low, h.high, (step_menu hpage hboot s.module).symm ▸ h.window⟩

theorem Navigation.drawnNow (h : Navigation s) (hd : drawnNow s = some (page, drawn)) :
    OnPage page drawn ∧ page = drawn.oled.nowPage := by
  have htimed : Navigation { s with oled.time1S := (timerTask s.oled.time1S 10).1 } :=
    ⟨h.stack, h.limits, h.low, h.high, h.window⟩
  unfold Hvac.drawnNow at hd
  split at hd
  · obtain ⟨hpage, hnow, -⟩ := htimed.drawnPage hd
    exact ⟨hpage, hnow⟩
  · cases hd

theorem Navigation.settingPageCall (h : Navigation s) (hcall : settingPageCall e s = some call) :
    MenuInBounds call := by
  cases e with
  | oledEntry adc =>
    simp only [Hvac.settingPageCall] at hcall
    split at hcall
    · rename_i page drawn hd
      split at hcall
      · rename_i hpage
        cases hcall
        subst hpage
        exact (h.drawnNow hd).1.atSettingPage.inBounds
      · cases hcall
    · cases hcall
  | _ => cases hcall

-- ---------------------------------------------------------------------------
-- The display among the threads
-- ---------------------------------------------------------------------------

/-- The steps of the module in a step with the display. -/
def moduleEvents : OledEvent → OledTask → List Event
  | .other e _, _ => [e]
  | .oledEntry adc, s =>
    match drawnNow s with
    | some (page, drawn) =>
      if page = settingPageNumber then
        [.settingPage (atSettingPage drawn).oled.pageSelect.toTypePage]
      else [.homePage adc]
    | none => []
  | _, _ => []

def moduleRun : List OledEvent → OledTask → List Event
  | [], _ => []
  | e :: rest, s => moduleEvents e s ++ moduleRun rest (oledStep e s)

/-- The page for a time is never shown, so that the display does not set the clock. -/
def NoTimePage (s : OledTask) : Prop := s.oled.pagePre ≠ timeSelectPageNumber

theorem switchPage_module (h : NoTimePage s) (page : U8) :
    (switchPage page s).module = s.module ∧ (switchPage page s).oled.pagePre = page := by
  unfold switchPage
  dsimp only
  split
  · rw [if_neg fun htime : s.oled.pagePre = timeSelectPageNumber ∧ _ => h htime.1]
    split <;> exact ⟨rfl, rfl⟩
  · rename_i hsame
    exact ⟨rfl, not_not.mp hsame⟩

theorem homeProgram_pagePre (adc : Adc) (s : OledTask) :
    (homeProgram adc s).oled.pagePre = s.oled.pagePre := by
  unfold homeProgram OledStatics.pushPage
  dsimp only
  repeat' split
  all_goals rfl

theorem toggleChange_pagePre (o : OledStatics) : (toggleChange o).pagePre = o.pagePre := by
  unfold toggleChange
  repeat' split
  all_goals rfl

theorem atSettingPage_switched (s : OledTask) :
    (atSettingPage s).module = (switchPage settingPageNumber s).module ∧
      (atSettingPage s).oled.pagePre = (switchPage settingPageNumber s).oled.pagePre :=
  ⟨rfl, toggleChange_pagePre _⟩

theorem runSettingPage_module (s : OledTask) :
    (runSettingPage s).module = step (.settingPage s.oled.pageSelect.toTypePage) s.module ∧
      (runSettingPage s).oled.pagePre = s.oled.pagePre :=
  ⟨rfl, rfl⟩

theorem pageDone_module (s : OledTask) :
    (pageDone s).module = s.module ∧ (pageDone s).oled.pagePre = s.oled.pagePre :=
  ⟨rfl, rfl⟩

theorem pageProgram_module (hpage : OnPage page s) (hnow : page = s.oled.nowPage)
    (h : NoTimePage s) (adc : Adc) :
    (pageProgram adc page s).module = (if page = settingPageNumber then
        step (.settingPage (atSettingPage s).oled.pageSelect.toTypePage) s.module
      else step (.homePage adc) s.module) ∧ NoTimePage (pageProgram adc page s) := by
  obtain ⟨hmodule, hpre⟩ := switchPage_module h page
  obtain ⟨hhome, -⟩ | ⟨hsetting, -⟩ := hpage.nowPage
  · obtain rfl : page = homePageNumber := hnow.trans hhome
    obtain ⟨hdone, hpre'⟩ := pageDone_module (homeProgram adc (switchPage homePageNumber s))
    rw [pageProgram_home, NoTimePage, hdone, hpre', homeProgram_pagePre, hpre]
    exact ⟨congrArg (takeSamples adc) hmodule, by decide⟩
  · obtain rfl : page = settingPageNumber := hnow.trans hsetting
    obtain ⟨hdone, hpre'⟩ := pageDone_module (runSettingPage (atSettingPage s))
    obtain ⟨hrun, hrun'⟩ := runSettingPage_module (atSettingPage s)
    obtain ⟨hat, hat'⟩ := atSettingPage_switched s
    rw [pageProgram_setting, NoTimePage, hdone, hpre', hrun, hrun', hat, hat', hmodule, hpre,
      if_pos rfl]
    exact ⟨rfl, by decide⟩

theorem watchRound_module (nowPage : U8) (s : OledTask) :
    (watchRound nowPage s).module = s.module ∧
      (watchRound nowPage s).oled.pagePre = s.oled.pagePre := by
  unfold watchRound monitorBackLight backPage
  dsimp only
  repeat' split
  all_goals exact ⟨rfl, rfl⟩

theorem drawnPage_module (hd : drawnPage s = some (page, drawn)) :
    drawn.module = s.module ∧ drawn.oled.pagePre = s.oled.pagePre := by
  unfold drawnPage pageSetting at hd
  dsimp only at hd
  repeat' split at hd
  all_goals cases hd
  all_goals exact ⟨rfl, rfl⟩

theorem drawRound_module (h : Navigation s) (hpre : NoTimePage s) (adc : Adc) :
    (drawRound adc s).module = run (match drawnPage s with
      | some (page, drawn) =>
        if page = settingPageNumber then
          [.settingPage (atSettingPage drawn).oled.pageSelect.toTypePage]
        else [.homePage adc]
      | none => []) s.module ∧ NoTimePage (drawRound adc s) := by
  unfold Hvac.drawRound
  cases hd : Hvac.drawnPage s with
  | none => exact ⟨rfl, hpre⟩
  | some drawn =>
    obtain ⟨page, drawn⟩ := drawn
    obtain ⟨hpage, hnow, -⟩ := h.drawnPage hd
    obtain ⟨hsame, hpre'⟩ := drawnPage_module hd
    obtain ⟨hmodule, hafter⟩ :=
      pageProgram_module hpage hnow (fun htime => hpre (hpre'.symm.trans htime)) adc
    refine ⟨hmodule.trans ?_, hafter⟩
    rw [hsame]
    dsimp only
    split <;> rfl

/-- A step with the display is for the module its step of the display's thread. -/
theorem oledStep_module (h : Navigation s) (hpre : NoTimePage s) (e : OledEvent) :
    (oledStep e s).module = run (moduleEvents e s) s.module ∧ NoTimePage (oledStep e s) := by
  cases e with
  | enterBtn type => cases type <;> exact ⟨rfl, hpre⟩
  | upBtn type => cases type <;> exact ⟨rfl, hpre⟩
  | downBtn type => cases type <;> exact ⟨rfl, hpre⟩
  | other e hforeign =>
    by_cases hboot : e = .reboot
    · subst hboot
      exact ⟨rfl, show (0 : U8) ≠ timeSelectPageNumber by decide⟩
    · rw [oledStep_other hforeign hboot]
      exact ⟨rfl, hpre⟩
  | oledEntry adc =>
    let timed : OledTask := { s with oled.time1S := (timerTask s.oled.time1S 10).1 }
    have htimed : Navigation timed := ⟨h.stack, h.limits, h.low, h.high, h.window⟩
    by_cases hstart : s.oled.started = true
    · have hnow : Hvac.drawnNow s = Hvac.drawnPage timed := if_pos hstart
      obtain ⟨hmodule, hdrawn⟩ := drawRound_module htimed hpre adc
      have hround : (Hvac.oledEntry adc s).module = (Hvac.drawRound adc timed).module ∧
          (Hvac.oledEntry adc s).oled.pagePre = (Hvac.drawRound adc timed).oled.pagePre := by
        unfold Hvac.oledEntry oledRound
        rw [if_pos hstart]
        dsimp only
        split
        · exact watchRound_module _ _
        · exact ⟨rfl, rfl⟩
      refine ⟨hround.1.trans (hmodule.trans ?_), fun htime => hdrawn (hround.2.symm.trans htime)⟩
      rw [moduleEvents, hnow]
    · have hnow : Hvac.drawnNow s = none := if_neg hstart
      have hstarted : Hvac.oledEntry adc s = oledStart s := if_neg hstart
      simp only [oledStep, moduleEvents, hnow, hstarted]
      exact ⟨rfl, hpre⟩

/-- The run with the display is, for the module, a run of its threads. -/
theorem run_oledStep_module (h : Navigation s) (hpre : NoTimePage s) (events : List OledEvent) :
    (Machine.run oledStep events s).module = run (moduleRun events s) s.module := by
  induction events generalizing s with
  | nil => rfl
  | cons e rest ih =>
    obtain ⟨hmodule, hnext⟩ := oledStep_module h hpre e
    rw [Machine.run_cons, ih (h.oledStep e) hnext, hmodule]
    exact Machine.run_append.symm

-- ---------------------------------------------------------------------------
-- Every call
-- ---------------------------------------------------------------------------

/-- From a power-up, whatever flash, clock and identity: in every run of button
callbacks, rounds of the display's thread, steps of the other threads and reboots,
every call of `SettingPage` has its cursor, its window and its rows in bounds. -/
theorem navigation_inBounds (flash : List U8) (rtc : Rtc) (uniqueId : Fin 12 → U8)
    (events : List OledEvent) :
    ∀ call ∈ Machine.trace oledStep settingPageCall events
        { module := powerUp flash rtc uniqueId, oled := {} },
      MenuInBounds call :=
  Machine.mem_trace (P := Navigation) (fun e _ h => h.oledStep e)
    (fun _ _ _ h hcall => h.settingPageCall hcall) (.boot rfl)

/-- Into the settings and up: the cursor turns from the first position to the last. -/
def upFromFirst : List OledEvent :=
  let entry : OledEvent := .oledEntry ⟨⟨false, 0, true, true⟩, ⟨false, 0, true, true⟩⟩
  [entry, entry, .enterBtn .shortPress, entry, entry, .upBtn .shortPress, entry]

theorem navigation_inBounds_last :
    ∃ call ∈ Machine.trace oledStep settingPageCall upFromFirst { module := blank, oled := {} },
      call.oled.pageSelect.cusor = 18 ∧
        scroll (showMenu call.oled.pageSelect.cusor) call.module.menu = ⟨8, 12⟩ ∧
        MenuInBounds call := by
  have hlast :
      ∃ call ∈ Machine.trace oledStep settingPageCall upFromFirst { module := blank, oled := {} },
        call.oled.pageSelect.cusor = 18 ∧
          scroll (showMenu call.oled.pageSelect.cusor) call.module.menu = ⟨8, 12⟩ := by
    decide +kernel
  obtain ⟨call, hcall, hcusor, hscroll⟩ := hlast
  exact ⟨call, hcall, hcusor, hscroll,
    navigation_inBounds [] {} (fun _ => 0) upFromFirst call hcall⟩

end Hvac
