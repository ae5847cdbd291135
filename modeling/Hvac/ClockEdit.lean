import Hvac.DateConversion
import Hvac.MenuEdit
import Mathlib.Logic.Function.Iterate

/-!
# Editing the date

A press on year, month or day steps that number within fixed bounds and hands
the date to `set_date`. Where the month then has no such day, `mktime` carries
the day into the next month instead of stopping at the last.
-/

namespace Hvac

open Calendar (Date daysIn isLeap)

inductive DateField
  | year | month | day
  deriving DecidableEq, Repr

inductive MenuKey
  | up | down
  deriving DecidableEq, Repr

def MenuKey.page : MenuKey → U8 → TypePage
  | up => pressUp
  | down => pressDown

namespace DateField

def cusor : DateField → U8
  | year => 9
  | month => 10
  | day => 11

def step : DateField → MenuKey → SysTime → SysTime
  | year, .up, t => { t with year := addData 2000 2100 t.year }
  | year, .down, t => { t with year := subData 2000 2100 t.year }
  | month, .up, t => { t with month := addData 1 12 t.month }
  | month, .down, t => { t with month := subData 1 12 t.month }
  | day, .up, t => { t with day := addData 1 31 t.day }
  | day, .down, t => { t with day := subData 1 31 t.day }

/-- The step of the date, whether or not there is such a date. -/
def stepDate : DateField → MenuKey → Date → Date
  | year, .up, d => { d with year := if d.year < 2100 then d.year + 1 else 2000 }
  | year, .down, d => { d with year := if 2000 < d.year then d.year - 1 else 2100 }
  | month, .up, d => { d with month := if d.month < 12 then d.month + 1 else 1 }
  | month, .down, d => { d with month := if 1 < d.month then d.month - 1 else 12 }
  | day, .up, d => { d with day := if d.day < 31 then d.day + 1 else 1 }
  | day, .down, d => { d with day := if 1 < d.day then d.day - 1 else 31 }

theorem step_date (field : DateField) (p : MenuKey) (t : SysTime) :
    (field.step p t).date = field.stepDate p t.date := by
  cases field <;> cases p <;> simp only [step, SysTime.date, addData_toNat, subData_toNat] <;> rfl

theorem stepDate_year (h : field ≠ .year) : (stepDate field p d).year = d.year := by
  cases field <;> cases p <;> first | rfl | exact absurd rfl h

theorem stepDate_month (h : field ≠ .month) : (stepDate field p d).month = d.month := by
  cases field <;> cases p <;> first | rfl | exact absurd rfl h

theorem stepDate_day (h : field ≠ .day) : (stepDate field p d).day = d.day := by
  cases field <;> cases p <;> first | rfl | exact absurd rfl h

/-- The bounds of the menu are dates `mktime` converts. -/
theorem stepDate_bounds (field : DateField) (p : MenuKey) (h : d.Valid) (hyear : 2000 ≤ d.year)
    (hyear' : d.year ≤ 2100) :
    Convertible (field.stepDate p d) ∧ 2000 ≤ (field.stepDate p d).year := by
  obtain ⟨hmonth, hmonth', hday, -⟩ := id h
  have hday' := h.day_le_31
  have hepoch : 1970 ≤ d.year := Nat.le_trans (by decide) hyear
  cases field with
  | year =>
    have hrange : 2000 ≤ (year.stepDate p d).year ∧ (year.stepDate p d).year ≤ 2100 := by
      cases p <;> simp only [stepDate] <;> split <;> omega
    refine ⟨⟨Nat.le_trans (by decide) hrange.1, hrange.2, ?_, ?_, ?_, ?_⟩, hrange.1⟩ <;>
      cases p <;> assumption
  | month =>
    have hrange : 1 ≤ (month.stepDate p d).month ∧ (month.stepDate p d).month ≤ 12 := by
      cases p <;> simp only [stepDate] <;> split <;> omega
    refine ⟨⟨?_, ?_, hrange.1, hrange.2, ?_, ?_⟩, ?_⟩ <;> cases p <;> assumption
  | day =>
    have hrange : 1 ≤ (day.stepDate p d).day ∧ (day.stepDate p d).day ≤ 31 := by
      cases p <;> simp only [stepDate] <;> split <;> omega
    refine ⟨⟨?_, ?_, ?_, ?_, hrange.1, hrange.2⟩, ?_⟩ <;> cases p <;> assumption

end DateField

-- ---------------------------------------------------------------------------
-- A press
-- ---------------------------------------------------------------------------

theorem settingRow_date (hc : s.page.cusor = field.cusor) :
    settingRow (rowOf s.page.cusor) s =
      settingField field.cusor (onDate (DateField.step field .up))
        (onDate (DateField.step field .down)) s := by
  rw [hc]
  cases field with
  | year =>
    refine (settingField_elsewhere 11 _ _ _ ?_).trans (settingField_elsewhere 10 _ _ _ ?_) <;>
      simp [hc, DateField.cusor]
  | month =>
    refine (settingField_elsewhere 11 _ _ _ ?_).trans
      (congrArg (settingField 10 _ _) (settingField_elsewhere 9 _ _ _ ?_)) <;>
      simp [hc, DateField.cusor]
  | day =>
    refine congrArg (settingField 11 _ _)
      ((settingField_elsewhere 10 _ _ _ ?_).trans (settingField_elsewhere 9 _ _ _ ?_)) <;>
      simp [hc, DateField.cusor]

/-- The clock after a press on a field of the date, with a `time_t` of `w` bits. -/
def DateField.editIn (field : DateField) (w : Nat) (p : MenuKey) (rtc : Rtc) : Rtc :=
  let t := field.step p (getTimeForMatIn w rtc)
  setDateIn w rtc t.year t.month t.day

/-- The module after a press on a field of the date. -/
def DateField.edit (field : DateField) (p : MenuKey) (m : Module) : Module :=
  { m with
    menu := scroll (showMenu field.cusor) m.menu
    rtc := field.editIn timeTBits p m.rtc }

theorem settingPage_date (h : m.menu.Reached) (field : DateField) (p : MenuKey) :
    settingPage (p.page field.cusor) m = (released field.cusor, field.edit p m) := by
  have hrow (s : SettingPass) (hc : s.page.cusor = field.cusor) := settingRow_date hc
  obtain ⟨hup, hdown⟩ := settingPage_press h hrow
  cases p with
  | up => exact hup
  | down => exact hdown

theorem editIn_eq (h : rtc.Valid) (hyear : ClockYear w rtc.day.year) (field : DateField)
    (p : MenuKey) (hstep : ClockYear w (field.stepDate p rtc.day).year) :
    field.editIn w p rtc = rtcOf (field.stepDate p rtc.day).carry h.time := by
  have hdate : (field.step p (getTimeForMatIn w rtc)).date = field.stepDate p rtc.day := by
    rw [field.step_date, getTimeForMatIn_date h hyear]
  obtain ⟨hconv, -⟩ :=
    field.stepDate_bounds p h.day (Nat.le_add_right _ _) h.convertible.year_le
  rw [← hdate] at hconv hstep ⊢
  exact setDateIn_eq h hyear hconv hstep

/-- The chip holds the stepped date, carried into the next month where it has no
such day, and the time it had. -/
theorem editIn_spec (h : rtc.Valid) (hyear : ClockYear w rtc.day.year) (field : DateField)
    (p : MenuKey) (hstep : ClockYear w (field.stepDate p rtc.day).year) :
    (field.editIn w p rtc).Valid ∧
      (field.editIn w p rtc).day = (field.stepDate p rtc.day).carry ∧
      (field.editIn w p rtc).hours = rtc.hours ∧ (field.editIn w p rtc).minutes = rtc.minutes ∧
      (field.editIn w p rtc).seconds = rtc.seconds := by
  obtain ⟨hconv, -⟩ :=
    field.stepDate_bounds p h.day (Nat.le_add_right _ _) h.convertible.year_le
  have hvalid := Date.carry_valid hconv.month_pos hconv.month_le hconv.day_pos hconv.day_le
  have hge := hstep.ge
  have hle := hstep.le_2099
  rw [← Date.carry_year] at hge hle
  rw [editIn_eq h hyear field p hstep]
  refine ⟨rtcOf_valid hvalid hge hle h.time, rtcOf_day hvalid hge hle h.time, ?_, ?_, ?_⟩ <;>
    simp [rtcOf, Rtc.Valid.time]

/-- The width of the `time_t` makes no difference in the years that both count. -/
theorem editIn_width (h : rtc.Valid) (hyear : ClockYear w rtc.day.year) (field : DateField)
    (p : MenuKey) (hstep : ClockYear w (field.stepDate p rtc.day).year) :
    field.editIn timeTBits p rtc = field.editIn w p rtc := by
  rw [editIn_eq h hyear field p hstep]
  exact editIn_eq h h.clockYear field p
    ⟨by decide, hstep.ge, hstep.le_2099⟩

-- ---------------------------------------------------------------------------
-- One component
-- ---------------------------------------------------------------------------

/-- Only the edited component differs, but that the day may have become the last of
the new month. -/
structure ChangesOnly (field : DateField) (rtc rtc' : Rtc) : Prop where
  valid : rtc'.Valid
  year : field ≠ .year → rtc'.day.year = rtc.day.year
  month : field ≠ .month → rtc'.day.month = rtc.day.month
  day : field ≠ .day → rtc'.day.day = min rtc.day.day rtc'.day.lastDay
  time : rtc'.hours = rtc.hours ∧ rtc'.minutes = rtc.minutes ∧ rtc'.seconds = rtc.seconds

/-- The month the edit leads to has the day; for a day, the edit does not leave the month. -/
def DateField.Fits : DateField → MenuKey → Date → Prop
  | year, _, d => ¬(d.month = 2 ∧ d.day = 29)
  | month, .up, d => d.day ≤ daysIn (isLeap d.year) (if d.month < 12 then d.month + 1 else 1)
  | month, .down, d => d.day ≤ daysIn (isLeap d.year) (if 1 < d.month then d.month - 1 else 12)
  | day, .up, d => d.day < d.lastDay ∨ d.lastDay = 31
  | day, .down, d => 1 < d.day ∨ d.lastDay = 31

instance : (field : DateField) → (p : MenuKey) → (d : Date) → Decidable (field.Fits p d)
  | .year, _, d => inferInstanceAs (Decidable ¬(d.month = 2 ∧ d.day = 29))
  | .month, .up, _ | .month, .down, _ => inferInstanceAs (Decidable (_ ≤ _))
  | .day, .up, _ | .day, .down, _ => inferInstanceAs (Decidable (_ ∨ _))

/-- The years next to a leap year, 2100 being next to 2000, are not leap years. -/
theorem isLeap_stepYear (h : isLeap d.year) (hyear : d.year ≤ 2100) (p : MenuKey) :
    isLeap (DateField.year.stepDate p d).year = false := by
  have hodd {year : Nat} (hyear : year % 4 ≠ 0) : isLeap year = false := by
    simp [isLeap, hyear]
  have hfour : d.year % 4 = 0 := by
    simp only [isLeap, Bool.and_eq_true, decide_eq_true_eq] at h
    exact h.1
  cases p with
  | up =>
    simp only [DateField.stepDate]
    split
    · exact hodd (by omega)
    · have hlast : d.year = 2100 := by omega
      rw [hlast] at h
      cases h
  | down =>
    simp only [DateField.stepDate]
    split
    · exact hodd (by omega)
    · rfl

theorem stepDate_fits_iff (h : Date.Valid d) (hyear : d.year ≤ 2100) (field : DateField)
    (p : MenuKey) : (field.stepDate p d).day ≤ (field.stepDate p d).lastDay ↔ field.Fits p d := by
  have hday := h.day_le
  have hday' := h.day_le_31
  have hpos := h.day_pos
  have hlong := Calendar.daysIn_le (isLeap d.year) d.month
  cases field with
  | month => cases p <;> rfl
  | day =>
    cases p <;> simp only [DateField.stepDate, DateField.Fits, Date.lastDay] at hday ⊢ <;>
      split <;> omega
  | year =>
    unfold Date.lastDay at hday ⊢
    rw [DateField.stepDate_day (by decide), DateField.stepDate_month (by decide)]
    by_cases htwo : d.month = 2
    · have hnew := Calendar.le_daysIn (isLeap (DateField.year.stepDate p d).year) d.month
      simp only [DateField.Fits, htwo, true_and] at hday hnew ⊢
      cases hleap : isLeap d.year with
      | true =>
        rw [isLeap_stepYear hleap hyear p]
        rw [hleap] at hday
        simp only [daysIn, if_true] at hday
        simp only [daysIn, Bool.false_eq_true, if_false]
        omega
      | false =>
        rw [hleap] at hday
        simp only [daysIn, Bool.false_eq_true, if_false] at hday
        omega
    · rw [Calendar.daysIn_of_ne _ (isLeap d.year) htwo]
      exact iff_of_true hday fun hfeb => htwo hfeb.1

section
variable {rtc : Rtc} {field : DateField} {p : MenuKey}

/-- A day carried is at most the third, and the last day of a month at least the
28th, so a date that was carried is not clamped. -/
theorem not_changesOnly_of_carried (h : rtc.Valid) (hyear : ClockYear w rtc.day.year)
    (hstep : ClockYear w (field.stepDate p rtc.day).year)
    (hlt : (field.stepDate p rtc.day).lastDay < (field.stepDate p rtc.day).day) :
    ¬ChangesOnly field rtc (field.editIn w p rtc) := by
  intro honly
  obtain ⟨-, hday, -⟩ := editIn_spec h hyear field p hstep
  rw [Date.carry_of_lt hlt] at hday
  by_cases hfield : field = .month
  · have hne : field ≠ .day := by simp [hfield]
    have hclamp := honly.day hne
    have hcarried : (field.editIn w p rtc).day.day =
        rtc.day.day - (field.stepDate p rtc.day).lastDay := by
      rw [hday, DateField.stepDate_day hne]
    have hlong := Calendar.le_daysIn (isLeap (field.stepDate p rtc.day).year)
      (field.stepDate p rtc.day).month
    have hlast := Calendar.le_daysIn (isLeap (field.editIn w p rtc).day.year)
      (field.editIn w p rtc).day.month
    have hmax := h.day.day_le_31
    rw [DateField.stepDate_day hne] at hlt
    unfold Date.lastDay at *
    omega
  · have hmonth := honly.month hfield
    rw [hday] at hmonth
    simp only [DateField.stepDate_month hfield] at hmonth
    exact Nat.succ_ne_self _ hmonth

theorem changesOnly_of_kept (h : rtc.Valid) (hyear : ClockYear w rtc.day.year)
    (hstep : ClockYear w (field.stepDate p rtc.day).year)
    (hle : (field.stepDate p rtc.day).day ≤ (field.stepDate p rtc.day).lastDay) :
    ChangesOnly field rtc (field.editIn w p rtc) := by
  obtain ⟨hvalid, hday, htime⟩ := editIn_spec h hyear field p hstep
  rw [Date.carry_of_le hle] at hday
  refine ⟨hvalid, ?_, ?_, ?_, htime⟩
  · intro hne
    rw [hday, DateField.stepDate_year hne]
  · intro hne
    rw [hday, DateField.stepDate_month hne]
  · intro hne
    rw [DateField.stepDate_day hne] at hle
    rw [hday, DateField.stepDate_day hne]
    exact (Nat.min_eq_left hle).symm

theorem changesOnly_iff (h : rtc.Valid) (hyear : ClockYear w rtc.day.year) (field : DateField)
    (p : MenuKey) (hstep : ClockYear w (field.stepDate p rtc.day).year) :
    ChangesOnly field rtc (field.editIn w p rtc) ↔ field.Fits p rtc.day := by
  rw [← stepDate_fits_iff h.day h.convertible.year_le field p]
  constructor
  · intro honly
    by_contra hlt
    exact not_changesOnly_of_carried h hyear hstep (Nat.lt_of_not_le hlt) honly
  · exact changesOnly_of_kept h hyear hstep

end

-- ---------------------------------------------------------------------------
-- Reaching a month
-- ---------------------------------------------------------------------------

/-- The date after a press up on the month. -/
def nextMonth (d : Date) : Date := (DateField.month.stepDate .up d).carry

theorem stepMonth_eq (h : Date.Valid d) :
    DateField.month.stepDate .up d = { d with month := d.month % 12 + 1 } := by
  have hmonth := h.month_le
  simp only [DateField.stepDate, Date.mk.injEq, true_and, and_true]
  split <;> omega

theorem nextMonth_valid (h : Date.Valid d) : (nextMonth d).Valid := by
  unfold nextMonth
  rw [stepMonth_eq h]
  exact Date.carry_valid (Nat.succ_pos _) (Nat.mod_lt _ (by decide)) h.day_pos h.day_le_31

/-- A day that February has, every month has. -/
theorem nextMonth_of_short (h : Date.Valid d) (hshort : d.day ≤ daysIn (isLeap d.year) 2) :
    nextMonth d = { d with month := d.month % 12 + 1 } := by
  unfold nextMonth
  rw [stepMonth_eq h]
  exact Date.carry_of_le (Nat.le_trans hshort (Calendar.daysIn_two_le _ _))

theorem reach_month (h : Date.Valid d) (hshort : d.day ≤ daysIn (isLeap d.year) 2) (n : Nat) :
    (nextMonth^[n] d).month = (d.month - 1 + n) % 12 + 1 := by
  induction n generalizing d with
  | zero =>
    have hmonth := h.month_pos
    have hmonth' := h.month_le
    simp only [Function.iterate_zero, id]
    omega
  | succ n ih =>
    have hpos := h.month_pos
    have hnext := nextMonth_of_short h hshort
    rw [Function.iterate_succ_apply, ih (nextMonth_valid h) (by rw [hnext]; exact hshort), hnext]
    simp only
    omega

/-- Pressed up often enough, the day is one that every month has: in February at the
latest, or carried there. The induction is on the presses to February. -/
theorem reach_short (h : Date.Valid d) (hfeb : (d.month + k) % 12 = 2) :
    ∃ n, (nextMonth^[n] d).Valid ∧
      (nextMonth^[n] d).day ≤ daysIn (isLeap (nextMonth^[n] d).year) 2 := by
  induction k generalizing d with
  | zero =>
    have hmonth := h.month_le
    have htwo : d.month = 2 := by omega
    have hday := h.day_le
    unfold Date.lastDay at hday
    rw [htwo] at hday
    exact ⟨0, h, hday⟩
  | succ k ih =>
    by_cases hfits : d.day ≤ daysIn (isLeap d.year) (d.month % 12 + 1)
    · have hnext : nextMonth d = { d with month := d.month % 12 + 1 } := by
        unfold nextMonth
        rw [stepMonth_eq h]
        exact Date.carry_of_le hfits
      obtain ⟨n, hn⟩ := ih (nextMonth_valid h) (by rw [hnext]; simp only; omega)
      exact ⟨n + 1, hn⟩
    · have hnext : (nextMonth d).day = d.day - daysIn (isLeap d.year) (d.month % 12 + 1) := by
        unfold nextMonth
        rw [stepMonth_eq h, Date.carry_of_lt (Nat.lt_of_not_le hfits)]
        rfl
      have hmax := h.day_le_31
      have hlong := Calendar.le_daysIn (isLeap d.year) (d.month % 12 + 1)
      have hlong' := Calendar.le_daysIn (isLeap (nextMonth d).year) 2
      exact ⟨1, nextMonth_valid h, by simp only [Function.iterate_one]; omega⟩

theorem reach_every_month (h : Date.Valid d) (hmonth : 1 ≤ month) (hmonth' : month ≤ 12) :
    ∃ n, (nextMonth^[n] d).month = month := by
  have hpos := h.month_pos
  have hle := h.month_le
  obtain ⟨n, hvalid, hshort⟩ := reach_short (k := 14 - d.month) h (by omega)
  have hpos' := hvalid.month_pos
  have hle' := hvalid.month_le
  refine ⟨month + 12 - (nextMonth^[n] d).month + n, ?_⟩
  rw [Function.iterate_add_apply, reach_month hvalid hshort]
  omega

/-- The module after one press up on the month. -/
def monthUp (m : Module) : Module := (settingPage (pressUp DateField.month.cusor) m).2

theorem monthUp_iterate (hmenu : m.menu.Reached) (h : m.rtc.Valid)
    (hyear : ClockYear w m.rtc.day.year) (n : Nat) :
    (monthUp^[n] m).rtc = (DateField.month.editIn w .up)^[n] m.rtc ∧
      (monthUp^[n] m).rtc.day = nextMonth^[n] m.rtc.day := by
  induction n generalizing m with
  | zero => exact ⟨rfl, rfl⟩
  | succ n ih =>
    have hstep : ClockYear w (DateField.month.stepDate .up m.rtc.day).year := by
      rwa [DateField.stepDate_year (by decide)]
    have hrtc : (monthUp m).rtc = DateField.month.editIn w .up m.rtc := by
      rw [← editIn_width h hyear .month .up hstep]
      exact congrArg (fun r => r.2.rtc) (settingPage_date hmenu .month .up)
    have hmenu' : (monthUp m).menu.Reached := by
      rw [show monthUp m = DateField.month.edit .up m from
        congrArg Prod.snd (settingPage_date hmenu .month .up)]
      exact hmenu.scroll _
    obtain ⟨hvalid, hday, -⟩ := editIn_spec h hyear .month .up hstep
    have hyear' : ClockYear w (monthUp m).rtc.day.year := by
      rwa [hrtc, hday, Date.carry_year]
    rw [Function.iterate_succ_apply, Function.iterate_succ_apply, Function.iterate_succ_apply,
      ← hrtc]
    refine (ih hmenu' (hrtc ▸ hvalid) hyear').imp_right fun hall => hall.trans ?_
    rw [hrtc, hday]
    rfl

/-- From a date of 2000 to 2099, or to 2037 where a `time_t` has 32 bits, an edit that stays
in these years changes its component only exactly where the new month has the day. Every
month is reached from every date by presses up on the month. -/
theorem clock_edit_iff (w : Nat) (m : Module) (hmenu : m.menu.Reached) (h : m.rtc.Valid)
    (hyear : ClockYear w m.rtc.day.year) :
    (∀ (field : DateField) (p : MenuKey), ClockYear w (field.stepDate p m.rtc.day).year →
      (settingPage (p.page field.cusor) m).2.rtc = field.editIn w p m.rtc ∧
        (ChangesOnly field m.rtc (field.editIn w p m.rtc) ↔ field.Fits p m.rtc.day)) ∧
      ∀ month, 1 ≤ month → month ≤ 12 →
        ∃ n, (monthUp^[n] m).rtc = (DateField.month.editIn w .up)^[n] m.rtc ∧
          (monthUp^[n] m).rtc.day.month = month := by
  constructor
  · intro field p hstep
    rw [settingPage_date hmenu]
    exact ⟨editIn_width h hyear field p hstep, changesOnly_iff h hyear field p hstep⟩
  · intro month hmonth hmonth'
    obtain ⟨n, hn⟩ := reach_every_month h.day hmonth hmonth'
    obtain ⟨hrtc, hday⟩ := monthUp_iterate hmenu h hyear n
    exact ⟨n, hrtc, by rw [hday, hn]⟩

/-- Midnight of a date. -/
def midnight (year month date : U8) : Module := { blank with rtc := { year, month, date } }

theorem midnight_valid (h : (Rtc.day { year, month, date }).Valid) (hyear : year.toNat ≤ 99) :
    (midnight year month date).rtc.Valid :=
  ⟨show (0 : U8).toNat < 24 by decide, show (0 : U8).toNat < 60 by decide,
    show (0 : U8).toNat < 60 by decide, hyear, h⟩

theorem clock_edit_june :
    ((settingPage (MenuKey.up.page DateField.month.cusor) (midnight 21 6 15)).2.rtc =
        DateField.month.editIn 32 .up (midnight 21 6 15).rtc ∧
      ChangesOnly .month (midnight 21 6 15).rtc
        (DateField.month.editIn 32 .up (midnight 21 6 15).rtc)) ∧
    ∃ n, (monthUp^[n] (midnight 21 6 15)).rtc =
        (DateField.month.editIn 32 .up)^[n] (midnight 21 6 15).rtc ∧
      (monthUp^[n] (midnight 21 6 15)).rtc.day.month = 2 := by
  have hvalid : (midnight 21 6 15).rtc.Valid :=
    midnight_valid ⟨by decide, by decide, by decide, by decide⟩ (by decide)
  obtain ⟨hedit, hreach⟩ := clock_edit_iff 32 (midnight 21 6 15) .start hvalid (by decide)
  obtain ⟨hpage, honly⟩ := hedit .month .up (by decide)
  exact ⟨⟨hpage, honly.mpr (by decide)⟩, hreach 2 (by decide) (by decide)⟩

/-- From 31 January a press up on the month leads to 3 March. -/
theorem clock_edit_fails :
    (midnight 21 1 31).menu.Reached ∧ (midnight 21 1 31).rtc.Valid ∧
      (settingPage (MenuKey.up.page DateField.month.cusor) (midnight 21 1 31)).2.rtc.day =
        ⟨2021, 3, 3⟩ ∧
      ¬ChangesOnly .month (midnight 21 1 31).rtc
        (settingPage (MenuKey.up.page DateField.month.cusor) (midnight 21 1 31)).2.rtc := by
  have hvalid : (midnight 21 1 31).rtc.Valid :=
    midnight_valid ⟨by decide, by decide, by decide, by decide⟩ (by decide)
  have hmenu : (midnight 21 1 31).menu.Reached := .start
  have hstep : ClockYear timeTBits
      (DateField.month.stepDate .up (midnight 21 1 31).rtc.day).year := by decide
  rw [settingPage_date hmenu .month .up]
  refine ⟨hmenu, hvalid, ?_, ?_⟩
  · exact (editIn_spec hvalid hvalid.clockYear .month .up hstep).2.1
  · refine mt (changesOnly_iff hvalid hvalid.clockYear .month .up hstep).mp ?_
    decide

end Hvac
