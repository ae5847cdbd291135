import Hvac.DateConversion
import Hvac.Schedule
import Hvac.TimeBroadcast
import Hvac.Transactions

/-!
# Keeping the time

From 2000 to 2099 the registers of the clock chip and the seconds that the rest of
the firmware counts are two forms of one time; where a `time_t` has 32 bits, to 2037.
A broadcast sets it, every second of the chip moves it on, and nothing else touches it
but the edits on the menu.
-/

namespace Hvac

open Calendar (Date daysIn isLeap)
open Machine (Within)

-- ---------------------------------------------------------------------------
-- Every second has a date
-- ---------------------------------------------------------------------------

/-- The last day of year `1970 + n` or of one before is in one of these years. -/
theorem exists_year (hn : n ≤ 130) (h : days < daysBefore n + yearDays (1970 + n)) :
    ∃ k ≤ n, daysBefore k ≤ days ∧ days < daysBefore k + yearDays (1970 + k) := by
  induction n with
  | zero => exact ⟨0, Nat.le_refl 0, Nat.zero_le _, h⟩
  | succ n ih =>
    by_cases hlast : daysBefore (n + 1) ≤ days
    · exact ⟨n + 1, Nat.le_refl _, hlast, h⟩
    · rw [daysBefore_succ hn] at hlast
      obtain ⟨k, hk, hyear⟩ := ih (Nat.le_of_succ_le hn) (Nat.lt_of_not_le hlast)
      exact ⟨k, Nat.le_succ_of_le hk, hyear⟩

/-- A day of the year has a month and a day. -/
structure DayOfYear (leap : Bool) (yday mon mday : Nat) : Prop where
  month : mon ≤ 11
  pos : 1 ≤ mday
  le : mday ≤ daysIn leap (mon + 1)
  yday : mktimeYday leap mon mday = yday

instance decidableDayOfYear (leap : Bool) (yday mon mday : Nat) :
    Decidable (DayOfYear leap yday mon mday) :=
  decidable_of_iff (mon ≤ 11 ∧ 1 ≤ mday ∧ mday ≤ daysIn leap (mon + 1) ∧
      mktimeYday leap mon mday = yday)
    ⟨fun ⟨hmonth, hpos, hle, hyday⟩ => ⟨hmonth, hpos, hle, hyday⟩,
      fun ⟨hmonth, hpos, hle, hyday⟩ => ⟨hmonth, hpos, hle, hyday⟩⟩

theorem dayOfYear_common : ∀ yday < 365, DayOfYear false yday (gmtimeDate false yday).2
    (gmtimeDate false yday).1.toNat := by
  decide +kernel

theorem dayOfYear_leap : ∀ yday < 366, DayOfYear true yday (gmtimeDate true yday).2
    (gmtimeDate true yday).1.toNat := by
  decide +kernel

theorem exists_dayOfYear (h : yday < yearDays year) :
    ∃ mon mday, DayOfYear (isLeap year) yday mon mday := by
  unfold yearDays at h
  cases hleap : isLeap year with
  | false =>
    rw [hleap] at h
    exact ⟨_, _, dayOfYear_common yday h⟩
  | true =>
    rw [hleap] at h
    exact ⟨_, _, dayOfYear_leap yday h⟩

theorem exists_dayTime (h : secs < 86400) : ∃ t : DayTime, t.seconds = secs := by
  refine ⟨⟨⟨secs / 3600, by omega⟩, ⟨secs / 60 % 60, by omega⟩, ⟨secs % 60, by omega⟩⟩, ?_⟩
  simp only [DayTime.seconds]
  omega

/-- The seconds from 1970 to the start of 2000. -/
def chipStart : Nat := 946684800

/-- The seconds from 1970 to the end of the last year. -/
def chipEnd (w : Nat) : Nat := if 64 ≤ w then 4102444800 else 2145916800

theorem chipEnd_eq (w : Nat) : chipEnd w = daysBefore (lastYear w - 1969) * 86400 := by
  unfold chipEnd lastYear
  split <;> decide

/-- A time that the chip can keep: a date of its years and a time of day. -/
structure ChipTime (w s : Nat) (d : Date) (t : DayTime) : Prop where
  valid : d.Valid
  year : ClockYear w d.year
  seconds : mktime (tmOfDate d t) = s

theorem ChipTime.convertible (h : ChipTime w s d t) : Convertible d :=
  .of_valid h.valid (Nat.le_trans (by decide) h.year.ge) (Nat.le_succ_of_le h.year.le_2099)

theorem exists_chipTime (hw : 32 ≤ w) (hstart : chipStart ≤ s) (hend : s < chipEnd w) :
    ∃ d t, ChipTime w s d t := by
  have hlast := lastYear_le w
  rw [chipEnd_eq] at hend
  unfold chipStart at hstart
  obtain ⟨t, ht⟩ := exists_dayTime (Nat.mod_lt s (show 0 < 86400 by decide))
  have hdays : s / 86400 < daysBefore (lastYear w - 1969) := by omega
  have hbound : daysBefore (lastYear w - 1969) ≤ daysBefore 130 := daysBefore_mono (by omega)
  obtain ⟨n, hn, hbefore, hafter⟩ :=
    exists_year (Nat.le_refl 130) (Nat.lt_of_lt_of_le hdays (Nat.le_add_right_of_le hbound))
  obtain ⟨yday, hyday⟩ := Nat.exists_eq_add_of_le hbefore
  have hyear : yday < yearDays (1970 + n) := by omega
  obtain ⟨mon, mday, hmonth, hpos, hle, hday⟩ := exists_dayOfYear hyear
  have hn' : 30 ≤ n := by
    by_contra hlow
    have hyears := daysBefore_mono (show n + 1 ≤ 30 by omega)
    rw [daysBefore_succ (by omega)] at hyears
    have hthirty : daysBefore 30 = 10957 := by decide
    omega
  have hlow : 1970 + n ≤ lastYear w := by
    by_contra hlate
    have hyears := daysBefore_mono (show lastYear w - 1969 ≤ n by omega)
    omega
  refine ⟨⟨1970 + n, mon + 1, mday⟩, t,
    ⟨Nat.le_add_left 1 mon, Nat.succ_le_succ hmonth, hpos, hle⟩,
    ⟨hw, Nat.add_le_add_left hn' 1970, hlow⟩, ?_⟩
  have hmk := mktime_tmOf (n := n) hn hmonth (Nat.le_trans hle (Calendar.daysIn_le _ _)) hday t
  refine Eq.trans hmk ?_
  omega

-- ---------------------------------------------------------------------------
-- Registers and seconds
-- ---------------------------------------------------------------------------

section
variable {rtc : Rtc}

theorem ChipTime.getTimeIn_rtcOf (h : ChipTime w s d t) : (rtcOf d t).getTimeIn w = s := by
  have hvalid := rtcOf_valid h.valid h.year.ge h.year.le_2099 t
  have htime : hvalid.time = t := by
    have hhour := t.hour.isLt
    have hminute := t.minute.isLt
    have hsecond := t.second.isLt
    simp only [Rtc.Valid.time, rtcOf, BitVec.toNat_ofNat]
    congr 1 <;> exact Fin.ext (Nat.mod_eq_of_lt (by omega))
  have hday := rtcOf_day h.valid h.year.ge h.year.le_2099 t
  rw [hvalid.getTimeIn_eq (hday.symm ▸ h.year), hday, htime, h.seconds]

theorem ChipTime.setTimeIn_eq (h : ChipTime w s d t) (rtc : Rtc) :
    rtc.setTimeIn w s = rtcOf d t := by
  rw [← h.seconds, setTimeIn_mktime h.convertible h.year, Date.carry_of_le h.valid.day_le]

theorem Rtc.Valid.rtcOf (h : rtc.Valid) : rtcOf rtc.day h.time = rtc := by
  have hday : rtc.day.year - 2000 = rtc.year.toNat := Nat.add_sub_cancel_left ..
  simp only [Hvac.rtcOf, hday]
  simp [Rtc.Valid.time, Rtc.day]

theorem Rtc.Valid.setTimeIn_getTimeIn (h : rtc.Valid) (hyear : ClockYear w rtc.day.year)
    (other : Rtc) : other.setTimeIn w (rtc.getTimeIn w) = rtc := by
  rw [h.getTimeIn_eq hyear, setTimeIn_mktime h.convertible hyear, Date.carry_of_le h.day.day_le,
    h.rtcOf]

end

/-- With a `time_t` of `w` bits the chip gives back the seconds it is set to, for every second
from 2000 to 2099, or to 2037 below 64 bits, with a date and a time in its registers; and set
to the seconds that such registers stand for, any chip has just these registers. -/
theorem clock_chip_round_trip (hw : 32 ≤ w) (rtc : Rtc) :
    (∀ s, chipStart ≤ s → s < chipEnd w →
      (rtc.setTimeIn w (s : Nat)).Valid ∧ (rtc.setTimeIn w (s : Nat)).getTimeIn w = s) ∧
    (rtc.Valid → rtc.day.year ≤ lastYear w →
      ∀ other : Rtc, other.setTimeIn w (rtc.getTimeIn w) = rtc) := by
  constructor
  · intro s hstart hend
    obtain ⟨d, t, h⟩ := exists_chipTime hw hstart hend
    rw [h.setTimeIn_eq]
    exact ⟨rtcOf_valid h.valid h.year.ge h.year.le_2099 t, h.getTimeIn_rtcOf⟩
  · intro h hyear
    exact h.setTimeIn_getTimeIn ⟨hw, Nat.le_add_right .., hyear⟩

/-- The last second of 29 February 2024, with 32 bits, and of 2099, with 64. -/
theorem clock_chip_round_trip_leap :
    (({} : Rtc).setTimeIn 32 (1709251199 : Nat)).getTimeIn 32 = (1709251199 : Nat) ∧
      (({} : Rtc).setTimeIn 64 (4102444799 : Nat)).getTimeIn 64 = (4102444799 : Nat) := by
  obtain ⟨hround, -⟩ := clock_chip_round_trip (w := 32) (by decide) {}
  obtain ⟨hround', -⟩ := clock_chip_round_trip (w := 64) (by decide) {}
  exact ⟨(hround 1709251199 (by decide) (by decide)).2,
    (hround' 4102444799 (by decide) (by decide)).2⟩

-- ---------------------------------------------------------------------------
-- A second later
-- ---------------------------------------------------------------------------

def DayTime.midnight : DayTime := ⟨0, 0, 0⟩

/-- The registers a second later on the chip's calendar, which knows the lengths of the
months and the leap years. -/
def Rtc.next (rtc : Rtc) : Rtc :=
  if rtc.seconds.toNat < 59 then { rtc with seconds := rtc.seconds + 1 }
  else if rtc.minutes.toNat < 59 then { rtc with seconds := 0, minutes := rtc.minutes + 1 }
  else if rtc.hours.toNat < 23 then
    { rtc with seconds := 0, minutes := 0, hours := rtc.hours + 1 }
  else rtcOf rtc.day.next .midnight

theorem mktime_midnight (h : Convertible d) (t : DayTime) :
    mktime (tmOfDate d t) = mktime (tmOfDate d .midnight) + t.seconds := by
  obtain ⟨yday, -, hyday, hmk⟩ := mktime_tmOfDate h t
  obtain ⟨yday', -, hyday', hmk'⟩ := mktime_tmOfDate h .midnight
  have hzero : DayTime.midnight.seconds = 0 := rfl
  rw [hmk, hmk', hzero]
  omega

/-- From the last day of a month to the first of the next is one day of the year. -/
theorem mktimeYday_succ : ∀ leap, ∀ mon ≤ 10,
    mktimeYday leap (mon + 1) 1 = mktimeYday leap mon (daysIn leap (mon + 1)) + 1 := by
  decide

/-- The day after starts 86400 seconds later. -/
theorem mktime_next (h : Date.Valid d) (hyear : 1970 ≤ d.year) (hyear' : d.year ≤ 2099) :
    mktime (tmOfDate d.next .midnight) = mktime (tmOfDate d .midnight) + 86400 := by
  obtain ⟨hge, hle⟩ := d.next_year
  obtain ⟨yday, -, hyday, hmk⟩ :=
    mktime_tmOfDate (.of_valid h hyear (Nat.le_succ_of_le hyear')) .midnight
  obtain ⟨yday', -, hyday', hmk'⟩ :=
    mktime_tmOfDate (.of_valid (Date.next_valid h) (by omega) (by omega)) .midnight
  rw [hmk, hmk']
  obtain ⟨hmonth, hmonth', hday, hday'⟩ := h
  obtain ⟨mon, hmon⟩ := Nat.exists_eq_add_of_le' hmonth
  rw [hmon, Nat.add_sub_cancel] at hyday
  unfold Date.next at hyday' ⊢
  split at hyday'
  · -- within the month
    rename_i hlt
    rw [if_pos hlt]
    simp only [hmon, Nat.add_sub_cancel, mktimeYday, Nat.cast_add, Nat.cast_one] at hyday hyday' ⊢
    omega
  rename_i hfull
  have hlast : d.day = daysIn (isLeap d.year) (mon + 1) := by
    rw [← hmon]
    exact Nat.le_antisymm hday' (Nat.le_of_not_lt hfull)
  split at hyday' <;> rename_i hend
  · -- into the next month of the year
    have hnext := mktimeYday_succ (isLeap d.year) mon (by omega)
    rw [if_neg hfull, if_pos hend]
    simp only [hmon, Nat.add_sub_cancel] at hyday' ⊢
    rw [hlast] at hyday
    omega
  · -- into the next year
    have hdecember : mon = 11 := by omega
    subst hdecember
    obtain ⟨n, hn⟩ := Nat.exists_eq_add_of_le hyear
    have hyears := daysBefore_succ (n := n) (by omega)
    rw [if_neg hfull, if_neg hend]
    rw [hn] at hlast hyday hyday' ⊢
    simp only [show 1970 + n + 1 - 1970 = n + 1 by omega, Nat.add_sub_cancel_left,
      hyears, yearDays] at hyday' ⊢
    rw [hlast] at hyday
    cases hleap : isLeap (1970 + n) <;> rw [hleap] at hyday <;>
      simp [mktimeYday, spm, daysIn] at hyday hyday' ⊢ <;> omega

section
variable {rtc : Rtc}

/-- The year is read off the seconds. -/
theorem Rtc.Valid.clockYear_of_lt (h : rtc.Valid) (hw : 32 ≤ w) (hlt : rtc.getTime < chipEnd w) :
    ClockYear w rtc.day.year := by
  refine ⟨hw, Nat.le_add_right .., ?_⟩
  by_contra hlate
  obtain ⟨yday, -, -, hmk⟩ := mktime_tmOfDate h.convertible h.time
  have hyears := daysBefore_mono (show lastYear w - 1969 ≤ rtc.day.year - 1970 by omega)
  rw [h.getTime_eq, hmk, chipEnd_eq] at hlt
  omega

theorem Rtc.Valid.getTime_sameDay {rtc' : Rtc} (h : rtc.Valid) (h' : rtc'.Valid)
    (hday : rtc'.day = rtc.day) (hsecs : h'.time.seconds = h.time.seconds + 1) :
    rtc'.getTime = rtc.getTime + 1 := by
  rw [h'.getTime_eq, h.getTime_eq, hday, mktime_midnight h.convertible h'.time,
    mktime_midnight h.convertible h.time, hsecs]
  push_cast
  omega

/-- A second on the calendar is a second of `mktime`. -/
theorem Rtc.Valid.next (h : rtc.Valid) (hend : rtc.getTime + 1 < chipEnd timeTBits) :
    rtc.next.Valid ∧ rtc.next.getTime = rtc.getTime + 1 := by
  obtain ⟨hhours, hminutes, hseconds, hyear, hday⟩ := id h
  have hone : BitVec.toNat (1 : U8) = 1 := rfl
  have hzero : BitVec.toNat (0 : U8) = 0 := rfl
  unfold Rtc.next
  split
  · have hnext : ({ rtc with seconds := rtc.seconds + 1 } : Rtc).Valid := by
      refine ⟨hhours, hminutes, ?_, hyear, hday⟩
      simp only [BitVec.toNat_add, hone]
      omega
    refine ⟨hnext, h.getTime_sameDay hnext rfl ?_⟩
    simp only [DayTime.seconds, Rtc.Valid.time, BitVec.toNat_add, hone]
    omega
  split
  · have hnext : ({ rtc with seconds := 0, minutes := rtc.minutes + 1 } : Rtc).Valid := by
      refine ⟨hhours, ?_, show 0 < 60 by decide, hyear, hday⟩
      simp only [BitVec.toNat_add, hone]
      omega
    refine ⟨hnext, h.getTime_sameDay hnext rfl ?_⟩
    simp only [DayTime.seconds, Rtc.Valid.time, BitVec.toNat_add, hone, hzero]
    omega
  split
  · have hnext : ({ rtc with seconds := 0, minutes := 0, hours := rtc.hours + 1 } : Rtc).Valid := by
      refine ⟨?_, show 0 < 60 by decide, show 0 < 60 by decide, hyear, hday⟩
      simp only [BitVec.toNat_add, hone]
      omega
    refine ⟨hnext, h.getTime_sameDay hnext rfl ?_⟩
    simp only [DayTime.seconds, Rtc.Valid.time, BitVec.toNat_add, hone, hzero]
    omega
  · -- midnight, which is not that of 2100
    have hlast : rtc.day.year ≤ 2099 := h.clockYear.le_2099
    have hge : 2000 ≤ rtc.day.year := Nat.le_add_right ..
    have hmidnight : mktime (tmOfDate rtc.day.next .midnight) = rtc.getTime + 1 := by
      have hsecs : h.time.seconds = 86399 := by
        simp only [DayTime.seconds, Rtc.Valid.time]
        omega
      rw [mktime_next hday (by omega) hlast, h.getTime_eq, mktime_midnight h.convertible h.time,
        hsecs]
      push_cast
      omega
    obtain ⟨hnext, hnext'⟩ := rtc.day.next_year
    have hconv : Convertible rtc.day.next := .of_valid (Date.next_valid hday) (by omega) (by omega)
    have hnotlast : rtc.day.next.year ≤ 2099 := by
      by_contra hlate
      obtain ⟨yday, -, -, hmk⟩ := mktime_tmOfDate hconv .midnight
      have hyears := daysBefore_mono (show 130 ≤ rtc.day.next.year - 1970 by omega)
      rw [← hmidnight, hmk, chipEnd_eq, show lastYear timeTBits - 1969 = 130 from rfl] at hend
      omega
    have htime : ChipTime timeTBits (mktime (tmOfDate rtc.day.next .midnight)).toNat rtc.day.next
        .midnight := by
      refine ⟨Date.next_valid hday, ⟨by decide, by omega, hnotlast⟩, ?_⟩
      exact (Int.toNat_of_nonneg (mktime_spec hconv .midnight).1).symm
    refine ⟨rtcOf_valid htime.valid htime.year.ge hnotlast .midnight, ?_⟩
    exact htime.getTimeIn_rtcOf.trans (htime.seconds.symm.trans hmidnight)

end

-- ---------------------------------------------------------------------------
-- What touches the clock
-- ---------------------------------------------------------------------------

/-- No second half of a time is carried out, and no date or time is edited. -/
def KeepsClock : Event → Module → Prop
  | .poll alloc, m => ¬Writes regNowTime1 (.poll alloc) m
  | .settingPage page, _ => page.changeValue = no ∨ page.cusor < 9 ∨ 14 < page.cusor
  | _, _ => True

instance decidableKeepsClock : (e : Event) → (m : Module) → Decidable (KeepsClock e m)
  | .poll alloc, m => inferInstanceAs (Decidable ¬Writes regNowTime1 (.poll alloc) m)
  | .settingPage page, _ =>
    inferInstanceAs (Decidable (page.changeValue = no ∨ page.cusor < 9 ∨ 14 < page.cusor))
  | .input _, _ | .every10s _ _, _ | .timeRunning, _ | .controlProgram _, _
  | .monitorConnectedState, _ | .homePage _, _ | .rtcTick _, _ | .reboot, _ =>
    inferInstanceAs (Decidable True)

theorem writeNowTime_rtc (high : U16) (m : Module) : (writeNowTime high m).rtc = m.rtc := by
  simp only [writeNowTime]

theorem writeRegister_rtc (h : reg ≠ regNowTime1) (v : U16) (m : Module) :
    (writeRegister reg v m).rtc = m.rtc := by
  unfold writeRegister modbusCommand
  cases hr : Register.decode reg with
  | nowTime1 => exact absurd (decode_nowTime1_iff.mp hr) h
  | nowTime => exact writeNowTime_rtc v m
  | _ => simp only

theorem writeRegisters_rtc (writes : List (U16 × U16)) (h : regNowTime1 ∉ writes.map Prod.fst)
    (m : Module) : (writeRegisters writes m).rtc = m.rtc := by
  induction writes generalizing m with
  | nil => rfl
  | cons w rest ih =>
    rw [List.map_cons, List.mem_cons, not_or] at h
    exact (ih h.2 _).trans (writeRegister_rtc (Ne.symm h.1) w.2 m)

/-- A poll does to the clock what the writes it carries out do. -/
theorem uartPoll_rtc (alloc : Alloc) (m : Module) :
    (uartPoll alloc m).rtc = (writeRegisters (registerWrites (.poll alloc) m) m).rtc := by
  by_cases hp : m.Pending
  · rw [uartPoll_pending hp, registerWrites]
    obtain ⟨hok, hcode, he⟩ | ⟨hd, he⟩ | ⟨-, hd, he⟩ :=
      uart1Analysis_cases alloc m.rx.data m.handedLen (uart1CleanRecvFlag m) <;> rw [he]
    · rw [if_neg fun h => h.2.2.1 hcode]
      obtain ⟨-, -, hr⟩ | ⟨-, hr⟩ := register_cases m.rx.data (uart1CleanRecvFlag m) <;> rw [hr] <;>
        rfl
    · rw [if_pos ⟨hp, hd⟩]
      have hwrites := modbusCommandAnalysis_writes alloc m.rx.data (uart1CleanRecvFlag m)
      have hclean : (uart1CleanRecvFlag m).registers = m.registers := rfl
      have hall := hwrites.trans (writeRegisters_registers hclean (commandWrites m.rx.data))
      exact congrArg (fun r : TypeInfo × TypeSensor × TypeAction × Rtc × BitVec 64 => r.2.2.2.1)
        hall
    · rw [if_neg fun h => hd h.2]
      rfl
  · rw [uartPoll_idle hp, registerWrites, if_neg fun h => hp h.1]
    rfl

theorem settingField_rtc {add sub : SettingPass → SettingPass}
    (hadd : ∀ s, (add s).module.rtc = s.module.rtc)
    (hsub : ∀ s, (sub s).module.rtc = s.module.rtc) (s : SettingPass) :
    (settingField cusor add sub s).module.rtc = s.module.rtc := by
  unfold settingField
  dsimp only
  repeat' split
  all_goals simp only [hadd, hsub]

/-- The rows of the date and of the time have the cursor positions 9 to 14. -/
theorem settingRow_rtc (i : Int) (s : SettingPass) (h : s.page.cusor < 9 ∨ 14 < s.page.cusor) :
    (settingRow i s).module.rtc = s.module.rtc := by
  have hne (cusor : U8) (hlow : 9 ≤ cusor) (hhigh : cusor ≤ 14) : s.page.cusor ≠ cusor := by
    rintro rfl
    obtain hlt | hlt := h
    · exact absurd hlow (BitVec.not_le.mpr hlt)
    · exact absurd hhigh (BitVec.not_le.mpr hlt)
  have info (f : TypeInfo → TypeInfo) (s : SettingPass) :
      (onInfo f s).module.rtc = s.module.rtc := rfl
  have hyear := hne 9 (by decide) (by decide)
  have hmonth := hne 10 (by decide) (by decide)
  have hday := hne 11 (by decide) (by decide)
  have hhour := hne 12 (by decide) (by decide)
  have hminute := hne 13 (by decide) (by decide)
  have hsecond := hne 14 (by decide) (by decide)
  unfold settingRow
  split
  case h_9 =>
    dsimp only
    rw [settingField_elsewhere _ _ _ s hyear, settingField_elsewhere _ _ _ s hmonth,
      settingField_elsewhere _ _ _ s hday]
  case h_10 =>
    dsimp only
    rw [settingField_elsewhere _ _ _ s hhour, settingField_elsewhere _ _ _ s hminute,
      settingField_elsewhere _ _ _ s hsecond]
  all_goals simp only [settingField_rtc, info, implies_true]

theorem settingPage_rtc (h : page.changeValue = no ∨ page.cusor < 9 ∨ 14 < page.cusor)
    (m : Module) : (settingPage page m).2.rtc = m.rtc := by
  have hrows (rows : List Int) (s : SettingPass) (hs : s.page.changeValue = no ∨
      s.page.cusor < 9 ∨ 14 < s.page.cusor) :
      (rows.foldl (fun s i => settingRow i s) s).module.rtc = s.module.rtc := by
    induction rows generalizing s with
    | nil => rfl
    | cons i rest ih =>
      obtain hshown | hcusor := hs
      · rw [List.foldl_cons, settingRow_shown i s hshown]
        exact ih s (.inl hshown)
      · refine (ih (settingRow i s) (.inr ?_)).trans (settingRow_rtc i s hcusor)
        rwa [settingRow_cusor]
  exact hrows _ (startPass page m) h

def Event.isTick : Event → Bool
  | .rtcTick _ => true
  | _ => false

/-- The chip, which is not in the sources, counts its calendar on by a second. -/
def ChipCounts : Event → Module → Prop
  | .rtcTick rtc, m => rtc = m.rtc.next
  | _, _ => True

instance decidableChipCounts : (e : Event) → (m : Module) → Decidable (ChipCounts e m)
  | .rtcTick rtc, m => inferInstanceAs (Decidable (rtc = m.rtc.next))
  | .input _, _ | .poll _, _ | .every10s _ _, _ | .timeRunning, _ | .controlProgram _, _
  | .monitorConnectedState, _ | .homePage _, _ | .settingPage _, _ | .reboot, _ =>
    inferInstanceAs (Decidable True)

theorem step_rtc (h : KeepsClock e m) (hcounts : ChipCounts e m) :
    (step e m).rtc = if e.isTick then m.rtc.next else m.rtc := by
  cases e with
  | rtcTick rtc => exact hcounts
  | poll alloc => exact (uartPoll_rtc alloc m).trans (writeRegisters_rtc _ h m)
  | settingPage page => exact settingPage_rtc h m
  | controlProgram adc =>
    obtain ⟨_, _, _, _, hm⟩ := controlProgram_thermostatOnly adc m
    rw [step, hm]
    rfl
  | every10s calloc ops =>
    rw [step, uartEvery10s, saveGlobalInfo]
    dsimp only
    split <;> split <;> rfl
  | monitorConnectedState =>
    rw [step, monitorConnectedState]
    split <;> rfl
  | _ => rfl

/-- The chip counts on by the second, whatever the threads do besides setting it. -/
theorem run_clock (h : Within step KeepsClock events m) (hcounts : Within step ChipCounts events m)
    (hvalid : m.rtc.Valid)
    (hend : m.rtc.getTime + events.countP Event.isTick < chipEnd timeTBits) :
    (run events m).rtc.Valid ∧
      (run events m).rtc.getTime = m.rtc.getTime + events.countP Event.isTick := by
  induction events generalizing m with
  | nil => exact ⟨hvalid, (Int.add_zero _).symm⟩
  | cons e rest ih =>
    have hstep := step_rtc h.1 hcounts.1
    rw [List.countP_cons] at hend ⊢
    cases htick : e.isTick with
    | false =>
      rw [htick, if_neg Bool.false_ne_true] at hstep
      rw [htick] at hend
      rw [← hstep] at hvalid hend ⊢
      exact ih h.2 hcounts.2 hvalid hend
    | true =>
      rw [htick, if_pos rfl] at hstep hend
      obtain ⟨hnext, htime⟩ := hvalid.next (by push_cast at hend; omega)
      rw [← hstep] at hnext htime
      obtain ⟨hlast, hlater⟩ := ih h.2 hcounts.2 hnext (by push_cast at hend; omega)
      refine ⟨hlast, ?_⟩
      rw [show run (e :: rest) m = run rest (step e m) from rfl, hlater, htime, if_pos rfl]
      push_cast
      omega

-- ---------------------------------------------------------------------------
-- From the broadcast on
-- ---------------------------------------------------------------------------

theorem ChipTime.gmtimeR_eq (h : ChipTime w s d t) : gmtimeR s = tmOfDate d t := by
  rw [← h.seconds, (mktime_spec h.convertible t).2.2, Date.carry_of_le h.valid.day_le]

/-- What `get_sys_time_by_timestamp` finds in a time. -/
theorem ChipTime.sysTime (h : ChipTime w s d t) :
    (getSysTimeByTimestamp s).date = d ∧ (getSysTimeByTimestamp s).hour.toNat = t.hour ∧
      (getSysTimeByTimestamp s).minute.toNat = t.minute ∧
      (getSysTimeByTimestamp s).second.toNat = t.second := by
  have hyear := h.year.le_2099
  have hmonth := h.valid.month_pos
  have hmonth' := h.valid.month_le
  have hday := h.valid.day_le_31
  have hhour := t.hour.isLt
  have hminute := t.minute.isLt
  have hsecond := t.second.isLt
  have hmon : (tmOfDate d t).mon + 1 = (d.month : Int) := by
    simp only [tmOfDate, tmOf]
    omega
  have hyr : (tmOfDate d t).year + 1900 = (d.year : Int) := by
    simp only [tmOfDate, tmOf]
    omega
  unfold getSysTimeByTimestamp SysTime.date
  simp only [h.gmtimeR_eq, hmon, hyr]
  simp only [tmOfDate, tmOf, BitVec.ofInt_natCast, BitVec.toNat_ofNat]
  refine ⟨?_, ?_, ?_, ?_⟩
  · rw [Nat.mod_eq_of_lt (by omega), Nat.mod_eq_of_lt (by omega), Nat.mod_eq_of_lt (by omega)]
  all_goals exact Nat.mod_eq_of_lt (by omega)

/-- The date and the time are set one after the other, each with the other half kept. -/
theorem ChipTime.setDate_setTime (h : ChipTime timeTBits s d t) (hvalid : rtc.Valid)
    (hs : time = getSysTimeByTimestamp s) :
    setTime (setDate rtc time.year time.month time.day) time.hour time.minute time.second =
      rtcOf d t := by
  subst hs
  obtain ⟨hdate, hhour, hminute, hsecond⟩ := h.sysTime
  have hset := setDateIn_eq hvalid hvalid.clockYear (hdate ▸ h.convertible) (hdate ▸ h.year)
  rw [hdate, Date.carry_of_le h.valid.day_le] at hset
  have hdated := rtcOf_valid h.valid h.year.ge h.year.le_2099 hvalid.time
  have hkept := hdated.gmtimeR_getTimeIn hdated.clockYear
  rw [rtcOf_day h.valid h.year.ge h.year.le_2099] at hkept
  rw [setDate, hset, setTime, Rtc.getTime, hkept, hhour, hminute, hsecond]
  refine Eq.trans ?_ (h.setTimeIn_eq (rtcOf d hvalid.time))
  rw [← h.seconds]
  rfl

theorem writeNowTime1_rtc {m : Module} {s : Nat} (hvalid : m.rtc.Valid)
    (hs : (m.timeCorrect ||| low.setWidth 64).toInt = s) (hstart : chipStart ≤ s)
    (hend : s < chipEnd timeTBits) :
    (writeNowTime1 low m).rtc.Valid ∧ (writeNowTime1 low m).rtc.getTime = s := by
  obtain ⟨d, t, h⟩ := exists_chipTime (by decide) hstart hend
  have hrtc : (writeNowTime1 low m).rtc = rtcOf d t := h.setDate_setTime hvalid (by rw [hs])
  rw [hrtc]
  exact ⟨rtcOf_valid h.valid h.year.ge h.year.le_2099 t, h.getTimeIn_rtcOf⟩

/-- One frame with both halves of a time, to every module. -/
def timeFrame (high low : U16) : List U8 := writeMutiFrame 0x00 regNowTime [high, low]

theorem deliver_timeFrame {m : Module} (hregistered : m.info.registerState = yes)
    (hvalid : m.rtc.Valid) (hhigh : high.toNat < 0x8000)
    (hstart : chipStart ≤ broadcastTime high low) (alloc : Alloc) :
    (run (deliver alloc (timeFrame high low)) m).rtc.Valid ∧
      (run (deliver alloc (timeFrame high low)) m).rtc.getTime = broadcastTime high low := by
  have hto : ToModule (timeFrame high low) m := toModule_writeMuti (.inr rfl) _ (by simp)
  have hwrites : frameWrites (uart1Input (timeFrame high low) m).rx.data =
      writesTo 0x00 (registerSequence regNowTime [high, low]) :=
    frameWrites_writeMuti 0x00 regNowTime (by simp) m
  have hall := (run_deliver hto hregistered alloc).trans
    (congrArg (fun writes => (writeRegisters writes m).registers) hwrites)
  have hrtc : (run (deliver alloc (timeFrame high low)) m).rtc =
      (writeNowTime1 low (writeNowTime high m)).rtc :=
    congrArg (fun r : TypeInfo × TypeSensor × TypeAction × Rtc × BitVec 64 => r.2.2.2.1) hall
  have htime : ((writeNowTime high m).timeCorrect ||| low.setWidth 64).toInt =
      broadcastTime high low := by
    rw [writeNowTime, signExtend_broadcastWord]
    exact (toInt_signExtend_broadcastWord high low low).mpr ⟨hhigh, rfl⟩
  have hend : broadcastTime high low < chipEnd timeTBits := by
    have hlow := low.isLt
    have hlast : chipEnd timeTBits = 4102444800 := rfl
    unfold broadcastTime
    omega
  rw [hrtc]
  rw [← writeNowTime_rtc high m] at hvalid
  exact writeNowTime1_rtc hvalid htime hstart hend

/-- Both halves of a time before 2038 are sent to all, and the chip, which holds a date and a
time, ticks `n` times, not past 2037, while the threads do whatever they do but setting it:
then the clock, read with a `time_t` of 32 bits or more, is `n` seconds on. If start and end
of the day are times of day, one that does not pass midnight is the day exactly in its arc of
these seconds, one that does exactly outside it. -/
theorem broadcast_clock_runs {m : Module} (events : List Event)
    (hregistered : m.info.registerState = yes) (hvalid : m.rtc.Valid) (hhigh : high.toNat < 0x8000)
    (hstart : chipStart ≤ broadcastTime high low) (alloc : Alloc)
    (hkeeps : Within step KeepsClock events (run (deliver alloc (timeFrame high low)) m))
    (hcounts : Within step ChipCounts events (run (deliver alloc (timeFrame high low)) m))
    (hend : broadcastTime high low + events.countP Event.isTick < chipEnd 32) :
    let m' := run (deliver alloc (timeFrame high low) ++ events) m
    let now : Int := broadcastTime high low + events.countP Event.isTick
    m'.rtc.Valid ∧ (∀ w, 32 ≤ w → m'.rtc.getTimeIn w = now) ∧
      (DaySet m' → (identifyDayAndNight m' = .inDay ↔
        (Arc.Mem secondsOfDay (timeSeconds m'.info.dayStartTime) (timeSeconds m'.info.dayEndTime)
          now ↔ ¬Wraps m'))) := by
  intro m' now
  obtain ⟨hset, htime⟩ := deliver_timeFrame hregistered hvalid hhigh hstart alloc
  have hm' : m' = run events (run (deliver alloc (timeFrame high low)) m) := Machine.run_append ..
  have hlate : chipEnd 32 ≤ chipEnd timeTBits := by decide
  obtain ⟨hlast, hnow⟩ := run_clock hkeeps hcounts hset (by rw [htime]; omega)
  rw [← hm'] at hlast hnow
  rw [htime] at hnow
  refine ⟨hlast, fun w hw => ?_, fun h => ?_⟩
  · have hyear : ClockYear 32 m'.rtc.day.year :=
      hlast.clockYear_of_lt (Nat.le_refl 32) (by rw [hnow]; omega)
    have hlater : 2037 ≤ lastYear w := by
      unfold lastYear
      split <;> decide
    rw [hlast.getTimeIn_eq ⟨hw, hyear.ge, Nat.le_trans hyear.le hlater⟩, ← hlast.getTime_eq]
    exact hnow
  have harc : InDayArc m' ↔ Arc.Mem secondsOfDay (timeSeconds m'.info.dayStartTime)
      (timeSeconds m'.info.dayEndTime) now := by
    refine Arc.mem_congr (Int.ModEq.refl _) (Int.ModEq.refl _) ?_
    rw [nowSeconds_eq, hnow]
    exact Int.mod_modEq _ _
  rw [← harc]
  by_cases hwraps : Wraps m'
  · simp [inDay_of_wraps h hwraps, hwraps]
  · simp [inDay_of_not_wraps h hwraps, hwraps]

/-- The last second of 29 February 2024 is sent, and the chip ticks into March. -/
def leapTicks : List Event :=
  [.rtcTick { date := 1, month := 3, year := 24 }, .timeRunning,
    .rtcTick { seconds := 1, date := 1, month := 3, year := 24 }]

theorem broadcast_clock_runs_leap :
    (run (deliver ⟨true, true⟩ (timeFrame 0x65E1 0x1A7F) ++ leapTicks)
      (run registered blank)).rtc.getTimeIn 32 = broadcastTime 0x65E1 0x1A7F + 2 := by
  have hregistered : (run registered blank).info.registerState = yes := by decide +kernel
  have hvalid : (run registered blank).rtc.Valid :=
    ⟨by decide +kernel, by decide +kernel, by decide +kernel, by decide +kernel,
      ⟨by decide +kernel, by decide +kernel, by decide +kernel, by decide +kernel⟩⟩
  have hstart : chipStart ≤ broadcastTime 0x65E1 0x1A7F := by decide
  have hend : broadcastTime 0x65E1 0x1A7F + 2 < chipEnd 32 := by decide
  exact (broadcast_clock_runs leapTicks hregistered hvalid (by decide) hstart ⟨true, true⟩
    ⟨trivial, trivial, trivial, trivial⟩ (by decide +kernel) hend).2.1 32 (Nat.le_refl 32)

end Hvac
