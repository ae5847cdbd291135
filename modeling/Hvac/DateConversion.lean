import Hvac.Clock
import Hvac.Lib.Calendar

/-!
# Dates and seconds

From 1970 to 2100, `gmtime_r` takes back what `mktime` makes of a date and a
time, a day past the end of its month being carried into the next. Through the
clock chip the same holds from 2000 to 2099, or to 2037 where a `time_t` has 32 bits.
-/

namespace Hvac

open Calendar (Date daysIn isLeap)

-- ---------------------------------------------------------------------------
-- Years
-- ---------------------------------------------------------------------------

theorem isleap_natCast (year : Nat) : isleap year = isLeap year := by
  have hmod (n : Int) : (year : Int).tmod n = year % n :=
    Int.tmod_eq_emod_of_nonneg (Int.natCast_nonneg year)
  unfold isleap isLeap
  rw [Bool.eq_iff_iff]
  simp only [Bool.and_eq_true, Bool.or_eq_true, decide_eq_true_eq, hmod]
  omega

def yearDays (year : Nat) : Nat := if isLeap year then 366 else 365

/-- The days from 1970 to the year `1970 + n`, as `mktime` counts them. -/
def daysBefore (n : Nat) : Nat := n * 365 + (n + 1) / 4

/-- Up to 2099 every fourth year is a leap year. -/
theorem isLeap_eq : ∀ n < 130, isLeap (1970 + n) = decide ((n + 2) % 4 = 0) := by decide

theorem daysBefore_succ (h : n < 130) :
    daysBefore (n + 1) = daysBefore n + yearDays (1970 + n) := by
  unfold daysBefore yearDays
  rw [isLeap_eq n h]
  split <;> rename_i hfour <;> simp only [decide_eq_true_eq] at hfour <;> omega

theorem daysBefore_mono (h : n ≤ n') : daysBefore n ≤ daysBefore n' := by
  unfold daysBefore
  omega

/-- The year loop takes the years off one by one. -/
theorem gmtimeYear_eq {r : Nat} (hn : j + n ≤ 130) (hr : r < yearDays (1970 + (j + n)))
    (hturns : n ≤ turns) :
    gmtimeYear turns (1970 + j : Nat) (daysBefore (j + n) - daysBefore j + r) =
      (((1970 + (j + n) : Nat) : Int), (r : Int)) := by
  have hk (year : Nat) : (if isleap year then (366 : Int) else 365) = yearDays year := by
    rw [isleap_natCast]
    unfold yearDays
    split <;> rfl
  induction n generalizing j turns with
  | zero =>
    have hwork : (daysBefore (j + 0) - daysBefore j + r : Int) = r := by simp
    rw [hwork]
    cases turns with
    | zero => rfl
    | succ turns =>
      rw [gmtimeYear, hk, if_neg]
      · rfl
      · simp only [Nat.add_zero] at hr
        omega
  | succ n ih =>
    cases turns with
    | zero => cases hturns
    | succ turns =>
      have hyear := daysBefore_succ (n := j) (by omega)
      have hmore := daysBefore_mono (show j + 1 ≤ j + (n + 1) by omega)
      have hnext : j + (n + 1) = j + 1 + n := by omega
      rw [gmtimeYear, hk, if_pos (by omega)]
      rw [hnext] at hn hr ⊢
      rw [← ih hn hr (Nat.le_of_succ_le_succ hturns), hyear]
      congr 1
      omega

-- ---------------------------------------------------------------------------
-- Days of a year
-- ---------------------------------------------------------------------------

/-- The month and the day `gmtime_r` finds for a day of the year. -/
def gmtimeDate (leap : Bool) (yday : Int) : Int × Nat :=
  let late := leap && decide (yday > 58)
  let mday := if late && yday == 59 then 2 else 1
  let work := if late then yday - 1 else yday
  let mon := gmtimeMonth work 11
  (mday + (work - spm mon), mon)

/-- The day of the year, from zero, as `mktime` counts it. -/
def mktimeYday (leap : Bool) (mon : Nat) (mday : Nat) : Int :=
  spm mon + mday - 1 + (if leap && decide (mon > 1) then 1 else 0)

theorem spm_bounds : ∀ mon ≤ 11, 0 ≤ spm mon ∧ spm mon ≤ 334 := by decide

theorem spm_mono : ∀ mon' ≤ 12, ∀ mon ≤ mon', spm mon ≤ spm mon' := by decide

/-- The table is of the years without a leap day. -/
theorem spm_succ : ∀ mon ≤ 11, spm (mon + 1) = spm mon + daysIn false (mon + 1) := by decide

theorem gmtimeMonth_eq (hge : spm mon ≤ work) (hlt : work < spm (mon + 1)) (hi : i ≤ 11)
    (hmon : mon ≤ i) : gmtimeMonth work i = mon := by
  induction i with
  | zero => exact (Nat.le_zero.mp hmon).symm
  | succ i ih =>
    rw [gmtimeMonth]
    rcases Nat.lt_or_eq_of_le hmon with hless | rfl
    · have hnext := spm_mono (i + 1) (by omega) (mon + 1) hless
      rw [if_pos (by omega)]
      exact ih (by omega) (Nat.le_of_lt_succ hless)
    · rw [if_neg (by omega)]

/-- Without a leap day, a day past the end of the month is one of the next. -/
theorem gmtimeMonth_carry {mday : Nat} (hmon : mon ≤ 11) (hday : 1 ≤ mday) (hday' : mday ≤ 31) :
    (mday ≤ daysIn false (mon + 1) → gmtimeMonth (spm mon + mday - 1) 11 = mon) ∧
      (daysIn false (mon + 1) < mday → gmtimeMonth (spm mon + mday - 1) 11 = mon + 1) := by
  have hlen := spm_succ mon hmon
  constructor
  · intro hle
    exact gmtimeMonth_eq (by omega) (by omega) (by decide) hmon
  · intro hlt
    have hdecember : mon ≠ 11 := by
      rintro rfl
      exact absurd hday' (Nat.not_le_of_lt hlt)
    have hnext := spm_succ (mon + 1) (by omega)
    have hlong := Calendar.le_daysIn false (mon + 1)
    have hlong' := Calendar.le_daysIn false (mon + 1 + 1)
    exact gmtimeMonth_eq (by omega) (by omega) (by decide) (by omega)

/-- Where the leap day is not in play the two functions agree as in the table. -/
theorem gmtimeDate_table {mday : Nat} (hmon : mon ≤ 11) (hday : 1 ≤ mday) (hday' : mday ≤ 31) :
    (1 + (spm mon + mday - 1 - spm (gmtimeMonth (spm mon + mday - 1) 11)),
        gmtimeMonth (spm mon + mday - 1) 11) =
      if mday ≤ daysIn false (mon + 1) then ((mday : Int), mon)
      else (((mday - daysIn false (mon + 1) : Nat) : Int), mon + 1) := by
  obtain ⟨hin, hpast⟩ := gmtimeMonth_carry hmon hday hday'
  have hlen := spm_succ mon hmon
  split
  · rename_i hle
    rw [hin hle, Prod.mk.injEq]
    exact ⟨by omega, rfl⟩
  · rename_i hlt
    rw [hpast (Nat.lt_of_not_le hlt), Prod.mk.injEq]
    exact ⟨by omega, rfl⟩

theorem gmtimeDate_mktimeYday (leap : Bool) {mday : Nat} (hmon : mon ≤ 11) (hday : 1 ≤ mday)
    (hday' : mday ≤ 31) :
    gmtimeDate leap (mktimeYday leap mon mday) =
      if mday ≤ daysIn leap (mon + 1) then ((mday : Int), mon)
      else (((mday - daysIn leap (mon + 1) : Nat) : Int), mon + 1) := by
  have htable := gmtimeDate_table hmon hday hday'
  cases leap with
  | false => simpa [gmtimeDate, mktimeYday] using htable
  | true =>
    obtain ⟨hpos, hle⟩ := spm_bounds mon hmon
    match mon, hmon with
    | 0, _ =>
      have hearly : ¬58 < spm 0 + mday - 1 := by
        have hzero : spm 0 = 0 := rfl
        omega
      rw [Calendar.daysIn_of_ne true false (by decide)]
      simpa [gmtimeDate, mktimeYday, hearly] using htable
    | 1, _ =>
      rcases Nat.lt_or_ge 28 mday with hlate | hearly
      · obtain rfl | rfl | rfl : mday = 29 ∨ mday = 30 ∨ mday = 31 := by omega
        all_goals decide
      · have hwork : ¬58 < spm 1 + mday - 1 := by
          have hone : spm 1 = 31 := rfl
          omega
        rw [if_pos (show mday ≤ daysIn false (1 + 1) from hearly)] at htable
        rw [if_pos (show mday ≤ daysIn true (1 + 1) from Nat.le_succ_of_le hearly)]
        simpa [gmtimeDate, mktimeYday, hwork] using htable
    | mon + 2, hmon =>
      have hlate : 58 < spm (mon + 2) + mday ∧ spm (mon + 2) + mday ≠ 59 := by
        have hmono := spm_mono (mon + 2) (by omega) 2 (by omega)
        have htwo : spm 2 = 59 := rfl
        omega
      rw [Calendar.daysIn_of_ne true false (by omega)]
      simpa [gmtimeDate, mktimeYday, hlate] using htable

theorem mktimeYday_bounds (leap : Bool) (hmon : mon ≤ 11) (hday : 1 ≤ mday) (hday' : mday ≤ 31) :
    0 ≤ mktimeYday leap mon mday ∧ mktimeYday leap mon mday < if leap then 366 else 365 := by
  obtain ⟨hpos, hle⟩ := spm_bounds mon hmon
  unfold mktimeYday
  cases leap with
  | false =>
    simp only [Bool.false_and, Bool.false_eq_true, if_false]
    omega
  | true =>
    simp only [if_true]
    split <;> omega

-- ---------------------------------------------------------------------------
-- Seconds
-- ---------------------------------------------------------------------------

/-- A time of day. -/
structure DayTime where
  hour : Fin 24
  minute : Fin 60
  second : Fin 60
  deriving DecidableEq, Repr

def DayTime.seconds (t : DayTime) : Nat := (t.hour * 60 + t.minute) * 60 + t.second

theorem DayTime.seconds_lt (t : DayTime) : t.seconds < 86400 := by
  have hhour := t.hour.isLt
  have hminute := t.minute.isLt
  have hsecond := t.second.isLt
  unfold seconds
  omega

theorem DayTime.split (t : DayTime) :
    (t.seconds : Int).tmod 60 = t.second ∧ ((t.seconds : Int).tdiv 60).tmod 60 = t.minute ∧
      ((t.seconds : Int).tdiv 60).tdiv 60 = t.hour := by
  have hminute := t.minute.isLt
  have hsecond := t.second.isLt
  have hmin : (t.seconds : Int).tdiv 60 = (t.hour * 60 + t.minute : Nat) := by
    rw [Int.tdiv_eq_ediv_of_nonneg (by omega)]
    unfold seconds
    omega
  rw [hmin, Int.tmod_eq_emod_of_nonneg (by omega), Int.tmod_eq_emod_of_nonneg (by omega),
    Int.tdiv_eq_ediv_of_nonneg (by omega)]
  unfold seconds
  omega

def tmOf (year mon : Nat) (mday : Int) (t : DayTime) : Tm where
  sec := t.second
  min := t.minute
  hour := t.hour
  mday := mday
  mon := mon
  year := year - 1900

theorem gmtimeR_of {timep : Int} {days yday : Nat} {t : DayTime}
    (hdays : timep.tdiv (24 * 60 * 60) = days) (hin : timep.tmod (24 * 60 * 60) = t.seconds)
    (hyear : gmtimeYear days 1970 days = (((1970 + n : Nat) : Int), (yday : Int))) :
    gmtimeR timep = tmOf (1970 + n) (gmtimeDate (isLeap (1970 + n)) yday).2
      (gmtimeDate (isLeap (1970 + n)) yday).1 t := by
  obtain ⟨hsec, hmin, hhour⟩ := t.split
  unfold gmtimeR
  simp only [hdays, hin, Int.toNat_natCast, hyear, hsec, hmin, hhour, isleap_natCast, tmOf,
    gmtimeDate]

theorem gmtimeR_eq {yday : Nat} (hn : n ≤ 130) (hyday : yday < yearDays (1970 + n)) (t : DayTime) :
    gmtimeR ((daysBefore n + yday) * 86400 + t.seconds : Nat) =
      tmOf (1970 + n) (gmtimeDate (isLeap (1970 + n)) yday).2
        (gmtimeDate (isLeap (1970 + n)) yday).1 t := by
  have hsecs := t.seconds_lt
  have hdays : (((daysBefore n + yday) * 86400 + t.seconds : Nat) : Int).tdiv (24 * 60 * 60) =
      (daysBefore n + yday : Nat) := by
    rw [Int.tdiv_eq_ediv_of_nonneg (by omega)]
    omega
  have hin : (((daysBefore n + yday) * 86400 + t.seconds : Nat) : Int).tmod (24 * 60 * 60) =
      (t.seconds : Nat) := by
    rw [Int.tmod_eq_emod_of_nonneg (by omega)]
    omega
  have hyear : gmtimeYear (daysBefore n + yday) 1970 (daysBefore n + yday : Nat) =
      (((1970 + n : Nat) : Int), (yday : Int)) := by
    have hturns : n ≤ daysBefore n + yday := by
      unfold daysBefore
      omega
    have hloop := gmtimeYear_eq (j := 0) (n := n) (by omega) (by simpa using hyday) hturns
    have hwork : (daysBefore (0 + n) - daysBefore 0 + yday : Int) =
        (daysBefore n + yday : Nat) := by
      simp [daysBefore]
    rwa [hwork, Nat.zero_add] at hloop
  exact gmtimeR_of hdays hin hyear

theorem mktimeCarry_tmOf (hmon : mon ≤ 11) :
    mktimeCarry (tmOf year mon mday t) = tmOf year mon mday t := by
  have hsec : ¬(t.second : Int) > 60 := by omega
  have hmin : ¬(t.minute : Int) > 60 := by omega
  have hhour : ¬(t.hour : Int) > 24 := by omega
  have hmon : ¬(mon : Int) > 12 := by omega
  simp only [mktimeCarry, tmOf, hsec, hmin, hhour, hmon, if_false]

/-- A month's days never pass the table's entry after the month. -/
theorem mktimeDays_tmOf (hmon : mon ≤ 11) (hmday : mday ≤ 31) :
    mktimeDays turns (tmOf year mon mday t) = tmOf year mon mday t := by
  cases turns with
  | zero => rfl
  | succ turns =>
    have hlen : spm 1 ≤ spm (mon + 1) := spm_mono (mon + 1) (by omega) 1 (by omega)
    have hone : spm 1 = 31 := rfl
    have hnext : (1 + (tmOf year mon mday t).mon).toNat = mon + 1 := by
      simp only [tmOf]
      omega
    rw [mktimeDays, hnext, if_neg]
    simp only [tmOf]
    omega

theorem mktime_tmOf {yday : Nat} (hn : n ≤ 130) (hmon : mon ≤ 11) (hmday : mday ≤ 31)
    (hyday : mktimeYday (isLeap (1970 + n)) mon mday = yday) (t : DayTime) :
    mktime (tmOf (1970 + n) mon mday t) = ((daysBefore n + yday) * 86400 + t.seconds : Nat) := by
  have hcentury : mktimeCentury n = 0 := if_neg (by omega)
  have hyears : (tmOf (1970 + n) mon mday t).year - 70 = n := by
    simp only [tmOf]
    omega
  have hyear : (tmOf (1970 + n) mon mday t).year + 1900 = (1970 + n : Nat) := by
    simp only [tmOf]
    omega
  have hquarter : (n + 1 : Int).tdiv 4 = ((n + 1) / 4 : Nat) := by
    rw [Int.tdiv_eq_ediv_of_nonneg (by omega)]
    omega
  have hmonth : decide ((tmOf (1970 + n) mon mday t).mon > 1) = decide (mon > 1) :=
    decide_eq_decide.mpr (by simp only [tmOf]; omega)
  have hdays : spm mon + mday - 1 +
      (if isLeap (1970 + n) && decide (mon > 1) then 1 else 0 : Int) = yday := hyday
  unfold mktime
  simp only [mktimeCarry_tmOf hmon, mktimeDays_tmOf hmon (Int.ofNat_le.mpr hmday), hyears,
    hcentury, hyear, isleap_natCast, hquarter, hmonth]
  rw [if_neg (by simp only [tmOf]; omega)]
  simp only [tmOf, Int.toNat_natCast, hdays]
  unfold daysBefore DayTime.seconds
  omega

-- ---------------------------------------------------------------------------
-- Back and forth
-- ---------------------------------------------------------------------------

/-- The dates the two functions agree on, the day not yet checked against the month. -/
structure Convertible (d : Date) : Prop where
  year_ge : 1970 ≤ d.year
  year_le : d.year ≤ 2100
  month_pos : 1 ≤ d.month
  month_le : d.month ≤ 12
  day_pos : 1 ≤ d.day
  day_le : d.day ≤ 31

def tmOfDate (d : Date) (t : DayTime) : Tm := tmOf d.year (d.month - 1) d.day t

/-- The seconds of a date and a time: the days before the year, those of the year before the
day, and the time. -/
theorem mktime_tmOfDate (h : Convertible d) (t : DayTime) :
    ∃ yday < yearDays d.year, mktimeYday (isLeap d.year) (d.month - 1) d.day = yday ∧
      mktime (tmOfDate d t) = ((daysBefore (d.year - 1970) + yday) * 86400 + t.seconds : Nat) := by
  obtain ⟨year, month, day⟩ := d
  obtain ⟨hyear, hyear', hmonth, hmonth', hday, hday'⟩ := h
  simp only at *
  obtain ⟨n, rfl⟩ := Nat.exists_eq_add_of_le hyear
  obtain ⟨mon, rfl⟩ := Nat.exists_eq_add_of_le' hmonth
  have hmon : mon ≤ 11 := Nat.le_of_succ_le_succ hmonth'
  have hbounds := mktimeYday_bounds (isLeap (1970 + n)) hmon hday hday'
  obtain ⟨yday, hyday⟩ := Int.eq_ofNat_of_zero_le hbounds.1
  refine ⟨yday, ?_, hyday, ?_⟩
  · have hlt := hbounds.2
    rw [hyday] at hlt
    unfold yearDays
    split at hlt <;> rename_i hleap
    · rw [if_pos hleap]
      omega
    · rw [if_neg hleap]
      omega
  · rw [Nat.add_sub_cancel_left]
    exact mktime_tmOf (n := n) (by omega) hmon hday' hyday t

theorem yearDays_le (year : Nat) : yearDays year ≤ 366 := by
  unfold yearDays
  split <;> decide

theorem mktime_spec (h : Convertible d) (t : DayTime) :
    0 ≤ mktime (tmOfDate d t) ∧ mktime (tmOfDate d t) < 0x100000000 ∧
      gmtimeR (mktime (tmOfDate d t)) = tmOfDate d.carry t := by
  obtain ⟨yday, hlt, hyday, hmk⟩ := mktime_tmOfDate h t
  have hsecs := t.seconds_lt
  rw [hmk]
  refine ⟨Int.natCast_nonneg _, ?_, ?_⟩
  · have hlen := yearDays_le d.year
    have hmax := daysBefore_mono (show d.year - 1970 ≤ 130 by have := h.year_le; omega)
    simp only [daysBefore] at hmax ⊢
    omega
  · obtain ⟨year, month, day⟩ := d
    obtain ⟨hyear, hyear', hmonth, hmonth', hday, hday'⟩ := h
    simp only at *
    obtain ⟨n, rfl⟩ := Nat.exists_eq_add_of_le hyear
    obtain ⟨mon, rfl⟩ := Nat.exists_eq_add_of_le' hmonth
    have hdate := gmtimeDate_mktimeYday (isLeap (1970 + n)) (Nat.le_of_succ_le_succ hmonth')
      hday hday'
    rw [Nat.add_sub_cancel] at hyday
    rw [Nat.add_sub_cancel_left, gmtimeR_eq (by omega) hlt, ← hyday, hdate]
    unfold tmOfDate Date.carry Date.lastDay
    split <;> rfl

-- ---------------------------------------------------------------------------
-- The clock chip
-- ---------------------------------------------------------------------------

/-- The last year whose seconds a `time_t` of `w` bits counts, the chip ending with 2099. -/
def lastYear (w : Nat) : Nat := if 64 ≤ w then 2099 else 2037

theorem lastYear_le (w : Nat) : lastYear w ≤ 2099 := by
  unfold lastYear
  split <;> decide

/-- A year that the chip has, whose seconds a `time_t` of `w` bits counts. -/
structure ClockYear (w year : Nat) : Prop where
  bits : 32 ≤ w
  ge : 2000 ≤ year
  le : year ≤ lastYear w

instance (w year : Nat) : Decidable (ClockYear w year) :=
  decidable_of_iff (32 ≤ w ∧ 2000 ≤ year ∧ year ≤ lastYear w)
    ⟨fun ⟨hbits, hge, hle⟩ => ⟨hbits, hge, hle⟩, fun ⟨hbits, hge, hle⟩ => ⟨hbits, hge, hle⟩⟩

theorem ClockYear.le_2099 (h : ClockYear w year) : year ≤ 2099 :=
  Nat.le_trans h.le (lastYear_le w)

/-- The driver and the `time_t` keep the seconds of these years. -/
theorem ClockYear.kept (h : ClockYear w d.year) (hconv : Convertible d) (t : DayTime) :
    timeT w (mktime (tmOfDate d t) % 0x100000000) = mktime (tmOfDate d t) := by
  obtain ⟨hpos, hlt, -⟩ := mktime_spec hconv t
  rw [Int.emod_eq_of_lt hpos hlt]
  refine timeT_of_lt hpos ?_
  obtain ⟨hbits, -, hle⟩ := h
  unfold lastYear at hle
  split at hle
  · have hpow : 2 ^ 33 ≤ 2 ^ w := Nat.pow_le_pow_right (by decide) (by omega)
    omega
  · obtain ⟨yday, hyday, -, hmk⟩ := mktime_tmOfDate hconv t
    have hpow : 2 ^ 32 ≤ 2 ^ w := Nat.pow_le_pow_right (by decide) hbits
    have hlen := yearDays_le d.year
    have hsecs := t.seconds_lt
    have hmax := daysBefore_mono (show d.year - 1970 ≤ 67 by omega)
    rw [show daysBefore 67 = 24472 by decide] at hmax
    rw [hmk]
    omega

section
variable {rtc : Rtc}

def Rtc.day (rtc : Rtc) : Date := ⟨2000 + rtc.year.toNat, rtc.month.toNat, rtc.date.toNat⟩

/-- The calendar registers hold a date of the years 2000 to 2099 and a time. -/
structure Rtc.Valid (rtc : Rtc) : Prop where
  hours : rtc.hours.toNat < 24
  minutes : rtc.minutes.toNat < 60
  seconds : rtc.seconds.toNat < 60
  year : rtc.year.toNat ≤ 99
  day : rtc.day.Valid

def Rtc.Valid.time (h : rtc.Valid) : DayTime :=
  ⟨⟨rtc.hours.toNat, h.hours⟩, ⟨rtc.minutes.toNat, h.minutes⟩, ⟨rtc.seconds.toNat, h.seconds⟩⟩

theorem Convertible.of_valid (h : d.Valid) (hyear : 1970 ≤ d.year) (hyear' : d.year ≤ 2100) :
    Convertible d :=
  ⟨hyear, hyear', h.month_pos, h.month_le, h.day_pos, h.day_le_31⟩

theorem Rtc.Valid.convertible (h : rtc.Valid) : Convertible rtc.day := by
  have hyear := h.year
  refine .of_valid h.day ?_ ?_ <;> simp only [Rtc.day] <;> omega

/-- The runs' `time_t` counts every year of the chip. -/
theorem Rtc.Valid.clockYear (h : rtc.Valid) : ClockYear timeTBits rtc.day.year := by
  have hyear := h.year
  have hlast : lastYear timeTBits = 2099 := rfl
  refine ⟨by decide, Nat.le_add_right .., ?_⟩
  simp only [hlast, Rtc.day]
  omega

theorem Rtc.Valid.getTimeIn_eq (h : rtc.Valid) (hyear : ClockYear w rtc.day.year) :
    rtc.getTimeIn w = mktime (tmOfDate rtc.day h.time) := by
  have htm : (⟨rtc.seconds.toNat, rtc.minutes.toNat, rtc.hours.toNat, rtc.date.toNat,
      rtc.month.toNat - 1, rtc.year.toNat + 100⟩ : Tm) = tmOfDate rtc.day h.time := by
    have hmonth := h.day.month_pos
    simp only [tmOfDate, tmOf, Rtc.day, time] at hmonth ⊢
    congr 1 <;> omega
  unfold Rtc.getTimeIn
  rw [htm]
  exact hyear.kept h.convertible h.time

theorem Rtc.Valid.getTime_eq (h : rtc.Valid) : rtc.getTime = mktime (tmOfDate rtc.day h.time) :=
  h.getTimeIn_eq h.clockYear

theorem Rtc.Valid.gmtimeR_getTimeIn (h : rtc.Valid) (hyear : ClockYear w rtc.day.year) :
    gmtimeR (rtc.getTimeIn w) = tmOfDate rtc.day h.time := by
  rw [h.getTimeIn_eq hyear, (mktime_spec h.convertible h.time).2.2, Date.carry_of_le h.day.day_le]

end

def rtcOf (d : Date) (t : DayTime) : Rtc where
  seconds := BitVec.ofNat 8 t.second
  minutes := BitVec.ofNat 8 t.minute
  hours := BitVec.ofNat 8 t.hour
  date := BitVec.ofNat 8 d.day
  month := BitVec.ofNat 8 d.month
  year := BitVec.ofNat 8 (d.year - 2000)

theorem setTimeIn_mktime (h : Convertible d) (hyear : ClockYear w d.year) (t : DayTime)
    (rtc : Rtc) : rtc.setTimeIn w (mktime (tmOfDate d t)) = rtcOf d.carry t := by
  obtain ⟨-, -, hgm⟩ := mktime_spec h t
  have hvalid := Date.carry_valid h.month_pos h.month_le h.day_pos h.day_le
  have hkept := d.carry_year
  have hge := hyear.ge
  have hmon : (tmOfDate d.carry t).mon + 1 = (d.carry.month : Int) := by
    have hpos := hvalid.month_pos
    simp only [tmOfDate, tmOf]
    omega
  have hyr : (tmOfDate d.carry t).year - 100 = (d.carry.year - 2000 : Nat) := by
    simp only [tmOfDate, tmOf, hkept]
    omega
  unfold Rtc.setTimeIn
  rw [hyear.kept h t, hgm]
  simp only [hmon, hyr]
  rw [if_neg (by omega)]
  simp only [tmOfDate, tmOf, rtcOf, BitVec.ofInt_natCast]

theorem rtcOf_day (h : Date.Valid d) (hyear : 2000 ≤ d.year) (hyear' : d.year ≤ 2099)
    (t : DayTime) : (rtcOf d t).day = d := by
  obtain ⟨year, month, day⟩ := d
  have hmonth := h.month_le
  have hday := h.day_le_31
  simp only at *
  simp only [Rtc.day, rtcOf, BitVec.toNat_ofNat, Date.mk.injEq]
  omega

theorem rtcOf_valid (h : Date.Valid d) (hyear : 2000 ≤ d.year) (hyear' : d.year ≤ 2099)
    (t : DayTime) : (rtcOf d t).Valid := by
  have hhour := t.hour.isLt
  have hminute := t.minute.isLt
  have hsecond := t.second.isLt
  refine ⟨?_, ?_, ?_, ?_, (rtcOf_day h hyear hyear' t).symm ▸ h⟩ <;>
    simp only [rtcOf, BitVec.toNat_ofNat] <;> omega

-- ---------------------------------------------------------------------------
-- The application's view
-- ---------------------------------------------------------------------------

def SysTime.date (t : SysTime) : Date := ⟨t.year.toNat, t.month.toNat, t.day.toNat⟩

theorem getTimeForMatIn_date {rtc : Rtc} (h : rtc.Valid) (hyear : ClockYear w rtc.day.year) :
    (getTimeForMatIn w rtc).date = rtc.day := by
  have hlast := hyear.le_2099
  have hmonth := h.day.month_pos
  have hmonth' := h.day.month_le
  have hday := h.day.day_le_31
  have hmon : (tmOfDate rtc.day h.time).mon + 1 = (rtc.day.month : Int) := by
    simp only [tmOfDate, tmOf]
    omega
  have hyr : (tmOfDate rtc.day h.time).year + 1900 = (rtc.day.year : Int) := by
    simp only [tmOfDate, tmOf]
    omega
  unfold getTimeForMatIn getSysTimeByTimestamp SysTime.date
  simp only [h.gmtimeR_getTimeIn hyear, hmon, hyr]
  simp only [tmOfDate, tmOf, BitVec.ofInt_natCast, BitVec.toNat_ofNat]
  rw [Nat.mod_eq_of_lt (by omega), Nat.mod_eq_of_lt (by omega), Nat.mod_eq_of_lt (by omega)]

/-- `set_date` sets the date, with a day past the end of the month carried into the
next, and keeps the time. -/
theorem setDateIn_eq {rtc : Rtc} (h : rtc.Valid) (hyear : ClockYear w rtc.day.year)
    {t : SysTime} (hconv : Convertible t.date) (hyear' : ClockYear w t.date.year) :
    setDateIn w rtc t.year t.month t.day = rtcOf t.date.carry h.time := by
  have hmonth := hconv.month_pos
  have htm : ({ gmtimeR (rtc.getTimeIn w) with
      year := t.year.toNat - 1900, mon := t.month.toNat - 1, mday := t.day.toNat } : Tm) =
        tmOfDate t.date h.time := by
    rw [h.gmtimeR_getTimeIn hyear]
    simp only [tmOfDate, tmOf, SysTime.date] at hmonth ⊢
    congr 1
    omega
  unfold setDateIn
  simp only [htm]
  exact setTimeIn_mktime hconv hyear' h.time rtc

end Hvac
