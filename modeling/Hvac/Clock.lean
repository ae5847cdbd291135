import Hvac.Types
import Mathlib.Algebra.Group.Nat.Defs

/-!
# Calendar and real-time clock

`time.c` of the C library layer (`gmtime_r`, `mktime`; `localtime` is the
former), the clock chip driver `drv_rtc.c`, `set_date` and `set_time` of
`rtc.c`, and the application's `type_sys_time`. Divisions round towards zero,
as in C.
-/

namespace Hvac

structure Tm where
  sec : Int
  min : Int
  hour : Int
  mday : Int
  mon : Int
  year : Int
  deriving DecidableEq, Repr

structure SysTime where
  year : U16
  month : U16
  day : U16
  hour : U16
  minute : U16
  second : U16
  deriving DecidableEq, Repr

def isleap (year : Int) : Bool :=
  year.tmod 4 = 0 && (year.tmod 100 ≠ 0 || year.tmod 400 = 0)

/-- `__spm`: days before each month, without leap days. -/
def spm (mon : Nat) : Int :=
  [0, 31, 59, 90, 120, 151, 181, 212, 243, 273, 304, 334, 365].getD mon 0

-- ---------------------------------------------------------------------------
-- From seconds to a date
-- ---------------------------------------------------------------------------

/-- The year loop of `gmtime_r`: the year and the days left in it. Every turn
takes at least 365 days, so the days bound the turns. -/
def gmtimeYear : Nat → Int → Int → Int × Int
  | 0, i, work => (i, work)
  | turns + 1, i, work =>
    let k := if isleap i then 366 else 365
    if work ≥ k then gmtimeYear turns (i + 1) (work - k) else (i, work)

def gmtimeMonth (work : Int) : Nat → Nat
  | 0 => 0
  | i + 1 => if spm (i + 1) > work then gmtimeMonth work i else i + 1

def gmtimeR (timep : Int) : Tm :=
  let spd := 24 * 60 * 60
  let inDay := timep.tmod spd
  let days := timep.tdiv spd
  let (i, yday) := gmtimeYear days.toNat 1970 days
  -- The table has no leap day: from 29 February on the day number is shifted,
  -- and the 29th itself is the 28th plus one.
  let late := isleap i && decide (yday > 58)
  let mday := if late && yday == 59 then 2 else 1
  let work := if late then yday - 1 else yday
  let mon := gmtimeMonth work 11
  { sec := inDay.tmod 60
    min := (inDay.tdiv 60).tmod 60
    hour := (inDay.tdiv 60).tdiv 60
    mday := mday + (work - spm mon)
    mon := mon
    year := i - 1900 }

-- ---------------------------------------------------------------------------
-- From a date to seconds
-- ---------------------------------------------------------------------------

def mktimeCarry (t : Tm) : Tm :=
  let t := if t.sec > 60 then { t with min := t.min + t.sec.tdiv 60, sec := t.sec.tmod 60 } else t
  let t := if t.min > 60 then { t with hour := t.hour + t.min.tdiv 60, min := t.min.tmod 60 } else t
  let t := if t.hour > 24 then
    { t with mday := t.mday + t.hour.tdiv 24, hour := t.hour.tmod 24 } else t
  if t.mon > 12 then { t with year := t.year + t.mon.tdiv 12, mon := t.mon.tmod 12 } else t

/-- The day loop of `mktime`. Two turns take at least a month's days. -/
def mktimeDays : Nat → Tm → Tm
  | 0, t => t
  | turns + 1, t =>
    if t.mday > spm (1 + t.mon).toNat then
      let mday := if t.mon = 1 && isleap (t.year + 1900) then t.mday - 1 else t.mday
      let mday := mday - spm t.mon.toNat
      let mon := t.mon + 1
      if mon > 11 then mktimeDays turns { t with mday, mon := 0, year := t.year + 1 }
      else mktimeDays turns { t with mday, mon }
    else t

/-- The leap days `years * 365 + (years + 1) / 4` counts too many from 2101 on. -/
def mktimeCentury (years : Int) : Int :=
  if years ≥ 131 then
    let c := (years - 131).tdiv 100
    let rest := if c % 4 = 3 then c % 4 - 1 else c % 4
    (c / 4) * 3 + 1 + rest
  else 0

def mktime (t : Tm) : Int :=
  -- The years are taken before the fields carry, as in the source.
  let years := t.year - 70
  let t := mktimeCarry t
  let t := mktimeDays (2 * t.mday.toNat + 2) t
  if t.year < 70 then -1
  else
    let yday := spm t.mon.toNat + t.mday - 1 +
      (if isleap (t.year + 1900) && decide (t.mon > 1) then 1 else 0)
    let day := years * 365 + (years + 1).tdiv 4 - mktimeCentury years + yday
    ((day * 24 + t.hour) * 60 + t.min) * 60 + t.sec

-- ---------------------------------------------------------------------------
-- The clock chip
-- ---------------------------------------------------------------------------

/-- What a `time_t` of `w` bits keeps of a number. -/
def timeT (w : Nat) (v : Int) : Int := v.bmod (2 ^ w)

/-- The bits of the `time_t` of the runs. The C library that `cconfig.h` names has 32,
which comes to the same before 2038. -/
def timeTBits : Nat := 64

/-- The calendar registers, as the driver reads and writes them. -/
structure Rtc where
  seconds : U8 := 0
  minutes : U8 := 0
  hours : U8 := 0
  date : U8 := 1
  month : U8 := 1
  year : U8 := 0
  deriving DecidableEq, Repr

/-- `get_rtc_timestamp`, through the 32-bit store of `rt_rtc_control` into a `time_t`
of `w` bits that was zero. -/
def Rtc.getTimeIn (w : Nat) (rtc : Rtc) : Int :=
  timeT w (mktime
    { sec := rtc.seconds.toNat
      min := rtc.minutes.toNat
      hour := rtc.hours.toNat
      mday := rtc.date.toNat
      mon := rtc.month.toNat - 1
      year := rtc.year.toNat + 100 } % 0x100000000)

/-- `set_rtc_time_stamp`, through the 32-bit load of `rt_rtc_control`. Dates
before 2000 are refused and leave the clock alone. -/
def Rtc.setTimeIn (w : Nat) (rtc : Rtc) (timeStamp : Int) : Rtc :=
  let tm := gmtimeR (timeT w (timeStamp % 0x100000000))
  if tm.year < 100 then rtc
  else
    { seconds := BitVec.ofInt 8 tm.sec
      minutes := BitVec.ofInt 8 tm.min
      hours := BitVec.ofInt 8 tm.hour
      date := BitVec.ofInt 8 tm.mday
      month := BitVec.ofInt 8 (tm.mon + 1)
      year := BitVec.ofInt 8 (tm.year - 100) }

def Rtc.getTime (rtc : Rtc) : Int := rtc.getTimeIn timeTBits

def Rtc.setTime (rtc : Rtc) (timeStamp : Int) : Rtc := rtc.setTimeIn timeTBits timeStamp

-- ---------------------------------------------------------------------------
-- The application's view
-- ---------------------------------------------------------------------------

def getSysTimeByTimestamp (time : Int) : SysTime :=
  let tm := gmtimeR time
  { year := BitVec.ofInt 16 (tm.year + 1900)
    month := BitVec.ofInt 16 (tm.mon + 1)
    day := BitVec.ofInt 16 tm.mday
    hour := BitVec.ofInt 16 tm.hour
    minute := BitVec.ofInt 16 tm.min
    second := BitVec.ofInt 16 tm.sec }

def getTimeForMatIn (w : Nat) (rtc : Rtc) : SysTime := getSysTimeByTimestamp (rtc.getTimeIn w)

def setDateIn (w : Nat) (rtc : Rtc) (year month day : U16) : Rtc :=
  let now := gmtimeR (rtc.getTimeIn w)
  rtc.setTimeIn w (mktime
    { now with year := year.toNat - 1900, mon := month.toNat - 1, mday := day.toNat })

def getTimeForMat (rtc : Rtc) : SysTime := getTimeForMatIn timeTBits rtc

theorem getTimeForMat_eq (rtc : Rtc) :
    getTimeForMat rtc = getSysTimeByTimestamp rtc.getTime := rfl

def setDate (rtc : Rtc) (year month day : U16) : Rtc := setDateIn timeTBits rtc year month day

def setTime (rtc : Rtc) (hour minute second : U16) : Rtc :=
  let now := gmtimeR rtc.getTime
  rtc.setTime (mktime { now with hour := hour.toNat, min := minute.toNat, sec := second.toNat })

-- ---------------------------------------------------------------------------
-- What fits
-- ---------------------------------------------------------------------------

theorem timeT_of_lt {v : Int} (hpos : 0 ≤ v) (hlt : 2 * v < (2 ^ w : Nat)) : timeT w v = v :=
  Int.bmod_eq_of_le (by omega) (by omega)

/-- The driver's 32 bits always fit. -/
theorem timeT_emod (v : Int) : timeT timeTBits (v % 0x100000000) = v % 0x100000000 := by
  have hbound : ((2 ^ timeTBits : Nat) : Int) = 0x10000000000000000 := rfl
  refine timeT_of_lt ?_ ?_ <;> omega

theorem Rtc.getTime_nonneg (rtc : Rtc) : 0 ≤ rtc.getTime := by
  rw [Rtc.getTime, Rtc.getTimeIn, timeT_emod]
  exact Int.emod_nonneg _ (by decide)

end Hvac
