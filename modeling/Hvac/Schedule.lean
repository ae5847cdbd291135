import Hvac.CtrlWord
import Hvac.Lib.Arc

/-!
# The choice of the set point

The day of the schedule is an arc on the circle of the day's seconds. The code
takes the arc for what it is as long as it does not pass midnight, and its
complement otherwise. Which of the two set points applies is the schedule's
choice in one type of command only, whatever the others are documented to do.
-/

namespace Hvac

-- ---------------------------------------------------------------------------
-- Times of day
-- ---------------------------------------------------------------------------

def secondsOfDay : Int := 86400

/-- A set time, the hour in the high byte, in seconds. -/
def timeSeconds (time : U16) : Nat :=
  (time >>> 8).toNat * 3600 + (time.setWidth 8).toNat * 60

structure IsTime (time : U16) : Prop where
  hour : (time >>> 8).toNat < 24
  minute : (time.setWidth 8 : U8).toNat < 60

instance (time : U16) : Decidable (IsTime time) :=
  decidable_of_iff ((time >>> 8).toNat < 24 ∧ (time.setWidth 8 : U8).toNat < 60)
    ⟨fun h => ⟨h.1, h.2⟩, fun h => ⟨h.hour, h.minute⟩⟩

theorem IsTime.named (h : IsTime time) : Arc.Named secondsOfDay (timeSeconds time) := by
  obtain ⟨hhour, hminute⟩ := h
  constructor <;> simp only [timeSeconds, secondsOfDay] <;> omega

def nowSeconds (m : Module) : Nat :=
  let time := getTimeForMat m.rtc
  time.hour.toNat * 3600 + time.minute.toNat * 60 + time.second.toNat

theorem nowSeconds_eq (m : Module) : (nowSeconds m : Int) = m.rtc.getTime % secondsOfDay := by
  have hpos : 0 ≤ m.rtc.getTime := m.rtc.getTime_nonneg
  have hday := Int.emod_lt_of_pos m.rtc.getTime (show 0 < secondsOfDay by decide)
  have hzero := Int.emod_nonneg m.rtc.getTime (show secondsOfDay ≠ 0 by decide)
  simp only [secondsOfDay] at hday hzero ⊢
  simp only [nowSeconds, getTimeForMat_eq, getSysTimeByTimestamp, gmtimeR, BitVec.toNat_ofInt,
    show (24 : Int) * 60 * 60 = 86400 from rfl, Int.tmod_eq_emod_of_nonneg hpos]
  rw [Int.tdiv_eq_ediv_of_nonneg hzero, Int.tmod_eq_emod_of_nonneg hzero,
    Int.tdiv_eq_ediv_of_nonneg (by omega), Int.tmod_eq_emod_of_nonneg (by omega)]
  omega

theorem nowSeconds_named (m : Module) : Arc.Named secondsOfDay (nowSeconds m) := by
  rw [nowSeconds_eq]
  exact ⟨Int.emod_nonneg _ (by decide), Int.emod_lt_of_pos _ (by decide)⟩

-- ---------------------------------------------------------------------------
-- Day and night
-- ---------------------------------------------------------------------------

def InDayArc (m : Module) : Prop :=
  Arc.Mem secondsOfDay (timeSeconds m.info.dayStartTime) (timeSeconds m.info.dayEndTime)
    (nowSeconds m)

instance (m : Module) : Decidable (InDayArc m) := inferInstanceAs (Decidable (Arc.Mem ..))

def Wraps (m : Module) : Prop :=
  timeSeconds m.info.dayEndTime < timeSeconds m.info.dayStartTime

instance (m : Module) : Decidable (Wraps m) := inferInstanceAs (Decidable (_ < _))

structure DaySet (m : Module) : Prop where
  start : IsTime m.info.dayStartTime
  finish : IsTime m.info.dayEndTime

instance (m : Module) : Decidable (DaySet m) :=
  decidable_of_iff (IsTime m.info.dayStartTime ∧ IsTime m.info.dayEndTime)
    ⟨fun h => ⟨h.1, h.2⟩, fun h => ⟨h.start, h.finish⟩⟩

theorem identifyDayAndNight_inDay : identifyDayAndNight m = .inDay ↔
    if timeSeconds m.info.dayEndTime > timeSeconds m.info.dayStartTime then
      nowSeconds m > timeSeconds m.info.dayStartTime ∧ nowSeconds m ≤ timeSeconds m.info.dayEndTime
    else
      ¬(nowSeconds m > timeSeconds m.info.dayStartTime ∨
        nowSeconds m ≤ timeSeconds m.info.dayEndTime) := by
  simp only [identifyDayAndNight, nowSeconds, timeSeconds]
  repeat' split
  all_goals simp_all

theorem inDay_of_not_wraps (h : DaySet m) (hwraps : ¬Wraps m) :
    identifyDayAndNight m = .inDay ↔ InDayArc m := by
  unfold Wraps at hwraps
  rw [identifyDayAndNight_inDay, InDayArc,
    Arc.mem_of_le h.start.named h.finish.named (nowSeconds_named m) (by omega)]
  split <;> omega

/-- A day that passes midnight is taken for the night. -/
theorem inDay_of_wraps (h : DaySet m) (hwraps : Wraps m) :
    identifyDayAndNight m = .inDay ↔ ¬InDayArc m := by
  unfold Wraps at hwraps
  rw [identifyDayAndNight_inDay, InDayArc,
    Arc.mem_of_lt h.start.named h.finish.named (nowSeconds_named m) (by omega)]
  split <;> omega

/-- Both times of the schedule and the time of day are `k` seconds later. -/
structure Later (k : Int) (m m' : Module) : Prop where
  start : timeSeconds m'.info.dayStartTime ≡ timeSeconds m.info.dayStartTime + k [ZMOD secondsOfDay]
  finish : timeSeconds m'.info.dayEndTime ≡ timeSeconds m.info.dayEndTime + k [ZMOD secondsOfDay]
  now : nowSeconds m' ≡ nowSeconds m + k [ZMOD secondsOfDay]

/-- The answer is the day's arc exactly when the day does not pass midnight, and
unchanged by a shift of all times exactly when both days or none do. -/
theorem day_on_circle (h : DaySet m) :
    ((identifyDayAndNight m = .inDay ↔ InDayArc m) ↔ ¬Wraps m) ∧
      ∀ k m', DaySet m' → Later k m m' →
        (identifyDayAndNight m' = identifyDayAndNight m ↔ (Wraps m' ↔ Wraps m)) := by
  have hanswer {m : Module} (h : DaySet m) :
      identifyDayAndNight m = .inDay ↔ (InDayArc m ↔ ¬Wraps m) := by
    by_cases hwraps : Wraps m
    · simp [inDay_of_wraps h hwraps, hwraps]
    · simp [inDay_of_not_wraps h hwraps, hwraps]
  constructor
  · rw [hanswer h]
    by_cases hmem : InDayArc m <;> simp [hmem]
  · intro k m' h' hlater
    have harc : InDayArc m' ↔ InDayArc m := Arc.mem_turn k hlater.start hlater.finish hlater.now
    have heq : identifyDayAndNight m' = identifyDayAndNight m ↔
        (identifyDayAndNight m' = .inDay ↔ identifyDayAndNight m = .inDay) := by
      cases identifyDayAndNight m' <;> cases identifyDayAndNight m <;> simp
    rw [heq, hanswer h, hanswer h', harc]
    by_cases hmem : InDayArc m <;> simp [hmem, not_iff_not]

def atHour (hour : U8) (start finish : U16) : Module :=
  { blank with
    rtc := { hours := hour }
    info.dayStartTime := start
    info.dayEndTime := finish }

theorem day_on_circle_noon : identifyDayAndNight (atHour 12 0x0800 0x1200) = .inDay :=
  ((day_on_circle (m := atHour 12 0x0800 0x1200) (by decide +kernel)).1.mpr
    (by decide +kernel)).mpr (by decide +kernel)

/-- Eight in the evening is in the day from 18:00 to 8:00. -/
theorem day_on_circle_fails :
    ¬∀ m, DaySet m → (identifyDayAndNight m = .inDay ↔ InDayArc m) := by
  intro h
  exact absurd (h (atHour 20 0x1200 0x0800) (by decide +kernel)) (by decide +kernel)

-- ---------------------------------------------------------------------------
-- The types of a command
-- ---------------------------------------------------------------------------

/-- Bits 8 to 11 of the control word. -/
def actionType (ctrl : U16) : Nat := ctrl.toNat / 0x100 % 0x10

/-- The set point that `type_action_t` documents for a control word. -/
def documentedSetPoint (ctrl : U16) (m : Module) : Int :=
  match actionType ctrl with
  | 0 => (ctrl.toNat % 0x100 : Nat) * 10
  | 1 | 3 => m.info.daySetPoint.toInt
  | 2 | 4 => m.info.nightSetPoint.toInt
  | 5 =>
    match identifyDayAndNight m with
    | .inDay => m.info.daySetPoint.toInt
    | .inNight => m.info.nightSetPoint.toInt
  | _ => valueNull

theorem decodeCtrl_type (ctrl : U16) : (decodeCtrl ctrl).type = BitVec.ofNat 8 (actionType ctrl) := by
  apply BitVec.eq_of_toNat_eq
  have hlt : actionType ctrl < 0x10 := Nat.mod_lt _ (by decide)
  rw [(decodeCtrl_inForce ctrl).type, BitVec.toNat_ofNat]
  exact (Nat.mod_eq_of_lt (by omega)).symm

theorem getSetPoint_writeCtrl (hslave : m.info.moduleMode = moduleSlave) (ctrl : U16) :
    getSetPoint (writeRegister regCtrl ctrl m) =
      if actionType ctrl = 5 then (scheduledSetPoint m).toInt
      else if actionType ctrl = 0 then (ctrl.toNat % 0x100 : Nat) * 10
      else valueNull := by
  have hlt : actionType ctrl < 0x10 := Nat.mod_lt _ (by decide)
  have htype (t : Nat) (ht : t < 0x10) :
      (decodeCtrl ctrl).type = BitVec.ofNat 8 t ↔ actionType ctrl = t := by
    rw [decodeCtrl_type]
    constructor
    · intro h
      have h := congrArg BitVec.toNat h
      simp only [BitVec.toNat_ofNat] at h
      omega
    · rintro rfl
      rfl
  have hwrite : writeRegister regCtrl ctrl m =
      { m with info.ctrl := ctrl, action := decodeCtrl ctrl } := rfl
  have hauto : (decodeCtrl ctrl).type = actionTypeByAuto ↔ actionType ctrl = 5 := htype 5 (by decide)
  have hmaster : (decodeCtrl ctrl).type = actionTypeUseMaster ↔ actionType ctrl = 0 :=
    htype 0 (by decide)
  simp only [hwrite, getSetPoint, hslave, if_true, hauto, hmaster,
    (decodeCtrl_inForce ctrl).setPoint]
  rfl

/-- A type without a branch in the code names no set point: neither the day's
where it is documented to take that, nor the night's. -/
structure Unset (ctrl : U16) (m : Module) : Prop where
  day : actionType ctrl = 1 ∨ actionType ctrl = 3 → m.info.daySetPoint.toInt = valueNull
  night : actionType ctrl = 2 ∨ actionType ctrl = 4 → m.info.nightSetPoint.toInt = valueNull

/-- After a control word a slave takes the set point that its type is documented
to take exactly when the type is none of 1 to 4, or there is nothing to take. -/
theorem set_point_documented (hslave : m.info.moduleMode = moduleSlave) (ctrl : U16) :
    getSetPoint (writeRegister regCtrl ctrl m) = documentedSetPoint ctrl m ↔ Unset ctrl m := by
  have hread := getSetPoint_writeCtrl hslave ctrl
  unfold documentedSetPoint
  split
  case h_1 h =>
    exact iff_of_true (by simp [hread, h]) ⟨by simp [h], by simp [h]⟩
  case h_2 h | h_3 h =>
    simp only [hread, h]
    exact ⟨fun heq => ⟨fun _ => heq.symm, by simp [h]⟩, fun hunset => (hunset.day (by simp [h])).symm⟩
  case h_4 h | h_5 h =>
    simp only [hread, h]
    exact ⟨fun heq => ⟨by simp [h], fun _ => heq.symm⟩, fun hunset => (hunset.night (by simp [h])).symm⟩
  case h_6 h =>
    refine iff_of_true ?_ ⟨by simp [h], by simp [h]⟩
    simp only [hread, h, if_true, scheduledSetPoint]
    cases identifyDayAndNight m <;> rfl
  case h_7 h₀ h₁ h₃ h₂ h₄ h₅ =>
    refine iff_of_true ?_ ⟨?_, ?_⟩
    · rw [hread, if_neg h₅, if_neg h₀]
    · rintro (h | h)
      · exact absurd h h₁
      · exact absurd h h₃
    · rintro (h | h)
      · exact absurd h h₂
      · exact absurd h h₄

theorem set_point_documented_master :
    getSetPoint (writeRegister regCtrl 0x8019 blank) = documentedSetPoint 0x8019 blank :=
  (set_point_documented (by decide +kernel) 0x8019).mpr ⟨by decide, by decide⟩

/-- The day's set point is asked for, and there is none. -/
theorem set_point_documented_fails :
    ¬∀ m ctrl, m.info.moduleMode = moduleSlave →
      getSetPoint (writeRegister regCtrl ctrl m) = documentedSetPoint ctrl m := by
  intro h
  exact absurd (h blank 0x8100 (by decide +kernel)) (by decide +kernel)

end Hvac
