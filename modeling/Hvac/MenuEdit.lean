import Hvac.Invariants
import Mathlib.Data.List.Nodup
import Mathlib.Data.List.Range

/-!
# Editing the settings

One pass of the settings page edits the field under the cursor and no other.
An edit the other way takes it back, but for the set points next to the ends of
their range, which are stepped over.
-/

namespace Hvac

/-- The fields of the record with a cursor position of their own. -/
inductive MenuField
  | moduleMode | mode | unit | daySetPoint | nightSetPoint | deadBand | fanRun | tempFrom
  | startHour | startMinute | endHour | endMinute
  deriving DecidableEq, Repr

namespace MenuField

def cusor : MenuField → U8
  | moduleMode => 1
  | mode => 2
  | unit => 3
  | daySetPoint => 4
  | nightSetPoint => 5
  | deadBand => 6
  | fanRun => 7
  | tempFrom => 8
  | startHour => 15
  | startMinute => 16
  | endHour => 17
  | endMinute => 18

@[reducible] def width : MenuField → Nat
  | daySetPoint | nightSetPoint => 16
  | _ => 8

def highByte (v : U16) : U8 := (v >>> 8).setWidth 8
def lowByte (v : U16) : U8 := v.setWidth 8
def putHigh (byte : U8) (v : U16) : U16 :=
  byte.setWidth 16 <<< 8 ||| (v.setWidth 8 : U8).setWidth 16
def putLow (byte : U8) (v : U16) : U16 := (v >>> 8) <<< 8 ||| byte.setWidth 16

def get : (field : MenuField) → TypeInfo → BitVec field.width
  | moduleMode, info => info.moduleMode
  | mode, info => info.mode
  | unit, info => info.unit
  | daySetPoint, info => info.daySetPoint
  | nightSetPoint, info => info.nightSetPoint
  | deadBand, info => info.deadBand
  | fanRun, info => info.fanRun
  | tempFrom, info => info.tempFrom
  | startHour, info => highByte info.dayStartTime
  | startMinute, info => lowByte info.dayStartTime
  | endHour, info => highByte info.dayEndTime
  | endMinute, info => lowByte info.dayEndTime

def put : (field : MenuField) → BitVec field.width → TypeInfo → TypeInfo
  | moduleMode, v, info => { info with moduleMode := v }
  | mode, v, info => { info with mode := v }
  | unit, v, info => { info with unit := v }
  | daySetPoint, v, info => { info with daySetPoint := v }
  | nightSetPoint, v, info => { info with nightSetPoint := v }
  | deadBand, v, info => { info with deadBand := v }
  | fanRun, v, info => { info with fanRun := v }
  | tempFrom, v, info => { info with tempFrom := v }
  | startHour, v, info => { info with dayStartTime := putHigh v info.dayStartTime }
  | startMinute, v, info => { info with dayStartTime := putLow v info.dayStartTime }
  | endHour, v, info => { info with dayEndTime := putHigh v info.dayEndTime }
  | endMinute, v, info => { info with dayEndTime := putLow v info.dayEndTime }

/-- The step of an up press. -/
def add : (field : MenuField) → BitVec field.width → BitVec field.width
  | moduleMode => addData moduleSlave moduleMaster
  | mode => addData mode1Conventional mode3B
  | unit => addData unitCentigrade unitFahrenheit
  | daySetPoint | nightSetPoint => addSetPoint
  | deadBand => addDeadband
  | fanRun => addData fanAuto fanOpenAlways
  | tempFrom => addData tempFromRemote tempFromLocal
  | startHour | endHour => addData 0 23
  | startMinute | endMinute => addData 0 59

def sub : (field : MenuField) → BitVec field.width → BitVec field.width
  | moduleMode => subData moduleSlave moduleMaster
  | mode => subData mode1Conventional mode3B
  | unit => subData unitCentigrade unitFahrenheit
  | daySetPoint | nightSetPoint => subSetPoint
  | deadBand => subDeadband
  | fanRun => subData fanAuto fanOpenAlways
  | tempFrom => subData tempFromRemote tempFromLocal
  | startHour | endHour => subData 0 23
  | startMinute | endMinute => subData 0 59

def Between (min max : Nat) (v : BitVec w) : Prop := min ≤ v.toNat ∧ v.toNat ≤ max

instance (min max : Nat) (v : BitVec w) : Decidable (Between min max v) :=
  inferInstanceAs (Decidable (_ ∧ _))

/-- The values a field has in the menu. -/
def InRange : (field : MenuField) → BitVec field.width → Prop
  | moduleMode, v => Between 0 1 v
  | mode, v => Between 1 3 v
  | unit, v => Between 1 2 v
  | daySetPoint, v | nightSetPoint, v => v.toNat % 10 = 0 ∧ Between 0 500 v
  | deadBand, v => v.toNat % 10 = 0 ∧ Between 10 50 v
  | fanRun, v => Between 0 1 v
  | tempFrom, v => Between 1 2 v
  | startHour, v | endHour, v => Between 0 23 v
  | startMinute, v | endMinute, v => Between 0 59 v

instance : (field : MenuField) → (v : BitVec field.width) → Decidable (field.InRange v)
  | moduleMode, v => inferInstanceAs (Decidable (Between 0 1 v))
  | mode, v => inferInstanceAs (Decidable (Between 1 3 v))
  | unit, v => inferInstanceAs (Decidable (Between 1 2 v))
  | daySetPoint, v | nightSetPoint, v =>
    inferInstanceAs (Decidable (v.toNat % 10 = 0 ∧ Between 0 500 v))
  | deadBand, v => inferInstanceAs (Decidable (v.toNat % 10 = 0 ∧ Between 10 50 v))
  | fanRun, v => inferInstanceAs (Decidable (Between 0 1 v))
  | tempFrom, v => inferInstanceAs (Decidable (Between 1 2 v))
  | startHour, v | endHour, v => inferInstanceAs (Decidable (Between 0 23 v))
  | startMinute, v | endMinute, v => inferInstanceAs (Decidable (Between 0 59 v))

/-- The set points with an edit that is not taken back: the top is stepped over
going up, the bottom going down. -/
def SteppedOver : (field : MenuField) → BitVec field.width → Prop
  | daySetPoint, v | nightSetPoint, v => v = 0 ∨ v = 10 ∨ v = 490 ∨ v = 500
  | _, _ => False

-- ---------------------------------------------------------------------------
-- Fields of the record
-- ---------------------------------------------------------------------------

@[simp] theorem highByte_putHigh (byte : U8) (v : U16) : highByte (putHigh byte v) = byte := by
  ext i hi
  have hin : 8 + i < 16 ∧ ¬8 + i < 8 ∧ i < 16 := by omega
  simp [highByte, putHigh, hin, BitVec.getLsbD_eq_getElem hi]

@[simp] theorem lowByte_putHigh (byte : U8) (v : U16) : lowByte (putHigh byte v) = lowByte v := by
  ext i hi
  simp [lowByte, putHigh]

@[simp] theorem highByte_putLow (byte : U8) (v : U16) : highByte (putLow byte v) = highByte v := by
  ext i hi
  have hin : 8 + i < 16 := by omega
  simp [highByte, putLow, hin]

@[simp] theorem lowByte_putLow (byte : U8) (v : U16) : lowByte (putLow byte v) = byte := by
  ext i hi
  simp [lowByte, putLow]

theorem ext_bytes {v v' : U16} (hhigh : highByte v = highByte v') (hlow : lowByte v = lowByte v') :
    v = v' := by
  apply BitVec.eq_of_getLsbD_eq
  intro i hi
  by_cases h : i < 8
  · have hbit : (lowByte v).getLsbD i = (lowByte v').getLsbD i := by rw [hlow]
    simpa [lowByte, h] using hbit
  · have hbit : (highByte v).getLsbD (i - 8) = (highByte v').getLsbD (i - 8) := by rw [hhigh]
    have hin : i - 8 < 8 := by omega
    have hback : 8 + (i - 8) = i := by omega
    simpa [highByte, hin, hback] using hbit

theorem get_put (field : MenuField) (v : BitVec field.width) (info : TypeInfo) :
    field.get (field.put v info) = v := by
  cases field <;> simp [get, put]

theorem put_put (field : MenuField) (v v' : BitVec field.width) (info : TypeInfo) :
    field.put v (field.put v' info) = field.put v info := by
  cases field <;> simp only [put] <;> congr 1 <;> exact ext_bytes (by simp) (by simp)

theorem put_get (field : MenuField) (info : TypeInfo) : field.put (field.get info) info = info := by
  cases field <;> simp only [put, get] <;> congr 1 <;> exact ext_bytes (by simp) (by simp)

theorem get_put_of_ne {field other : MenuField} (h : other ≠ field) (v : BitVec field.width)
    (info : TypeInfo) : other.get (field.put v info) = other.get info := by
  cases field <;> cases other <;> first | exact absurd rfl h | rfl | simp [get, put]

theorem put_eq_self_iff {field : MenuField} {v : BitVec field.width} {info : TypeInfo} :
    field.put v info = info ↔ v = field.get info := by
  constructor
  · intro h
    rw [← h, get_put]
  · rintro rfl
    exact put_get field info

end MenuField

-- ---------------------------------------------------------------------------
-- The steps
-- ---------------------------------------------------------------------------

/-- Where a value is below another, one is not zero. -/
theorem toNat_one_of_lt {v v' : BitVec w} (h : v.toNat < v'.toNat) : (1 : BitVec w).toNat = 1 := by
  cases w with
  | zero =>
    have hv := v'.isLt
    omega
  | succ w => exact BitVec.toNat_one (Nat.succ_pos w)

theorem addData_toNat {min max v : BitVec w} :
    (addData min max v).toNat = if v.toNat < max.toNat then v.toNat + 1 else min.toNat := by
  have hmax := max.isLt
  unfold addData
  simp only [BitVec.lt_def]
  split
  · rename_i hlt
    rw [BitVec.toNat_add, toNat_one_of_lt hlt, Nat.mod_eq_of_lt (by omega)]
  · rfl

theorem subData_toNat {min max v : BitVec w} :
    (subData min max v).toNat = if min.toNat < v.toNat then v.toNat - 1 else max.toNat := by
  have hv := v.isLt
  unfold subData
  simp only [gt_iff_lt, BitVec.lt_def]
  split
  · rename_i hlt
    have hle : (1 : BitVec w) ≤ v := by
      rw [BitVec.le_def, toNat_one_of_lt hlt]
      omega
    rw [BitVec.toNat_sub_of_le hle, toNat_one_of_lt hlt]
  · rfl

/-- Within their range the two steps stay, and undo each other. -/
theorem data_steps {min max v : BitVec w} (hmin : min.toNat ≤ v.toNat)
    (hmax : v.toNat ≤ max.toNat) :
    (min.toNat ≤ (addData min max v).toNat ∧ (addData min max v).toNat ≤ max.toNat) ∧
      (min.toNat ≤ (subData min max v).toNat ∧ (subData min max v).toNat ≤ max.toNat) ∧
      subData min max (addData min max v) = v ∧ addData min max (subData min max v) = v := by
  refine ⟨?_, ?_, BitVec.eq_of_toNat_eq ?_, BitVec.eq_of_toNat_eq ?_⟩
  · rw [addData_toNat]
    split <;> omega
  · rw [subData_toNat]
    split <;> omega
  · rw [subData_toNat, addData_toNat]
    split
    · simp [Nat.lt_succ_of_le hmin]
    · simp
      omega
  · rw [addData_toNat, subData_toNat]
    split
    · rw [if_pos (by omega)]
      omega
    · simp
      omega

/-- A multiple of ten in range is one of finitely many. -/
theorem exists_tens (m : Nat) {v : BitVec w} (hten : v.toNat % 10 = 0) (hmax : v.toNat ≤ 10 * m) :
    ∃ n : Fin (m + 1), v = BitVec.ofNat w (10 * n.val) := by
  have hv := v.isLt
  refine ⟨⟨v.toNat / 10, by omega⟩, ?_⟩
  apply BitVec.eq_of_toNat_eq
  have hback : 10 * (v.toNat / 10) = v.toNat := by omega
  simp [hback]

theorem setPoint_steps {v : S16} (hten : v.toNat % 10 = 0) (hmax : v.toNat ≤ 500) :
    ((addSetPoint v).toNat % 10 = 0 ∧ (addSetPoint v).toNat ≤ 500) ∧
      ((subSetPoint v).toNat % 10 = 0 ∧ (subSetPoint v).toNat ≤ 500) ∧
      (subSetPoint (addSetPoint v) = v ∧ addSetPoint (subSetPoint v) = v ↔
        ¬(v = 0 ∨ v = 10 ∨ v = 490 ∨ v = 500)) := by
  obtain ⟨n, rfl⟩ := exists_tens 50 hten hmax
  clear hten hmax
  revert n
  decide

theorem deadband_steps {v : U8} (hten : v.toNat % 10 = 0) (hmin : 10 ≤ v.toNat)
    (hmax : v.toNat ≤ 50) :
    ((addDeadband v).toNat % 10 = 0 ∧ 10 ≤ (addDeadband v).toNat ∧ (addDeadband v).toNat ≤ 50) ∧
      ((subDeadband v).toNat % 10 = 0 ∧ 10 ≤ (subDeadband v).toNat ∧ (subDeadband v).toNat ≤ 50) ∧
      subDeadband (addDeadband v) = v ∧ addDeadband (subDeadband v) = v := by
  obtain ⟨n, rfl⟩ := exists_tens 5 hten hmax
  clear hten hmax
  revert n
  decide

namespace MenuField

/-- What the steps of a field keep, and where they undo each other. -/
structure Steps (field : MenuField) (v : BitVec field.width) : Prop where
  add : field.InRange (field.add v)
  sub : field.InRange (field.sub v)
  reversible : field.sub (field.add v) = v ∧ field.add (field.sub v) = v ↔ ¬field.SteppedOver v

theorem steps {field : MenuField} {v : BitVec field.width} (hv : field.InRange v) :
    field.Steps v := by
  have data {field : MenuField} {v : BitVec field.width} (min max : BitVec field.width)
      (hadd : field.add = addData min max) (hsub : field.sub = subData min max)
      (hrange : ∀ v, field.InRange v ↔ min.toNat ≤ v.toNat ∧ v.toNat ≤ max.toNat)
      (hover : ¬field.SteppedOver v) (hv : field.InRange v) : field.Steps v := by
    obtain ⟨hmin, hmax⟩ := (hrange v).mp hv
    obtain ⟨ha, hs, hundo⟩ := data_steps hmin hmax
    rw [← hadd] at ha hundo
    rw [← hsub] at hs hundo
    exact ⟨(hrange _).mpr ha, (hrange _).mpr hs, iff_of_true hundo hover⟩
  cases field with
  | daySetPoint | nightSetPoint =>
    obtain ⟨hten, -, hmax⟩ := hv
    obtain ⟨⟨hten, hmax⟩, ⟨hten', hmax'⟩, hundo⟩ := setPoint_steps hten hmax
    exact ⟨⟨hten, Nat.zero_le _, hmax⟩, ⟨hten', Nat.zero_le _, hmax'⟩, hundo⟩
  | deadBand =>
    obtain ⟨hten, hmin, hmax⟩ := hv
    obtain ⟨ha, hs, hundo⟩ := deadband_steps hten hmin hmax
    exact ⟨ha, hs, iff_of_true hundo not_false⟩
  | moduleMode => exact data moduleSlave moduleMaster rfl rfl (fun _ => .rfl) not_false hv
  | mode => exact data mode1Conventional mode3B rfl rfl (fun _ => .rfl) not_false hv
  | unit => exact data unitCentigrade unitFahrenheit rfl rfl (fun _ => .rfl) not_false hv
  | fanRun => exact data fanAuto fanOpenAlways rfl rfl (fun _ => .rfl) not_false hv
  | tempFrom => exact data tempFromRemote tempFromLocal rfl rfl (fun _ => .rfl) not_false hv
  | startHour | endHour => exact data 0 23 rfl rfl (fun _ => .rfl) not_false hv
  | startMinute | endMinute => exact data 0 59 rfl rfl (fun _ => .rfl) not_false hv

end MenuField

-- ---------------------------------------------------------------------------
-- The window
-- ---------------------------------------------------------------------------

/-- Four rows more than the first, so no bound wraps, and the row scrolled to is one. -/
theorem scroll_bounds (hsize : menu.max.toNat = menu.min.toNat + 4) (show' : U8) :
    (scroll show' menu).max.toNat = (scroll show' menu).min.toNat + 4 ∧
      (scroll show' menu).min.toNat ≤ show'.toNat ∧
      show'.toNat ≤ (scroll show' menu).max.toNat := by
  have hmax := menu.max.isLt
  have hfour : (4 : U8).toNat = 4 := rfl
  unfold scroll
  simp only [gt_iff_lt, BitVec.lt_def]
  split
  · have hadd : (show' + 4).toNat = show'.toNat + 4 := by
      rw [BitVec.toNat_add, hfour, Nat.mod_eq_of_lt (by omega)]
    refine ⟨hadd, Nat.le_refl _, ?_⟩
    simp only [hadd]
    omega
  · split
    · have hle : (4 : U8) ≤ show' := by
        rw [BitVec.le_def, hfour]
        omega
      have hsub : (show' - 4).toNat = show'.toNat - 4 := by
        rw [BitVec.toNat_sub_of_le hle, hfour]
      refine ⟨?_, ?_, Nat.le_refl _⟩ <;> simp only [hsub] <;> omega
    · exact ⟨hsize, by omega, by omega⟩

/-- The windows the page has after any cursor movements. -/
inductive MenuWindow.Reached : MenuWindow → Prop
  | start : Reached {}
  | scroll (cusor : U8) (h : Reached menu) : Reached (scroll (showMenu cusor) menu)

theorem MenuWindow.Reached.size (h : Reached menu) : menu.max.toNat = menu.min.toNat + 4 := by
  induction h with
  | start => rfl
  | scroll cusor h ih => exact (scroll_bounds ih _).1

theorem MenuWindow.rows_eq (menu : MenuWindow) :
    menu.rows = (List.range (menu.max.toNat + 1 - menu.min.toNat)).map
      fun k : Nat => (menu.min.toNat : Int) - 1 + k := by
  simp [rows, ← List.map_eq_flatMap, Function.comp_def]

theorem MenuWindow.rows_nodup (menu : MenuWindow) : menu.rows.Nodup := by
  rw [rows_eq]
  refine List.Nodup.map ?_ List.nodup_range
  intro k k' h
  simp only at h
  omega

def rowOf (cusor : U8) : Int := (showMenu cusor).toNat - 1

/-- The window follows the cursor. -/
theorem rowOf_mem_scroll (h : menu.max.toNat = menu.min.toNat + 4) (cusor : U8) :
    rowOf cusor ∈ (scroll (showMenu cusor) menu).rows := by
  obtain ⟨hsize, hmin, hmax⟩ := scroll_bounds h (showMenu cusor)
  rw [MenuWindow.rows_eq]
  refine List.mem_map.mpr
    ⟨(showMenu cusor).toNat - (scroll (showMenu cusor) menu).min.toNat, ?_, ?_⟩
  · rw [List.mem_range]
    omega
  · unfold rowOf
    omega

theorem rowOf_mem_rows (h : menu.Reached) (cusor : U8) :
    rowOf cusor ∈ (scroll (showMenu cusor) menu).rows := rowOf_mem_scroll h.size cusor

-- ---------------------------------------------------------------------------
-- One pass
-- ---------------------------------------------------------------------------

theorem settingField_idle (h : s.page.changeValue = yes → s.page.cusor ≠ cusor) :
    settingField cusor add sub s = s := if_neg fun ⟨hc, hv⟩ => h hv hc

theorem settingField_elsewhere (cusor : U8) (add sub : SettingPass → SettingPass) (s : SettingPass)
    (hne : s.page.cusor ≠ cusor) : settingField cusor add sub s = s :=
  settingField_idle fun _ => hne

theorem settingField_up (hc : s.page.cusor = cusor) (hv : s.page.changeValue = yes)
    (hup : s.page.up = yes) (hdown : s.page.down ≠ yes) :
    settingField cusor add sub s = { add s with page := { s.page with up := no } } := by
  simp [settingField, hc, hv, hup, hdown]

theorem settingField_down (hc : s.page.cusor = cusor) (hv : s.page.changeValue = yes)
    (hup : s.page.up ≠ yes) (hdown : s.page.down = yes) :
    settingField cusor add sub s = { sub s with page := { s.page with down := no } } := by
  simp [settingField, hc, hv, hup, hdown]

@[simp] theorem settingField_cusor (cusor : U8) (add sub : SettingPass → SettingPass)
    (s : SettingPass) : (settingField cusor add sub s).page.cusor = s.page.cusor := by
  unfold settingField
  dsimp only
  repeat' split
  all_goals rfl

/-- A row does nothing without the cursor, or while values are not edited. -/
theorem settingRow_idle (h : s.page.changeValue = yes → rowOf s.page.cusor ≠ i) :
    settingRow i s = s := by
  have idle (cusor : U8) (add sub : SettingPass → SettingPass) (hrow : rowOf cusor = i) :
      settingField cusor add sub s = s :=
    settingField_idle fun hv hc => h hv (hc ▸ hrow)
  unfold settingRow
  split <;> simp (disch := decide) only [idle]

theorem settingRow_cusor (i : Int) (s : SettingPass) :
    (settingRow i s).page.cusor = s.page.cusor := by
  unfold settingRow
  split <;> simp only [settingField_cusor]

theorem foldl_idle {f : σ → ι → σ} {l : List ι} (h : ∀ j ∈ l, f s j = s) : l.foldl f s = s := by
  induction l with
  | nil => rfl
  | cons j rest ih =>
    obtain ⟨hj, hrest⟩ := List.forall_mem_cons.mp h
    rw [List.foldl_cons, hj]
    exact ih hrest

theorem foldl_single {f : σ → ι → σ} {l : List ι} (hnodup : l.Nodup) (hmem : i ∈ l)
    (hbefore : ∀ j, j ≠ i → f s j = s) (hafter : ∀ j, j ≠ i → f (f s i) j = f s i) :
    l.foldl f s = f s i := by
  induction l with
  | nil => cases hmem
  | cons j rest ih =>
    obtain ⟨hnot, hrest⟩ := List.nodup_cons.mp hnodup
    rw [List.foldl_cons]
    rcases List.mem_cons.mp hmem with rfl | hmem
    · refine foldl_idle fun j hj => hafter j ?_
      rintro rfl
      exact hnot hj
    · rw [hbefore j]
      · exact ih hrest hmem
      · rintro rfl
        exact hnot hmem

def startPass (page : TypePage) (m : Module) : SettingPass where
  page := page
  timeFor := getTimeForMat m.rtc
  module := { m with menu := scroll (showMenu page.cusor) m.menu }

/-- The row under the cursor is visible, and no other does anything. -/
theorem settingPage_row (h : m.menu.Reached) (page : TypePage) :
    settingPage page m =
      ((settingRow (rowOf page.cusor) (startPass page m)).page,
        (settingRow (rowOf page.cusor) (startPass page m)).module) := by
  have hfold : (scroll (showMenu page.cusor) m.menu).rows.foldl (fun s i => settingRow i s)
      (startPass page m) = settingRow (rowOf page.cusor) (startPass page m) := by
    refine foldl_single (MenuWindow.rows_nodup _) (rowOf_mem_rows h page.cusor) ?_ ?_
    · exact fun j hj => settingRow_idle fun _ => hj.symm
    · intro j hj
      refine settingRow_idle fun _ => ?_
      rw [settingRow_cusor]
      exact hj.symm
  exact congrArg (fun s : SettingPass => (s.page, s.module)) hfold

theorem settingPage_viewing (h : m.menu.Reached) (hview : page.changeValue ≠ yes) :
    settingPage page m = (page, { m with menu := scroll (showMenu page.cusor) m.menu }) := by
  rw [settingPage_row h, settingRow_idle fun hv => absurd hv hview]
  rfl

theorem settingRow_field {field : MenuField} (hc : s.page.cusor = field.cusor) :
    settingRow (rowOf s.page.cusor) s =
      settingField field.cusor (onInfo fun info => field.put (field.add (field.get info)) info)
        (onInfo fun info => field.put (field.sub (field.get info)) info) s := by
  rw [hc]
  cases field with
  | startHour =>
    refine settingField_elsewhere 16 _ _ _ ?_
    simp [hc, MenuField.cusor]
  | endHour =>
    refine settingField_elsewhere 18 _ _ _ ?_
    simp [hc, MenuField.cusor]
  | startMinute =>
    refine congrArg (settingField 16 _ _) (settingField_elsewhere 15 _ _ s ?_)
    simp [hc, MenuField.cusor]
  | endMinute =>
    refine congrArg (settingField 18 _ _) (settingField_elsewhere 17 _ _ s ?_)
    simp [hc, MenuField.cusor]
  | _ => rfl

-- ---------------------------------------------------------------------------
-- The window over runs
-- ---------------------------------------------------------------------------

theorem settingField_menu (hadd : ∀ s, (add s).module.menu = s.module.menu)
    (hsub : ∀ s, (sub s).module.menu = s.module.menu) (s : SettingPass) :
    (settingField cusor add sub s).module.menu = s.module.menu := by
  unfold settingField
  dsimp only
  repeat' split
  all_goals simp only [hadd, hsub]

theorem settingRow_menu (i : Int) (s : SettingPass) :
    (settingRow i s).module.menu = s.module.menu := by
  have info (f : TypeInfo → TypeInfo) (s : SettingPass) :
      (onInfo f s).module.menu = s.module.menu := rfl
  have date (f : SysTime → SysTime) (s : SettingPass) :
      (onDate f s).module.menu = s.module.menu := rfl
  have time (f : SysTime → SysTime) (s : SettingPass) :
      (onTime f s).module.menu = s.module.menu := rfl
  unfold settingRow
  split <;> simp only [settingField_menu, info, date, time, implies_true]

theorem uartPoll_menu (alloc : Alloc) (m : Module) : (uartPoll alloc m).menu = m.menu := by
  refine uartPoll_preserves (P := fun m' => m'.menu = m.menu) alloc ?_ ?_ ?_ ?_ ?_ ?_ rfl
  · exact fun _ h => h
  · exact fun _ _ h => h
  · intro reg v m' h
    by_cases hset : (Register.decode reg).IsSetting
    · obtain ⟨info, action, hm, -⟩ := writeRegister_setting (m := m') hset
      rwa [hm]
    · obtain ⟨sensor, timeCorrect, rtc, hm⟩ := writeRegister_report (m := m') hset
      rwa [hm]
  · exact fun _ h => h
  · exact fun _ _ h => h
  · exact fun _ h => h

/-- Of the steps only the page itself and a boot move the window. -/
theorem step_menu (hpage : ∀ page, e ≠ .settingPage page) (hboot : e ≠ .reboot) (m : Module) :
    (step e m).menu = m.menu := by
  cases e with
  | settingPage page => exact absurd rfl (hpage page)
  | reboot => exact absurd rfl hboot
  | poll alloc => exact uartPoll_menu alloc m
  | _ => exact (step_untouched (by simp) hpage hboot m).menu

theorem step_reached (e : Event) (h : m.menu.Reached) : (step e m).menu.Reached := by
  cases e with
  | reboot => exact .start
  | settingPage page =>
    rw [step, settingPage_row h, settingRow_menu]
    exact h.scroll page.cusor
  | _ =>
    rw [step_menu (by simp) (by simp)]
    exact h

theorem Reachable.menu_reached (h : Reachable m) : m.menu.Reached := by
  refine Machine.Reachable.invariant (P := fun m => m.menu.Reached) h ?_ fun e _ => step_reached e
  rintro _ ⟨flash, rtc, uniqueId, rfl⟩
  exact .start

-- ---------------------------------------------------------------------------
-- A press and its opposite
-- ---------------------------------------------------------------------------

def released (cusor : U8) : TypePage := { cusor, changeValue := yes, up := no, down := no }
def pressUp (cusor : U8) : TypePage := { released cusor with up := yes }
def pressDown (cusor : U8) : TypePage := { released cusor with down := yes }

/-- The module after one pass with a step of the field. -/
def MenuField.edit (field : MenuField) (f : BitVec field.width → BitVec field.width) (m : Module) :
    Module :=
  { m with
    menu := scroll (showMenu field.cusor) m.menu
    info := field.put (f (field.get m.info)) m.info }

/-- Where the row under the cursor is one edit, a press is that edit and is cleared. -/
theorem settingPage_press (h : m.menu.Reached)
    (hrow : ∀ s, s.page.cusor = cusor →
      settingRow (rowOf s.page.cusor) s = settingField cusor add sub s) :
    settingPage (pressUp cusor) m = (released cusor, (add (startPass (pressUp cusor) m)).module) ∧
      settingPage (pressDown cusor) m =
        (released cusor, (sub (startPass (pressDown cusor) m)).module) := by
  constructor
  · have hup := (hrow (startPass (pressUp cusor) m) rfl).trans
      (settingField_up (s := startPass (pressUp cusor) m) rfl rfl rfl (show no ≠ yes by decide))
    exact (settingPage_row h _).trans (congrArg (fun s : SettingPass => (s.page, s.module)) hup)
  · have hdown := (hrow (startPass (pressDown cusor) m) rfl).trans
      (settingField_down (s := startPass (pressDown cusor) m) rfl rfl (show no ≠ yes by decide) rfl)
    exact (settingPage_row h _).trans (congrArg (fun s : SettingPass => (s.page, s.module)) hdown)

theorem settingPage_pressUp (h : m.menu.Reached) (field : MenuField) :
    settingPage (pressUp field.cusor) m = (released field.cusor, field.edit field.add m) :=
  (settingPage_press h fun _ => settingRow_field).1

theorem settingPage_pressDown (h : m.menu.Reached) (field : MenuField) :
    settingPage (pressDown field.cusor) m = (released field.cusor, field.edit field.sub m) :=
  (settingPage_press h fun _ => settingRow_field).2

def upThenDown (cusor : U8) (m : Module) : Module :=
  let pass := settingPage (pressUp cusor) m
  (settingPage { pass.1 with down := yes } pass.2).2

def downThenUp (cusor : U8) (m : Module) : Module :=
  let pass := settingPage (pressDown cusor) m
  (settingPage { pass.1 with up := yes } pass.2).2

/-- Only the field has changed, and is in its range. -/
def MenuField.Edited (field : MenuField) (info info' : TypeInfo) : Prop :=
  (∃ v, field.InRange v ∧ info' = field.put v info) ∧
    ∀ other, other ≠ field → other.get info' = other.get info

/-- What the menu does with a press on a field, with the opposite press after it,
and while values are not edited. -/
structure EditsReversibly (field : MenuField) (m : Module) : Prop where
  up : field.Edited m.info (settingPage (pressUp field.cusor) m).2.info
  down : field.Edited m.info (settingPage (pressDown field.cusor) m).2.info
  upDown : (upThenDown field.cusor m).info = m.info
  downUp : (downThenUp field.cusor m).info = m.info
  viewing : ∀ page : TypePage, page.cusor = field.cusor → page.changeValue = no →
    (settingPage page m).2.info = m.info

def TypeInfo.InMenu (info : TypeInfo) : Prop := ∀ field : MenuField, field.InRange (field.get info)

theorem MenuField.edited_put {field : MenuField} {v : BitVec field.width} (hv : field.InRange v)
    (info : TypeInfo) :
    field.Edited info (field.put v info) :=
  ⟨⟨v, hv, rfl⟩, fun _ h => get_put_of_ne h v info⟩

theorem upThenDown_info (h : m.menu.Reached) (field : MenuField) :
    (upThenDown field.cusor m).info =
      field.put (field.sub (field.add (field.get m.info))) m.info := by
  have hup := settingPage_pressUp h field
  have hdown := settingPage_pressDown (m := field.edit field.add m) (h.scroll _) field
  unfold upThenDown
  rw [hup]
  refine (congrArg (fun r : TypePage × Module => r.2.info) hdown).trans ?_
  simp only [MenuField.edit, MenuField.get_put, MenuField.put_put]

theorem downThenUp_info (h : m.menu.Reached) (field : MenuField) :
    (downThenUp field.cusor m).info =
      field.put (field.add (field.sub (field.get m.info))) m.info := by
  have hdown := settingPage_pressDown h field
  have hup := settingPage_pressUp (m := field.edit field.sub m) (h.scroll _) field
  unfold downThenUp
  rw [hdown]
  refine (congrArg (fun r : TypePage × Module => r.2.info) hup).trans ?_
  simp only [MenuField.edit, MenuField.get_put, MenuField.put_put]

/-- Two opposite presses restore the record where the steps of the field do. -/
theorem EditsReversibly.reversible (h : EditsReversibly field m) (hmenu : m.menu.Reached) :
    field.sub (field.add (field.get m.info)) = field.get m.info ∧
      field.add (field.sub (field.get m.info)) = field.get m.info := by
  have hup := (upThenDown_info hmenu field).symm.trans h.upDown
  have hdown := (downThenUp_info hmenu field).symm.trans h.downUp
  exact ⟨MenuField.put_eq_self_iff.mp hup, MenuField.put_eq_self_iff.mp hdown⟩

/-- Edits of the record in its menu ranges are local and reversible exactly where
the field is not a set point that one of the presses steps over. -/
theorem menu_reversible_iff (m : Module) (hmenu : m.menu.Reached) (hinfo : m.info.InMenu)
    (field : MenuField) :
    EditsReversibly field m ↔ ¬field.SteppedOver (field.get m.info) := by
  obtain ⟨hadd, hsub, hiff⟩ := MenuField.steps (hinfo field)
  rw [← hiff]
  constructor
  · exact fun h => h.reversible hmenu
  · rintro ⟨hup, hdown⟩
    constructor
    · rw [settingPage_pressUp hmenu]
      exact MenuField.edited_put hadd m.info
    · rw [settingPage_pressDown hmenu]
      exact MenuField.edited_put hsub m.info
    · exact (upThenDown_info hmenu field).trans (MenuField.put_eq_self_iff.mpr hup)
    · exact (downThenUp_info hmenu field).trans (MenuField.put_eq_self_iff.mpr hdown)
    · intro page _ hview
      rw [settingPage_viewing hmenu (by rw [hview]; decide)]

def withDaySetPoint (v : S16) : Module :=
  { blank with info := { initGlobalInformation with daySetPoint := v } }

theorem withDaySetPoint_reached (v : S16) : (withDaySetPoint v).menu.Reached := .start

theorem menu_reversible_room : EditsReversibly .daySetPoint (withDaySetPoint 260) := by
  have hinfo : (withDaySetPoint 260).info.InMenu := by
    intro field
    cases field <;> decide
  refine (menu_reversible_iff _ (withDaySetPoint_reached 260) hinfo .daySetPoint).mpr ?_
  rintro (h | h | h | h) <;> exact absurd h (by decide)

/-- From 49 degrees a press up gives 0, and a press down from there 50. -/
theorem menu_reversible_fails :
    ¬∀ m : Module, m.menu.Reached → m.info.InMenu → ∀ field, EditsReversibly field m := by
  intro h
  have hinfo : (withDaySetPoint 490).info.InMenu := by
    intro field
    cases field <;> decide
  have hedit := h _ (withDaySetPoint_reached 490) hinfo .daySetPoint
  exact absurd (hedit.reversible (withDaySetPoint_reached 490)).1 (by decide)

end Hvac
