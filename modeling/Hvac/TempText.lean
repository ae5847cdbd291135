import Hvac.CtrlWord
import Hvac.CutOff
import Hvac.MenuEdit

/-!
# The temperatures on the home page

`ShowTempNum` prints a temperature into arrays of six. Whether it fits depends
on what the bus has been allowed to store: the temperature of the master is an
unsigned word, a set point any signed one.
-/

namespace Hvac

open Machine (Within)

-- ---------------------------------------------------------------------------
-- The text
-- ---------------------------------------------------------------------------

/-- `%2.1f` of a tenth of the value: sign, whole degrees, point and one digit. -/
def tempText (temp : Int) : List Char :=
  (if temp < 0 then ['-'] else []) ++ Nat.toDigits 10 (temp.natAbs / 10) ++
    '.' :: Nat.toDigits 10 (temp.natAbs % 10)

/-- `%5s` of a text. -/
def padText (text : List Char) : List Char := List.replicate (5 - text.length) ' ' ++ text

/-- The size of `value` and of `value1`. -/
def valueSize : Nat := 6

/-- `ShowTempNum`: what is printed into the two arrays, in order. -/
def showTempNum (temp : Int) : List (List Char) :=
  if temp = valueNull then [[' ', '-', '-']] else [tempText temp, padText (tempText temp)]

/-- Every text fits its array, with the terminator. -/
def PrintsInBounds (temp : Int) : Prop :=
  ∀ text ∈ showTempNum temp, text.length + 1 ≤ valueSize

def Displayable (temp : Int) : Prop := -999 ≤ temp ∧ temp ≤ 9999

instance (temp : Int) : Decidable (Displayable temp) := inferInstanceAs (Decidable (_ ∧ _))

theorem length_digit (n : Nat) : (Nat.toDigits 10 (n % 10)).length = 1 := by
  have hpos : 0 < (Nat.toDigits 10 (n % 10)).length := Nat.length_toDigits_pos
  have hle := (Nat.length_toDigits_le_iff (b := 10) (n := n % 10) (k := 1) (by decide)
    (by decide)).mpr (by omega)
  omega

/-- Three digits before the point, or a sign and two. -/
theorem length_tempText_le : (tempText temp).length ≤ 5 ↔ Displayable temp := by
  have hdigits (k : Nat) (hk : 0 < k) : (Nat.toDigits 10 (temp.natAbs / 10)).length ≤ k ↔
      temp.natAbs / 10 < 10 ^ k := Nat.length_toDigits_le_iff (by decide) hk
  have htwo := hdigits 2 (by decide)
  have hthree := hdigits 3 (by decide)
  unfold tempText Displayable
  simp only [List.length_append, List.length_cons, length_digit]
  split
  · simp only [List.length_cons, List.length_nil]
    omega
  · simp only [List.length_nil]
    omega

theorem printsInBounds_iff :
    PrintsInBounds temp ↔ temp = valueNull ∨ (tempText temp).length ≤ 5 := by
  unfold PrintsInBounds showTempNum padText valueSize
  split
  · simp [*]
  · simp only [List.mem_cons, List.not_mem_nil, or_false, forall_eq_or_imp, forall_eq,
      List.length_append, List.length_replicate, *, false_or]
    omega

-- ---------------------------------------------------------------------------
-- The page
-- ---------------------------------------------------------------------------

/-- The values `HomePage` passes to `ShowTempNum`. -/
def homePageTemps (adc : Adc) (m : Module) : List Int :=
  [(getTempValue adc m).2, getSetPoint (takeSamples adc m)]

def TempTextsFit (adc : Adc) (m : Module) : Prop :=
  ∀ temp ∈ homePageTemps adc m, temp ≠ valueNull → (tempText temp).length ≤ 5

/-- The master's temperature, where it is the source, is below a thousand
degrees; and so is the set point of the schedule where it is in force, and not
below minus 99.9. -/
structure SourcesDisplayable (m : Module) : Prop where
  temp : m.info.tempFrom = tempFromRemote → m.sensor.temp ≤ 9999
  setPoint : m.info.moduleMode ≠ moduleSlave ∨ m.action.type = actionTypeByAuto →
    (scheduledSetPoint m).toInt = valueNull ∨ Displayable (scheduledSetPoint m).toInt

theorem res2Temp_displayable (res : U32) :
    res2Temp res = valueNull ∨ Displayable (res2Temp res) := by
  by_cases hcovered : 1678 < res.toNat ∧ res.toNat ≤ 203750
  · obtain ⟨hlow, hmax⟩ := hcovered
    obtain ⟨k, hk, hb⟩ := exists_entry (Nat.zero_lt_of_lt hlow) hmax
    have hbelow := tenthsAt_lt hb hk hlow
    rw [res2Temp_eq_tenths hb hk, if_pos hbelow]
    unfold tenthsAt at hbelow ⊢
    unfold Displayable
    omega
  · exact .inl (res2Temp_uncovered (by omega))

theorem getNtcValue_displayable (sample : AdcSample) (list : List Int) :
    (getNtcValue sample list).2 = valueNull ∨ Displayable (getNtcValue sample list).2 := by
  cases hfound : sample.found with
  | false =>
    rw [getNtcValue_missing hfound]
    exact .inr (show Displayable 1 by decide)
  | true =>
    by_cases hfails : sample.Fails list
    · exact .inl (getNtcValue_fails hfound hfails)
    · rw [getNtcValue_full hfails]
      exact res2Temp_displayable _

theorem getTempValue_displayable (adc : Adc) (h : m.info.tempFrom ≠ tempFromRemote) :
    (getTempValue adc m).2 = valueNull ∨ Displayable (getTempValue adc m).2 := by
  unfold getTempValue
  rw [if_neg h]
  split
  · dsimp only
    split
    · exact .inl rfl
    · exact getNtcValue_displayable _ _
  · exact .inl rfl

/-- What only the bus writes: a temperature that is no word is `VALUE_NULL`, and
the set point of a control word is at most 255 degrees. -/
structure BusValues (m : Module) : Prop where
  temp : m.sensor.temp = valueNull ∨ 0 ≤ m.sensor.temp
  setPoint : m.action.setPoint.toInt = valueNull ∨ Displayable m.action.setPoint.toInt

theorem writeRegister_busValues (h : BusValues m) (reg v : U16) :
    BusValues (writeRegister reg v m) := by
  obtain ⟨htemp, hpoint⟩ := h
  constructor
  · by_cases hreg : reg = regNowTemp
    · subst hreg
      exact .inr (Int.natCast_nonneg v.toNat)
    · rwa [writeRegister_temp hreg]
  · by_cases hreg : reg = regCtrl
    · subst hreg
      have hdecoded := (decodeCtrl_inForce v).setPoint
      rw [(writeRegister_ctrl v m).2, hdecoded]
      unfold Displayable
      omega
    · rwa [(writeRegister_not_ctrl hreg v m).2]

theorem Reachable.busValues (h : Reachable m) : BusValues m := by
  obtain ⟨_, events, ⟨flash, rtc, uniqueId, rfl⟩, rfl⟩ := h
  refine @run_writtenSinceBoot regCtrl (fun m _ => BusValues m) (fun _ _ _ => ?_)
    (fun m m' _ hsame h => ?_) (fun r v m _ h => writeRegister_busValues h r v) flash rtc uniqueId
    events
  · have hpoint : initActionInfomation.setPoint.toInt = valueNull := by decide
    exact ⟨.inl rfl, .inl hpoint⟩
  · obtain ⟨htemp, hpoint⟩ := h
    rw [← hsame.sensor] at htemp
    rw [← hsame.action] at hpoint
    exact ⟨htemp, hpoint⟩

theorem displayable_getTempValue_iff (h : BusValues m) (adc : Adc) :
    (getTempValue adc m).2 = valueNull ∨ Displayable (getTempValue adc m).2 ↔
      (m.info.tempFrom = tempFromRemote → m.sensor.temp ≤ 9999) := by
  by_cases hremote : m.info.tempFrom = tempFromRemote
  · have hvalue : (getTempValue adc m).2 = m.sensor.temp := by
      rw [getTempValue, if_pos hremote]
    have htemp := h.temp
    rw [hvalue]
    simp only [hremote, forall_const]
    unfold valueNull at *
    unfold Displayable
    omega
  · exact iff_of_true (getTempValue_displayable adc hremote) fun heq => absurd heq hremote

theorem displayable_getSetPoint_iff (h : BusValues m) :
    getSetPoint m = valueNull ∨ Displayable (getSetPoint m) ↔
      (m.info.moduleMode ≠ moduleSlave ∨ m.action.type = actionTypeByAuto →
        (scheduledSetPoint m).toInt = valueNull ∨ Displayable (scheduledSetPoint m).toInt) := by
  unfold getSetPoint
  split
  · rename_i hslave
    split
    · rename_i hauto
      simp [hauto]
    · rename_i hauto
      split
      · exact iff_of_true h.setPoint fun hor => absurd hor (by simp [hslave, hauto])
      · exact iff_of_true (.inl rfl) fun hor => absurd hor (by simp [hslave, hauto])
  · rename_i hslave
    simp [hslave]

/-- In a state the module can be in, the page is printed in bounds exactly when
the values in force are displayable. -/
theorem BusValues.fit_iff (h : BusValues m) (adc : Adc) :
    TempTextsFit adc m ↔ SourcesDisplayable m := by
  have hfit (temp : Int) : (temp ≠ valueNull → (tempText temp).length ≤ 5) ↔
      temp = valueNull ∨ Displayable temp := by
    rw [length_tempText_le]
    exact or_iff_not_imp_left.symm
  have hpoint : getSetPoint (takeSamples adc m) = getSetPoint m := rfl
  unfold TempTextsFit homePageTemps
  simp only [List.mem_cons, List.not_mem_nil, or_false, forall_eq_or_imp, forall_eq, hfit, hpoint,
    displayable_getTempValue_iff h, displayable_getSetPoint_iff h]
  exact ⟨fun ⟨htemp, hpoint⟩ => ⟨htemp, hpoint⟩, fun ⟨htemp, hpoint⟩ => ⟨htemp, hpoint⟩⟩

-- ---------------------------------------------------------------------------
-- Runs with displayable writes
-- ---------------------------------------------------------------------------

def TypeInfo.PointsDisplayable (info : TypeInfo) : Prop :=
  Displayable info.daySetPoint.toInt ∧ Displayable info.nightSetPoint.toInt

instance (info : TypeInfo) : Decidable info.PointsDisplayable :=
  inferInstanceAs (Decidable (_ ∧ _))

/-- A write of a temperature or of a set point is one the page can show. -/
def WriteDisplayable (w : U16 × U16) : Prop :=
  (Register.decode w.1 = .nowTemp → w.2.toNat ≤ 9999) ∧
    (Register.decode w.1 = .daySetpoint ∨ Register.decode w.1 = .nightSetpoint →
      Displayable w.2.toInt)

/-- What the bus writes in the step, or the boot takes from flash, can be shown. -/
def StepDisplayable : Event → Module → Prop
  | .reboot, m => (takeGlobalInfo m.flash).PointsDisplayable
  | e, m => ∀ w ∈ registerWrites e m, WriteDisplayable w

structure AllDisplayable (m : Module) : Prop where
  temp : m.sensor.temp ≤ 9999
  points : m.info.PointsDisplayable

theorem AllDisplayable.sources (h : AllDisplayable m) : SourcesDisplayable m := by
  refine ⟨fun _ => h.temp, fun _ => .inr ?_⟩
  unfold scheduledSetPoint
  split
  · exact h.points.1
  · exact h.points.2

theorem writeRegister_displayable (hw : WriteDisplayable (reg, v)) (h : AllDisplayable m) :
    AllDisplayable (writeRegister reg v m) := by
  obtain ⟨htemp, hpoint⟩ := hw
  obtain ⟨hm, hday, hnight⟩ := h
  unfold writeRegister modbusCommand
  cases hr : Register.decode reg
  case nowTemp => exact ⟨Int.ofNat_le.mpr (htemp hr), hday, hnight⟩
  case daySetpoint => exact ⟨hm, hpoint (.inl hr), hnight⟩
  case nightSetpoint => exact ⟨hm, hday, hpoint (.inr hr)⟩
  all_goals exact ⟨hm, hday, hnight⟩

theorem writeRegisters_displayable (hw : ∀ w ∈ writes, WriteDisplayable w)
    (h : AllDisplayable m) : AllDisplayable (writeRegisters writes m) := by
  induction writes generalizing m with
  | nil => exact h
  | cons w rest ih =>
    obtain ⟨hhead, hrest⟩ := List.forall_mem_cons.mp hw
    exact ih hrest (writeRegister_displayable hhead h)

theorem uartPoll_displayable (hw : ∀ w ∈ registerWrites (.poll alloc) m, WriteDisplayable w)
    (h : AllDisplayable m) : AllDisplayable (uartPoll alloc m) := by
  obtain ⟨htemp, hpoints⟩ := h
  by_cases hp : m.Pending
  · rw [uartPoll_pending hp]
    obtain ⟨-, -, he⟩ | ⟨hd, he⟩ | ⟨-, -, he⟩ :=
      uart1Analysis_cases alloc m.rx.data m.handedLen (uart1CleanRecvFlag m) <;> rw [he]
    · obtain ⟨-, -, hr⟩ | ⟨-, hr⟩ := register_cases m.rx.data (uart1CleanRecvFlag m) <;> rw [hr] <;>
        exact ⟨htemp, hpoints⟩
    · have hwrites : registerWrites (.poll alloc) m = commandWrites m.rx.data := if_pos ⟨hp, hd⟩
      rw [hwrites] at hw
      obtain ⟨flag, hafter⟩ :=
        afterCommand_writeRegisters m.rx.data alloc (uart1CleanRecvFlag m)
      obtain ⟨htemp', hpoints'⟩ :=
        writeRegisters_displayable (m := uart1CleanRecvFlag m) hw ⟨htemp, hpoints⟩
      rw [modbusCommandAnalysis_module, hafter]
      exact ⟨htemp', hpoints'⟩
    · exact ⟨htemp, hpoints⟩
  · rw [uartPoll_idle hp]
    exact ⟨htemp, hpoints⟩

theorem addSetPoint_displayable (h : Displayable point.toInt) :
    Displayable (addSetPoint point).toInt := by
  obtain ⟨hmin, hmax⟩ := h
  unfold addSetPoint Displayable
  split
  · have hten : (10 : S16).toInt = 10 := by decide
    rw [BitVec.toInt_add, hten]
    simp only [Int.bmod]
    omega
  · decide

theorem subSetPoint_displayable (h : Displayable point.toInt) :
    Displayable (subSetPoint point).toInt := by
  obtain ⟨hmin, hmax⟩ := h
  unfold subSetPoint Displayable
  split
  · have hten : (10 : S16).toInt = 10 := by decide
    rw [BitVec.toInt_sub, hten]
    simp only [Int.bmod]
    omega
  · decide

theorem settingField_displayable
    (hadd : ∀ s, AllDisplayable s.module → AllDisplayable (add s).module)
    (hsub : ∀ s, AllDisplayable s.module → AllDisplayable (sub s).module)
    (h : AllDisplayable s.module) : AllDisplayable (settingField cusor add sub s).module := by
  unfold settingField
  dsimp only
  repeat' split
  · exact hsub _ (hadd _ h)
  · exact hadd _ h
  · exact hsub _ h
  · exact h
  · exact h

theorem settingRow_displayable (i : Int) (h : AllDisplayable s.module) :
    AllDisplayable (settingRow i s).module := by
  unfold settingRow
  split
  case h_4 =>
    refine settingField_displayable (fun s hs => ?_) (fun s hs => ?_) h
    · exact ⟨hs.temp, addSetPoint_displayable hs.points.1, hs.points.2⟩
    · exact ⟨hs.temp, subSetPoint_displayable hs.points.1, hs.points.2⟩
  case h_5 =>
    refine settingField_displayable (fun s hs => ?_) (fun s hs => ?_) h
    · exact ⟨hs.temp, hs.points.1, addSetPoint_displayable hs.points.2⟩
    · exact ⟨hs.temp, hs.points.1, subSetPoint_displayable hs.points.2⟩
  case h_13 => exact h
  all_goals
    repeat' refine settingField_displayable (fun s hs => ⟨hs.1, hs.2⟩) (fun s hs => ⟨hs.1, hs.2⟩) ?_
    exact h

theorem settingPage_displayable (page : TypePage) (h : AllDisplayable m) :
    AllDisplayable (settingPage page m).2 := by
  have hrows (rows : List Int) (s : SettingPass) (hs : AllDisplayable s.module) :
      AllDisplayable (rows.foldl (fun s i => settingRow i s) s).module := by
    induction rows generalizing s with
    | nil => exact hs
    | cons i rest ih => exact ih _ (settingRow_displayable i hs)
  exact hrows _ (startPass page m) ⟨h.temp, h.points⟩

theorem powerUp_displayable (h : (takeGlobalInfo flash).PointsDisplayable) (rtc : Rtc)
    (uniqueId : Fin 12 → U8) : AllDisplayable (powerUp flash rtc uniqueId) := by
  have htemp : valueNull ≤ 9999 := by decide
  have hkept (info : TypeInfo) (hinfo : info.PointsDisplayable) :
      TypeInfo.PointsDisplayable { info with registerState := no } := ⟨hinfo.1, hinfo.2⟩
  exact ⟨htemp, hkept _ h⟩

theorem step_displayable (hg : StepDisplayable e m) (h : AllDisplayable m) :
    AllDisplayable (step e m) := by
  have hkept {e : Event} (hpoll : ∀ alloc, e ≠ .poll alloc)
      (hpage : ∀ page, e ≠ .settingPage page) (hboot : e ≠ .reboot) :
      AllDisplayable (step e m) := by
    obtain ⟨-, -, hday, hnight⟩ := step_untouched hpoll hpage hboot m
    refine ⟨(step_unpolled hpoll hboot).sensor.symm ▸ h.temp, ?_⟩
    rw [TypeInfo.PointsDisplayable, hday, hnight]
    exact h.points
  cases e with
  | poll alloc => exact uartPoll_displayable hg h
  | reboot => exact powerUp_displayable hg m.rtc m.uniqueId
  | settingPage page => exact settingPage_displayable page h
  | _ => exact hkept (by simp) (by simp) (by simp)

/-- After every run from a power-up, whatever the converter reads: the temperatures
of the home page fit exactly when the sources in force are displayable. And they
fit if the run writes, and takes from flash, only displayable values. -/
theorem temp_texts_fit_iff (flash : List U8) (rtc : Rtc) (uniqueId : Fin 12 → U8)
    (events : List Event) :
    (∀ adc, TempTextsFit adc (run events (powerUp flash rtc uniqueId)) ↔
      SourcesDisplayable (run events (powerUp flash rtc uniqueId))) ∧
    ((takeGlobalInfo flash).PointsDisplayable →
      Within step StepDisplayable events (powerUp flash rtc uniqueId) →
      ∀ adc, TempTextsFit adc (run events (powerUp flash rtc uniqueId))) := by
  have hreachable : Reachable (run events (powerUp flash rtc uniqueId)) :=
    ⟨_, events, ⟨flash, rtc, uniqueId, rfl⟩, rfl⟩
  refine ⟨hreachable.busValues.fit_iff, fun hflash h adc => ?_⟩
  have hrun : AllDisplayable (run events (powerUp flash rtc uniqueId)) :=
    h.preserves (fun _ _ hg hm => step_displayable hg hm) (powerUp_displayable hflash rtc uniqueId)
  exact (hreachable.busValues.fit_iff adc).mpr hrun.sources

/-- The master tells the module a temperature, high byte first. -/
def toldTemp (high low : U8) : List Event :=
  registered ++ [.input (sealFrame [0x01, 0x06, 0xF0, 0x02, high, low]), .poll ⟨true, true⟩]

theorem toldTemp_within : Within step StepDisplayable (toldTemp 0x27 0x0F) blank := by
  have hinput (chunk : List U8) (m : Module) : StepDisplayable (.input chunk) m :=
    fun w hw => absurd hw List.not_mem_nil
  have hpoll (m : Module) (writes : List (U16 × U16))
      (h : registerWrites (.poll ⟨true, true⟩) m = writes) (hw : ∀ w ∈ writes, WriteDisplayable w) :
      StepDisplayable (.poll ⟨true, true⟩) m := by
    subst h
    exact hw
  have htemp : WriteDisplayable (0xF002, 0x270F) :=
    ⟨fun _ => Nat.le_refl 9999, fun h => absurd h (by decide)⟩
  unfold toldTemp registered
  refine ⟨hinput _ _, hpoll _ [] ?_ (List.forall_mem_nil _), hinput _ _,
    hpoll _ [(0xF002, 0x270F)] ?_ (List.forall_mem_singleton.mpr htemp), trivial⟩
  · decide +kernel
  · decide +kernel

/-- 999.9 degrees still fit. -/
theorem temp_texts_fit_highest :
    SourcesDisplayable (run (toldTemp 0x27 0x0F) blank) ∧
      TempTextsFit noConverter (run (toldTemp 0x27 0x0F) blank) := by
  obtain ⟨hstate, hrun⟩ := temp_texts_fit_iff [] {} (fun _ => 0) (toldTemp 0x27 0x0F)
  have hfit := hrun (by decide +kernel) toldTemp_within noConverter
  exact ⟨(hstate noConverter).mp hfit, hfit⟩

/-- A thousand degrees do not: six characters and the terminator. -/
theorem temp_texts_fit_fails :
    (¬∀ m, Reachable m → ∀ adc, TempTextsFit adc m) ∧
      10000 ∈ homePageTemps noConverter (run (toldTemp 0x27 0x10) blank) ∧
      ¬PrintsInBounds 10000 := by
  have htemp : (run (toldTemp 0x27 0x10) blank).sensor.temp = 10000 ∧
      (run (toldTemp 0x27 0x10) blank).info.tempFrom = tempFromRemote := by decide +kernel
  obtain ⟨hvalue, hremote⟩ := htemp
  refine ⟨fun h => ?_, ?_, ?_⟩
  · have hreachable := reachable_run (toldTemp 0x27 0x10)
    have hsources := (hreachable.busValues.fit_iff noConverter).mp (h _ hreachable noConverter)
    have hle := hsources.temp hremote
    rw [hvalue] at hle
    exact absurd hle (by decide)
  · rw [homePageTemps, getTempValue, if_pos hremote, hvalue]
    exact List.mem_cons_self
  · rw [printsInBounds_iff, length_tempText_le]
    decide

end Hvac
