import Hvac.Requests
import Hvac.SaveRetry

/-!
# After a power cut

The power may go between any two turns of the threads. A boot takes the settings of
the last save, and the ten-second part of `UartEntry` saves every 502 turns.
-/

namespace Hvac

open Machine (Within)

-- ---------------------------------------------------------------------------
-- A save
-- ---------------------------------------------------------------------------

/-- A save that is skipped, for the remembered CRC, has its very record in the page. -/
def SkipsStored : StorageEvent → Module → Prop
  | .save, m =>
    m.lastCrc = usModbusRtuCrc m.info.covered → TypeInfo.ofBytes m.flash = m.info.sealed
  | _, _ => True

/-- The record in the page is the one of these settings. -/
def Keeps (info : TypeInfo) (m : Module) : Prop := takeGlobalInfo m.flash = info.sealed

/-- Any flash that does not fail in the four double words of the record is a flash that works. -/
theorem flashWrite_sound (hops : ¬ops.Faulty) (hlen : record.length ≤ 32) (flash : List U8) :
    flashWrite ops record flash = record := by
  obtain ⟨herase, hprogram⟩ := not_or.mp hops
  rw [flashWrite, if_pos (by simpa using herase)]
  refine List.mapIdx_eq_iff.mpr fun i => ?_
  cases hbyte : record[i]? with
  | none => rfl
  | some byte =>
    have hi : i < 32 := Nat.lt_of_lt_of_le (List.getElem?_eq_some_iff.mp hbyte).1 hlen
    have hword : ops.program (i / 8) = true := by
      by_contra hfails
      exact hprogram ⟨i / 8, by omega, by simpa using hfails⟩
    simp [hword]

theorem saveGlobalInfo_sound (hops : ¬ops.Faulty) (m : Module) :
    saveGlobalInfo ops m = saveGlobalInfo .succeed m := by
  have hlen : m.info.sealed.toBytes.length ≤ 32 := by simp [length_toBytes]
  by_cases h : SaveWrites m
  · rw [saveGlobalInfo_of_writes h, saveGlobalInfo_of_writes h, flashWrite_sound hops hlen,
      flashWrite_succeed]
  · rw [saveGlobalInfo_of_not_writes h, saveGlobalInfo_of_not_writes h]

theorem saveGlobalInfo_keeps (hops : ¬ops.Faulty) (h : SkipsStored .save m) :
    Keeps m.info (saveGlobalInfo ops m) := by
  rw [saveGlobalInfo_sound hops, Keeps, saveGlobalInfo_flash]
  by_cases hcrc : m.lastCrc = usModbusRtuCrc m.info.covered
  · have hpage : TypeInfo.ofBytes m.flash = m.info.sealed := h hcrc
    have hvalid : PageValid m.flash := by
      rw [PageValid, hpage]
      rfl
    rw [if_pos hcrc, takeGlobalInfo_valid hvalid, hpage]
  · rw [if_neg hcrc, takeGlobalInfo_toBytes]

/-- The registration request before the save does not touch the settings. -/
theorem uartEvery10s_keeps (calloc : Bool) (hops : ¬ops.Faulty) (h : SkipsStored .save m) :
    Keeps m.info (uartEvery10s calloc ops m) := by
  rw [uartEvery10s]
  split
  · exact saveGlobalInfo_keeps (m := { m with sendMsgList := _ }) hops h
  · exact saveGlobalInfo_keeps hops h

-- ---------------------------------------------------------------------------
-- The turns between two saves
-- ---------------------------------------------------------------------------

def FirmwareEvent.IsSave (e : FirmwareEvent) (s : Firmware) : Prop :=
  e.isUart = true ∧ s.uartAt = .every10s

instance decidableIsSave (e : FirmwareEvent) (s : Firmware) : Decidable (e.IsSave s) :=
  inferInstanceAs (Decidable (_ ∧ _))

/-- The power stays on, the flash works, and no save is skipped whose record is not in
the page. -/
def Stores : FirmwareEvent → Firmware → Prop
  | .uart _ ops, s => s.uartAt = .every10s → ¬ops.Faulty ∧ SkipsStored .save s.module
  | .reboot, _ => False
  | _, _ => True

instance decidableStores : (e : FirmwareEvent) → (s : Firmware) → Decidable (Stores e s)
  | .uart _ ops, s =>
    inferInstanceAs (Decidable (s.uartAt = .every10s → ¬ops.Faulty ∧
      (s.module.lastCrc = usModbusRtuCrc s.module.info.covered →
        TypeInfo.ofBytes s.module.flash = s.module.info.sealed)))
  | .reboot, _ => inferInstanceAs (Decidable False)
  | .input _, _ | .rtcTick _, _ | .main _, _ | .oled _, _ | .button _, _ =>
    inferInstanceAs (Decidable True)

theorem run_view_flash (hboot : e ≠ .reboot) (hsave : ¬e.IsSave s) (m : Module) :
    (run (firmwareView e s) m).flash = m.flash := by
  obtain hview | ⟨e', hview, hboot', -, hlate⟩ := firmwareView_single hboot s <;> rw [hview]
  · rfl
  · exact (step_samePage hboot' fun calloc ops he => hsave (hlate calloc ops he)).flash

theorem firmwareStep_flash (hreach : FirmwareReachable s) (hboot : e ≠ .reboot)
    (hsave : ¬e.IsSave s) : (firmwareStep e s).module.flash = s.module.flash := by
  obtain ⟨m, -, htracked⟩ := hreach.tracked
  obtain ⟨flag, hm⟩ : ∃ flag, s.module = m.withLocation flag := htracked.module
  obtain ⟨flag', hm'⟩ : ∃ flag, (firmwareStep e s).module =
    (run (firmwareView e s) m).withLocation flag := (firmwareStep_tracked e s m htracked).module
  rw [hm, hm']
  exact run_view_flash hboot hsave m

theorem firmwareStep_keeps (h : Stores e s) (hsave : e.IsSave s) :
    Keeps s.module.info (firmwareStep e s).module := by
  obtain ⟨huart, hat⟩ := hsave
  cases e with
  | uart alloc ops =>
    obtain ⟨hops, hskips⟩ := h hat
    simp only [firmwareStep, Firmware.uartTurn, hat]
    exact uartEvery10s_keeps alloc.calloc hops hskips
  | _ => cases huart

/-- Nothing was saved, or the last save was as many turns ago as the thread is in its ten
seconds. -/
theorem last_save (hreach : FirmwareReachable s) (h : Within firmwareStep Stores window s) :
    ((firmwareRun window s).module.flash = s.module.flash ∧
      (firmwareRun window s).uartPosition = s.uartPosition + uartTurns window s) ∨
    ∃ before after, window = before ++ after ∧
      Keeps (firmwareRun before s).module.info (firmwareRun window s).module ∧
      uartTurns after (firmwareRun before s) = (firmwareRun window s).uartPosition + 1 := by
  induction window generalizing s with
  | nil => exact .inl ⟨rfl, rfl⟩
  | cons e rest ih =>
    have hboot : e ≠ .reboot := by
      rintro rfl
      exact h.1
    have hturns : uartTurns (e :: rest) s =
      e.isUart.toNat + uartTurns rest (firmwareStep e s) := rfl
    obtain ⟨hflash, hcount⟩ | ⟨before, after, rfl, hkeeps, hcount⟩ := ih (hreach.step e) h.2
    · by_cases hsave : e.IsSave s
      · have hnow := firmwareStep_keeps h.1 hsave
        refine .inr ⟨[], e :: rest, rfl, ?_, ?_⟩
        · exact (congrArg takeGlobalInfo hflash).trans hnow
        · have hposition := (hreach.uartTimed.step e hboot).2
          rw [if_pos hsave.1, if_pos hsave.2] at hposition
          rw [hposition, Nat.zero_add] at hcount
          have hfirst : uartTurns (e :: rest) s = 1 + uartTurns rest (firmwareStep e s) := by
            rw [hturns, hsave.1]
            rfl
          refine hfirst.trans ((Nat.add_comm ..).trans ?_)
          exact congrArg (· + 1) hcount.symm
      · have hstep := hreach.uartTimed.step_round hboot hsave
        refine .inl ⟨hflash.trans (firmwareStep_flash hreach hboot hsave), hcount.trans ?_⟩
        rw [hturns, hstep, Nat.add_assoc]
    · exact .inr ⟨e :: before, after, rfl, hkeeps, hcount⟩

/-- From any reachable state, the power goes at any time after 502 turns of the thread: with
a flash that works, and no save skipped whose record is not in the page, what the boot takes
are the settings as they were at one moment of the last 502 turns, whatever the threads did
to them since. -/
theorem settings_recent (s : Firmware) (window : List FirmwareEvent) (hreach : FirmwareReachable s)
    (h : Within firmwareStep Stores window s) (hturns : requestPeriod ≤ uartTurns window s) :
    ∃ before after, window = before ++ after ∧
      uartTurns after (firmwareRun before s) ≤ requestPeriod ∧
      (firmwareRun (window ++ [.reboot]) s).module.info =
        { (firmwareRun before s).module.info.sealed with registerState := no } := by
  have hlate := (FirmwareReachable.uartTimed (hreach.run window)).position_lt
  obtain ⟨-, hposition⟩ | ⟨before, after, hwindow, hkeeps, hcount⟩ := last_save hreach h
  · -- so many turns do not pass without a save
    omega
  · refine ⟨before, after, hwindow, ?_, ?_⟩
    · rw [hcount]
      exact hlate
    · have hoff : firmwareRun (window ++ [.reboot]) s =
          firmwareStep .reboot (firmwareRun window s) := Machine.run_append
      rw [hoff, ← hkeeps]
      rfl

/-- The day set point is written before the ten-second part, and again after it. -/
def setTwice : List FirmwareEvent :=
  aloneTurns 500 ++
    [.input (sealFrame [0xFA, 0x80, 0x7B, 0xD5, 0xC6, 0x6F, 0x00, 0x01])] ++ aloneTurns 1 ++
    [.input (sealFrame [0x01, 0x06, 0x04, 0x07, 0x00, 0xFA])] ++ aloneTurns 1 ++
    [.input (sealFrame [0x01, 0x06, 0x04, 0x07, 0x01, 0x04])] ++ aloneTurns 1

theorem settings_recent_alone :
    (∃ before after, setTwice = before ++ after ∧
      uartTurns after (firmwareRun before firstPower) ≤ requestPeriod ∧
      (firmwareRun (setTwice ++ [.reboot]) firstPower).module.info =
        { (firmwareRun before firstPower).module.info.sealed with registerState := no }) ∧
      (firmwareRun setTwice firstPower).module.info.daySetPoint = 260 ∧
      (firmwareRun (setTwice ++ [.reboot]) firstPower).module.info.daySetPoint = 250 :=
  ⟨settings_recent firstPower setTwice ⟨firstPower, [], ⟨_, _, _, rfl⟩, rfl⟩
    (by decide +kernel) (by decide +kernel), by decide +kernel, by decide +kernel⟩

end Hvac
