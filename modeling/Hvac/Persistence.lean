import Hvac.Traffic
import Hvac.Lib.Buffer

/-!
# What the flash keeps

A page is taken for a record when its CRC is right. From that: what a save, and
a save that power cuts short, leave for the next boot.
-/

namespace Hvac

open Buffer (window)
open Machine (Within)

-- ---------------------------------------------------------------------------
-- Records and bytes
-- ---------------------------------------------------------------------------

theorem join_le16 (v : U16) :
    ((v >>> 8).setWidth 8 : U8).setWidth 16 <<< 8 ||| (v.setWidth 8 : U8).setWidth 16 = v :=
  (Checksum.join_eq_iff _ _ _).mpr rfl

theorem le16_join (low high : U8) :
    le16 (high.setWidth 16 <<< 8 ||| low.setWidth 16) = [low, high] :=
  ((Checksum.join_eq_iff low high _).mp rfl).symm

theorem ofBytes_toBytes (info : TypeInfo) : TypeInfo.ofBytes info.toBytes = info := by
  simp [TypeInfo.ofBytes, TypeInfo.toBytes, TypeInfo.covered, le16, join_le16]

theorem toBytes_inj {info info' : TypeInfo} (h : info.toBytes = info'.toBytes) : info = info' := by
  rw [← ofBytes_toBytes info, h, ofBytes_toBytes]

theorem length_covered (info : TypeInfo) : info.covered.length = 23 := rfl

theorem length_toBytes (info : TypeInfo) : info.toBytes.length = 25 := rfl

theorem toBytes_ofBytes (bytes : List U8) :
    (TypeInfo.ofBytes bytes).toBytes = window (fun i => bytes.getD i 0) 25 := by
  simp only [TypeInfo.toBytes, TypeInfo.covered, TypeInfo.ofBytes, le16_join]
  rfl

theorem toBytes_ofBytes_of_length (h : bytes.length = 25) : (TypeInfo.ofBytes bytes).toBytes = bytes := by
  rw [toBytes_ofBytes, ← h]
  refine List.ext_getElem (by simp) fun i hi hi' => ?_
  simp [Buffer.getElem_window, List.getD_eq_getElem?_getD, hi']

theorem ofBytes_inj (h : bytes.length = 25) (h' : bytes'.length = 25)
    (heq : TypeInfo.ofBytes bytes = TypeInfo.ofBytes bytes') : bytes = bytes' := by
  rw [← toBytes_ofBytes_of_length h, heq, toBytes_ofBytes_of_length h']

theorem covered_ofBytes (h : bytes.length = 25) :
    (TypeInfo.ofBytes bytes).covered = bytes.take 23 := by
  have htake := congrArg (List.take 23) (toBytes_ofBytes_of_length h)
  rw [← htake, TypeInfo.toBytes, List.take_left' (length_covered _)]

theorem le16_crc_ofBytes (h : bytes.length = 25) :
    le16 (TypeInfo.ofBytes bytes).crc = bytes.drop 23 := by
  have hdrop := congrArg (List.drop 23) (toBytes_ofBytes_of_length h)
  rw [← hdrop, TypeInfo.toBytes, List.drop_left' (length_covered _)]

/-- The record a save writes. -/
def TypeInfo.sealed (info : TypeInfo) : TypeInfo :=
  { info with crc := usModbusRtuCrc info.covered }

theorem covered_inj {info info' : TypeInfo} (h : info.covered = info'.covered)
    (hcrc : info.crc = info'.crc) : info = info' := by
  apply toBytes_inj
  rw [TypeInfo.toBytes, TypeInfo.toBytes, h, hcrc]

-- ---------------------------------------------------------------------------
-- What a boot takes
-- ---------------------------------------------------------------------------

/-- The check of `TakeGlobalInfo`. -/
def PageValid (flash : List U8) : Prop :=
  usModbusRtuCrc (TypeInfo.ofBytes flash).covered = (TypeInfo.ofBytes flash).crc

instance (flash : List U8) : Decidable (PageValid flash) := inferInstanceAs (Decidable (_ = _))

theorem takeGlobalInfo_valid (h : PageValid flash) : takeGlobalInfo flash = .ofBytes flash :=
  if_neg (not_not_intro h)

theorem takeGlobalInfo_invalid (h : ¬PageValid flash) :
    takeGlobalInfo flash = initGlobalInformation := if_pos h

theorem pageValid_toBytes (info : TypeInfo) : PageValid info.sealed.toBytes := by
  rw [PageValid, ofBytes_toBytes]
  rfl

theorem takeGlobalInfo_toBytes (info : TypeInfo) :
    takeGlobalInfo info.sealed.toBytes = info.sealed := by
  rw [takeGlobalInfo_valid (pageValid_toBytes info), ofBytes_toBytes]

-- ---------------------------------------------------------------------------
-- Saves and power cycles
-- ---------------------------------------------------------------------------

def FlashOps.succeed : FlashOps := ⟨true, fun _ => true⟩

/-- The settings change in any way, are saved with a flash that works, or are
taken again at a boot. -/
inductive StorageEvent
  | change (info : TypeInfo)
  | save
  | reboot

def storageStep : StorageEvent → Module → Module
  | .change info, m => { m with info }
  | .save, m => saveGlobalInfo .succeed m
  | .reboot, m => reboot m

def savedFields : StorageEvent → Module → Option (List U8)
  | .save, m => some m.info.covered
  | _, _ => none

/-- The record the last save was given, if there was one since the boot. -/
def givenSinceBoot : StorageEvent → Module → Option (Option (List U8))
  | .save, m => some (some m.info.covered)
  | .reboot, _ => some none
  | .change _, _ => none

/-- The CRC a record is compared with: of the one given before it, zero at first. -/
def givenCrc : Option (List U8) → U16
  | some record => usModbusRtuCrc record
  | none => 0

/-- No save is given a record that has the CRC of the one given before it since the
boot, zero if there was none, and is not the record of the last save. -/
def TellsApart (events : List StorageEvent) (start : Module) : Prop :=
  ∀ before after, events = before ++ .save :: after →
    givenCrc (Machine.latest storageStep givenSinceBoot before start none) =
        usModbusRtuCrc (Machine.run storageStep before start).info.covered →
      (Machine.run storageStep before start).info.covered =
        Machine.latest storageStep savedFields before start (takeGlobalInfo start.flash).covered

theorem flashWrite_succeed (record flash : List U8) :
    flashWrite .succeed record flash = record := by
  simp only [flashWrite, FlashOps.succeed, if_true]
  exact List.mapIdx_eq_iff.mpr fun i => by simp

theorem saveGlobalInfo_flash (m : Module) :
    (saveGlobalInfo .succeed m).flash =
      if m.lastCrc = usModbusRtuCrc m.info.covered then m.flash else m.info.sealed.toBytes := by
  by_cases h : m.lastCrc = usModbusRtuCrc m.info.covered
  · rw [saveGlobalInfo, if_neg (not_not_intro h), if_pos h]
  · rw [saveGlobalInfo, if_pos h, if_neg h]
    dsimp only
    rw [flashWrite_succeed]
    rfl

theorem saveGlobalInfo_lastCrc (m : Module) :
    (saveGlobalInfo .succeed m).lastCrc = usModbusRtuCrc m.info.covered := by
  by_cases h : m.lastCrc = usModbusRtuCrc m.info.covered
  · rwa [saveGlobalInfo, if_neg (not_not_intro h)]
  · rw [saveGlobalInfo, if_pos h]

/-- What is remembered is the CRC of the record given last since the boot. -/
theorem storageStep_lastCrc (e : StorageEvent) (m : Module) (given : Option (List U8))
    (h : m.lastCrc = givenCrc given) :
    (storageStep e m).lastCrc = givenCrc ((givenSinceBoot e m).getD given) := by
  cases e with
  | change info => exact h
  | reboot => rfl
  | save => exact saveGlobalInfo_lastCrc m

/-- A save stores its record unless the CRC is the remembered one and the record another
than the one in the page. -/
theorem saved_iff (h : (takeGlobalInfo m.flash).covered = saved) :
    (takeGlobalInfo (saveGlobalInfo .succeed m).flash).covered = m.info.covered ↔
      (m.lastCrc = usModbusRtuCrc m.info.covered → m.info.covered = saved) := by
  rw [saveGlobalInfo_flash]
  by_cases hcrc : m.lastCrc = usModbusRtuCrc m.info.covered
  · rw [if_pos hcrc, h]
    exact ⟨fun hsame _ => hsame.symm, fun hrecord => (hrecord hcrc).symm⟩
  · rw [if_neg hcrc, takeGlobalInfo_toBytes]
    exact iff_of_true rfl fun heq => absurd heq hcrc

/-- From any power-up, whatever happens to the settings: at every point a boot
takes the settings of the last save, exactly when no save is given another record
than the last one under the CRC that is remembered. -/
theorem settings_survive (flash : List U8) (rtc : Rtc) (uniqueId : Fin 12 → U8)
    (events : List StorageEvent) :
    (∀ before after, events = before ++ after →
      (takeGlobalInfo (Machine.run storageStep before (powerUp flash rtc uniqueId)).flash).covered =
        Machine.latest storageStep savedFields before (powerUp flash rtc uniqueId)
          (takeGlobalInfo flash).covered) ↔
      TellsApart events (powerUp flash rtc uniqueId) := by
  have hcrc (before : List StorageEvent) :
      (Machine.run storageStep before (powerUp flash rtc uniqueId)).lastCrc =
        givenCrc (Machine.latest storageStep givenSinceBoot before (powerUp flash rtc uniqueId)
          none) :=
    Machine.run_latest storageStep_lastCrc rfl
  constructor
  · rintro h before after rfl
    have hbefore := h before (.save :: after) rfl
    have hafter := h (before ++ [.save]) after (by rw [List.append_assoc]; rfl)
    rw [Machine.run_append, Machine.latest_append] at hafter
    rw [← hcrc before]
    exact (saved_iff hbefore).mp hafter
  · intro h before
    induction before using List.reverseRecOn with
    | nil => exact fun _ _ => rfl
    | append_singleton before e ih =>
      rintro after rfl
      have hbefore := ih (e :: after) (by rw [List.append_assoc]; rfl)
      rw [Machine.run_append, Machine.latest_append]
      cases e with
      | change info => exact hbefore
      | reboot => exact hbefore
      | save =>
        refine (saved_iff hbefore).mpr ?_
        rw [hcrc before]
        exact h before after (by rw [List.append_assoc]; rfl)

/-- The schedule of a new module, 8:00 to 18:00, is set to 4:00 to 23:00 after a
save: the record's CRC is the same, so the new schedule is not written. -/
theorem settings_survive_fails :
    ¬∀ events before after, events = before ++ after →
      (takeGlobalInfo (Machine.run storageStep before blank).flash).covered =
        Machine.latest storageStep savedFields before blank (takeGlobalInfo []).covered := by
  intro h
  have hsaved := h [.save, .change
    { initGlobalInformation with dayStartTime := 0x0400, dayEndTime := 0x1700 }, .save] _ []
    (List.append_nil _).symm
  exact absurd hsaved (by decide +kernel)

-- ---------------------------------------------------------------------------
-- The module's own steps
-- ---------------------------------------------------------------------------

/-- The page and the remembered CRC are the same. -/
structure SamePage (m m' : Module) : Prop where
  flash : m'.flash = m.flash
  lastCrc : m'.lastCrc = m.lastCrc

theorem SamePage.trans (h : SamePage m₁ m₂) (h' : SamePage m₂ m₃) : SamePage m₁ m₃ :=
  ⟨h'.1.trans h.1, h'.2.trans h.2⟩

theorem writeRegister_samePage (reg v : U16) (m : Module) :
    SamePage m (writeRegister reg v m) := by
  by_cases h : (Register.decode reg).IsSetting
  · obtain ⟨info, action, hm, -⟩ := writeRegister_setting (m := m) h
    rw [hm]
    exact ⟨rfl, rfl⟩
  · obtain ⟨sensor, timeCorrect, rtc, hm⟩ := writeRegister_report (m := m) h
    rw [hm]
    exact ⟨rfl, rfl⟩

theorem uartPoll_samePage (alloc : Alloc) (m : Module) : SamePage m (uartPoll alloc m) := by
  refine uartPoll_preserves (P := SamePage m) alloc ?_ ?_ ?_ ?_ ?_ ?_ ⟨rfl, rfl⟩
  · exact fun _ h => h.trans ⟨rfl, rfl⟩
  · exact fun _ _ h => h.trans ⟨rfl, rfl⟩
  · exact fun reg v m' h => h.trans (writeRegister_samePage reg v m')
  · exact fun _ h => h.trans ⟨rfl, rfl⟩
  · exact fun _ _ h => h.trans ⟨rfl, rfl⟩
  · exact fun _ h => h.trans ⟨rfl, rfl⟩

theorem step_samePage (h : e ≠ .reboot) (hsave : ∀ calloc ops, e ≠ .every10s calloc ops) :
    SamePage m (step e m) := by
  by_cases hpoll : ∃ alloc, e = .poll alloc
  · obtain ⟨alloc, rfl⟩ := hpoll
    exact uartPoll_samePage alloc m
  · have hkept := step_unpolled (m := m) (fun alloc he => hpoll ⟨alloc, he⟩) h
    exact ⟨hkept.flash hsave, hkept.lastCrc hsave⟩

/-- With a flash that works, what a step does to settings and page is one of the
three things. -/
theorem step_storageStep (hops : ∀ calloc ops, e = .every10s calloc ops → ops = .succeed) :
    ∃ op, SamePage (storageStep op m) (step e m) ∧ (step e m).info = (storageStep op m).info := by
  have hchange (e : Event) (h : e ≠ .reboot) (hsave : ∀ calloc ops, e ≠ .every10s calloc ops) :
      ∃ op, SamePage (storageStep op m) (step e m) ∧
        (step e m).info = (storageStep op m).info := by
    obtain ⟨hflash, hcrc⟩ := step_samePage (m := m) h hsave
    exact ⟨.change (step e m).info, ⟨hflash, hcrc⟩, rfl⟩
  cases e with
  | reboot => exact ⟨.reboot, ⟨rfl, rfl⟩, rfl⟩
  | every10s calloc ops =>
    obtain rfl := hops calloc ops rfl
    refine ⟨.save, ?_⟩
    simp only [step, uartEvery10s, storageStep, saveGlobalInfo]
    split <;> split <;> exact ⟨⟨rfl, rfl⟩, rfl⟩
  | _ => exact hchange _ (by simp) (by simp)

-- ---------------------------------------------------------------------------
-- A save cut short
-- ---------------------------------------------------------------------------

/-- Power goes after `n` operations of a `flash_write`: the erase, then the
double words from the first on. -/
def FlashOps.cut (n : Nat) : FlashOps := ⟨decide (0 < n), fun i => decide (i + 1 < n)⟩

/-- The page with the first `k` double words of the record. -/
def tornPage (k : Nat) (record : List U8) : List U8 :=
  record.take (8 * k) ++ List.replicate (25 - 8 * k) 0xFF

/-- The first or the first two double words were written, the fields have the
CRC that an erased CRC field reads as, and the page is neither record. -/
def TornValid (n : Nat) (record old : List U8) : Prop :=
  (n = 2 ∨ n = 3) ∧ usModbusRtuCrc ((tornPage (n - 1) record).take 23) = 0xFFFF ∧
    tornPage (n - 1) record ≠ old ∧ tornPage (n - 1) record ≠ record

theorem length_tornPage (k : Nat) (h : record.length = 25) : (tornPage k record).length = 25 := by
  simp [tornPage, h]
  omega

theorem flashWrite_cut (k : Nat) (h : record.length = 25) (flash : List U8) :
    flashWrite (.cut (k + 1)) record flash = tornPage k record := by
  refine List.ext_getElem (by simp [flashWrite, FlashOps.cut, length_tornPage k h, h]) ?_
  intro i hi hi'
  rw [length_tornPage k h] at hi'
  simp only [flashWrite, FlashOps.cut, Nat.zero_lt_succ, decide_true, if_true, decide_eq_true_eq,
    Nat.add_lt_add_iff_right, List.getElem_mapIdx, tornPage, List.getElem_append,
    List.getElem_take, List.getElem_replicate, List.length_take]
  have hiff : i / 8 < k ↔ i < min (8 * k) record.length := by omega
  simp only [hiff]
  split <;> rfl

theorem takeGlobalInfo_cases (flash : List U8) :
    takeGlobalInfo flash = .ofBytes flash ∨ takeGlobalInfo flash = initGlobalInformation := by
  by_cases h : PageValid flash
  · exact .inl (takeGlobalInfo_valid h)
  · exact .inr (takeGlobalInfo_invalid h)

theorem crc_ofBytes_erased (h : bytes.length = 25) (hdrop : bytes.drop 23 = [0xFF, 0xFF]) :
    (TypeInfo.ofBytes bytes).crc = 0xFFFF := by
  have hle := (le16_crc_ofBytes h).trans hdrop
  simp only [le16, List.cons.injEq, and_true] at hle
  rw [← join_le16 (TypeInfo.ofBytes bytes).crc, hle.1, hle.2]
  rfl

/-- All but the last byte, the CRC's high byte, was written. -/
theorem takeGlobalInfo_lastTorn (info : TypeInfo) :
    takeGlobalInfo (tornPage 3 info.sealed.toBytes) = info.sealed ∨
      takeGlobalInfo (tornPage 3 info.sealed.toBytes) = initGlobalInformation := by
  have hlen := length_tornPage 3 (length_toBytes info.sealed)
  by_cases hvalid : PageValid (tornPage 3 info.sealed.toBytes)
  · left
    have hcovered : (TypeInfo.ofBytes (tornPage 3 info.sealed.toBytes)).covered = info.covered :=
      covered_ofBytes hlen
    rw [takeGlobalInfo_valid hvalid]
    refine covered_inj hcovered ?_
    rw [← hvalid, hcovered]
    rfl
  · exact .inr (takeGlobalInfo_invalid hvalid)

theorem takeGlobalInfo_erasedCrc (info : TypeInfo) (hpage : page.length = 25)
    (hold : old.length = 25) (hdrop : page.drop 23 = [0xFF, 0xFF]) :
    (takeGlobalInfo page = .ofBytes old ∨ takeGlobalInfo page = info ∨
      takeGlobalInfo page = initGlobalInformation) ↔
      ¬(usModbusRtuCrc (page.take 23) = 0xFFFF ∧ page ≠ old ∧ page ≠ info.toBytes) := by
  have hcrc := crc_ofBytes_erased hpage hdrop
  have hvalid : PageValid page ↔ usModbusRtuCrc (page.take 23) = 0xFFFF := by
    rw [PageValid, hcrc, covered_ofBytes hpage]
  rw [← hvalid]
  by_cases h : PageValid page
  · have hsame : TypeInfo.ofBytes page = .ofBytes old ↔ page = old :=
      ⟨ofBytes_inj hpage hold, congrArg _⟩
    have hnew : TypeInfo.ofBytes page = info ↔ page = info.toBytes := by
      constructor
      · rintro rfl
        exact (toBytes_ofBytes_of_length hpage).symm
      · rintro rfl
        exact ofBytes_toBytes info
    have hinit : TypeInfo.ofBytes page ≠ initGlobalInformation := by
      intro heq
      rw [heq] at hcrc
      exact absurd hcrc (by decide)
    rw [takeGlobalInfo_valid h, hsame, hnew]
    constructor
    · rintro (ho | hn | hi) ⟨-, hne, hne'⟩
      · exact hne ho
      · exact hne' hn
      · exact hinit hi
    · intro hnot
      by_cases ho : page = old
      · exact .inl ho
      · by_cases hn : page = info.toBytes
        · exact .inr (.inl hn)
        · exact absurd ⟨h, ho, hn⟩ hnot
  · exact iff_of_true (.inr (.inr (takeGlobalInfo_invalid h))) fun hc => h hc.1

/-- Cut after any operation, from any page: the next boot takes the old record,
the new one or the defaults, unless the fields of a page torn after the first or
the second double word happen to have the CRC `0xFFFF`. -/
theorem torn_save (info : TypeInfo) (n : Nat) (hold : old.length = 25) :
    (takeGlobalInfo (flashWrite (.cut n) info.sealed.toBytes old) = .ofBytes old ∨
      takeGlobalInfo (flashWrite (.cut n) info.sealed.toBytes old) = info.sealed ∨
      takeGlobalInfo (flashWrite (.cut n) info.sealed.toBytes old) = initGlobalInformation) ↔
      ¬TornValid n info.sealed.toBytes old := by
  have hrecord := length_toBytes info.sealed
  match n with
  | 0 =>
    refine iff_of_true ?_ (by simp [TornValid])
    rcases takeGlobalInfo_cases old with h | h
    · exact .inl h
    · exact .inr (.inr h)
  | k + 1 =>
    rw [flashWrite_cut k hrecord]
    by_cases hk : k = 1 ∨ k = 2
    · have hdrop : (tornPage k info.sealed.toBytes).drop 23 = [0xFF, 0xFF] := by
        rcases hk with rfl | rfl <;> rfl
      rw [takeGlobalInfo_erasedCrc info.sealed (length_tornPage k hrecord) hold hdrop]
      have hn : k + 1 = 2 ∨ k + 1 = 3 := by omega
      simp only [TornValid, hn, true_and, Nat.add_sub_cancel]
    · refine iff_of_true ?_ fun hc => hk (by have := hc.1; omega)
      obtain rfl | rfl | hall : k = 0 ∨ k = 3 ∨ 4 ≤ k := by omega
      · -- an erased page is not valid
        have hpage : tornPage 0 info.sealed.toBytes = List.replicate 25 0xFF := rfl
        rw [hpage]
        exact .inr (.inr (takeGlobalInfo_invalid (by decide +kernel)))
      · exact .inr (takeGlobalInfo_lastTorn info)
      · have hpage : tornPage k info.sealed.toBytes = info.sealed.toBytes := by
          rw [tornPage, List.take_of_length_le (by omega), Nat.sub_eq_zero_of_le (by omega)]
          exact List.append_nil _
        rw [hpage]
        exact .inr (.inl (takeGlobalInfo_toBytes info))

theorem torn_save_dayStart :
    let old := initGlobalInformation.sealed
    let new := TypeInfo.sealed { initGlobalInformation with dayStartTime := 0x0C1E }
    let torn := takeGlobalInfo (flashWrite (.cut 3) new.toBytes old.toBytes)
    torn = .ofBytes old.toBytes ∨ torn = new ∨ torn = initGlobalInformation :=
  (torn_save { initGlobalInformation with dayStartTime := 0x0C1E } 3 rfl).mpr
    (by unfold TornValid; decide +kernel)

/-- Set points of 37.0 and 16.0 degrees and a day from 12:30 on are saved over
the defaults, and power goes after the second double word. -/
theorem torn_save_fails :
    ¬∀ (info : TypeInfo) (n : Nat) (old : List U8), old.length = 25 →
      takeGlobalInfo (flashWrite (.cut n) info.sealed.toBytes old) = .ofBytes old ∨
      takeGlobalInfo (flashWrite (.cut n) info.sealed.toBytes old) = info.sealed ∨
      takeGlobalInfo (flashWrite (.cut n) info.sealed.toBytes old) = initGlobalInformation := by
  intro h
  have htorn := h { initGlobalInformation with
    registerState := yes, daySetPoint := 370, nightSetPoint := 160, dayStartTime := 0x0C1E } 3
    initGlobalInformation.sealed.toBytes rfl
  revert htorn
  decide +kernel

end Hvac
