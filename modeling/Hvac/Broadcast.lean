import Hvac.FrameScope

/-!
# Broadcasts

A frame to address zero goes to every module on the bus, so none should answer
it or take a setting from it. The rule is kept for the two write commands'
answers only: a read is answered, and any setting can be written.
-/

namespace Hvac

open Buffer (window)

/-- Nothing was queued, nothing but readings, clock and the time of the last
contact has changed, and no access left its buffer. -/
def Harmless (m : Module) (out : Outcome) : Prop :=
  out.InBounds ∧ ∃ sensor timeCorrect rtc lastConnectTime,
    out.module = { m with sensor, timeCorrect, rtc, lastConnectTime }

/-- The broadcasts that are harmless: reads that are too long to be queued but not
too long for their buffer and do not locate, and writes that reach no setting. -/
def BroadcastOk (data : Nat → U8) : Prop :=
  if data 1 = readMuti then
    8 ≤ (regCount data).toNat ∧ (regCount data).toNat ≤ 125 ∧
      ¬Locates (startReg data) (regCount data).toNat
  else if data 1 = writeSingle then ¬(Register.decode (startReg data)).IsSetting
  else if data 1 = writeMuti then
    ∀ i < (regCount data).toNat, ¬(Register.decode (startReg data + BitVec.ofNat 16 i)).IsSetting
  else True

instance (data : Nat → U8) : Decidable (BroadcastOk data) := by
  unfold BroadcastOk
  infer_instance

-- ---------------------------------------------------------------------------
-- Harmless broadcasts
-- ---------------------------------------------------------------------------

theorem dispatches_broadcast (hok : FrameOk data len) (haddr : data 0 = 0)
    (hstate : m.info.registerState ≠ no) : Dispatches data len m := by
  refine ⟨hok, ?_, hstate, .inr haddr⟩
  rw [haddr]
  decide

theorem writeMutiLoop_reportsOnly (hkn : k ≤ n)
    (h : ∀ i < n, k ≤ i → ¬(Register.decode (reg + BitVec.ofNat 16 i)).IsSetting) :
    ReportsOnly (writeMutiLoop reg data m k) (writeMutiLoop reg data m n) := by
  induction n with
  | zero =>
    obtain rfl := Nat.le_zero.mp hkn
    exact .refl _
  | succ n ih =>
    rcases Nat.eq_or_lt_of_le hkn with rfl | hlt
    · exact .refl _
    · have hle := Nat.le_of_lt_succ hlt
      have hbefore := ih hle fun i hi hk => h i (Nat.lt_succ_of_lt hi) hk
      exact hbefore.trans (writeRegister_report (h n (Nat.lt_succ_self n) hle))

theorem queue_of_long (h : msgSize < body.length) : queue calloc body list = list := by
  rw [queue, addToSendMsgList_of_long h]

/-- What a harmless broadcast does short of the contact time. -/
theorem modbusCommandAnalysis_broadcast (haddr : data 0 = 0) (h : BroadcastOk data) :
    ReportsOnly m (modbusCommandAnalysis alloc data m).module := by
  unfold BroadcastOk at h
  rw [modbusCommandAnalysis_module]
  unfold answerOf afterCommand
  by_cases hread : data 1 = readMuti
  · rw [if_pos hread] at h
    rw [if_pos hread, if_pos hread]
    split
    · have hlong : msgSize < ((readAnswer (data 0) (data 1) (startReg data) (regCount data) m).take
          (replyLen (regCount data)).toNat).length := by
        have hlen := toNat_replyLen (regCount data)
        obtain ⟨hlow, hhigh, -⟩ := h
        rw [List.length_take, length_readAnswer, msgSize]
        omega
      simp only [queue_of_long hlong, afterReads, if_neg h.2.2]
      exact .refl m
    · exact .refl m
  rw [if_neg hread] at h
  rw [if_neg hread, if_neg hread]
  by_cases hsingle : data 1 = writeSingle
  · rw [if_pos hsingle] at h
    rw [if_pos hsingle, if_pos hsingle, if_neg (not_not_intro haddr)]
    have hlist := writeRegister_sendMsgList (startReg data) (word (data 4) (data 5)) m
    obtain ⟨sensor, timeCorrect, rtc, hm⟩ :=
      writeRegister_report (m := m) h
    rw [hm]
    exact ⟨_, _, _, rfl⟩
  rw [if_neg hsingle] at h
  rw [if_neg hsingle, if_neg hsingle]
  by_cases hmuti : data 1 = writeMuti
  · rw [if_pos hmuti] at h
    rw [if_pos hmuti, if_pos hmuti, if_neg fun hand => hand.1 haddr]
    obtain ⟨sensor, timeCorrect, rtc, hm⟩ :=
      writeMutiLoop_reportsOnly (m := m) (Nat.zero_le _) fun i hi _ => h i hi
    rw [hm]
    exact ⟨_, _, _, rfl⟩
  · rw [if_neg hmuti, if_neg hmuti]
    exact .refl m

-- ---------------------------------------------------------------------------
-- The others do harm
-- ---------------------------------------------------------------------------

/-- A listener whose every setting ends in the byte. -/
def stale (v : U8) : Module :=
  let m := listener (fun _ => 0) 0
  { m with info := { m.info with
      ctrl := v.setWidth 16, unit := v, mode := v, deadBand := v, tempFrom := v
      daySetPoint := v.setWidth 16, nightSetPoint := v.setWidth 16
      dayStartTime := v.setWidth 16, dayEndTime := v.setWidth 16 } }

theorem lowByte_stale (h : r.IsSetting) : lowByte r (stale v) = v := by
  have hwide : ((v.setWidth 16).setWidth 8 : U8) = v := by
    ext i hi
    simp
  cases r <;> first | exact h.elim | exact hwide | rfl

theorem lowByte_info (h : r.IsSetting) (hinfo : m'.info = m.info) : lowByte r m' = lowByte r m := by
  cases r <;> first | exact h.elim | simp only [lowByte, hinfo]

/-- A module whose settings end in another byte than the last that is written to a
setting does not keep its settings. -/
theorem writeRegister_harm (h : (Register.decode reg).IsSetting) (hv : v ≠ d.setWidth 8) :
    (writeRegister reg d m).info ≠ (stale v).info := by
  intro hsame
  have hnotTime : Register.decode reg = .nowTime1 → m.ClockClear := by
    intro htime
    rw [htime] at h
    exact h.elim
  have hafter : lowByte (Register.decode reg) (writeRegister reg d m) = d.setWidth 8 :=
    lowByte_writeRegister (.inl h) hnotTime
  rw [lowByte_info h hsame, lowByte_stale h] at hafter
  exact hv hafter

theorem ReportsOnly.info (h : ReportsOnly m m') : m'.info = m.info := by
  obtain ⟨_, _, _, rfl⟩ := h
  rfl

section

variable {data : Nat → U8} {len : U8}

/-- What a command does to a registered module if every broadcast is harmless. -/
theorem harmless_command (hok : FrameOk data len) (haddr : data 0 = 0)
    (h : ∀ alloc m, m.info.registerState ≠ no → Harmless m (uart1Analysis alloc data len m))
    (v : U8) :
    (modbusCommandAnalysis ⟨true, true⟩ data (stale v)).InBounds ∧
      (modbusCommandAnalysis ⟨true, true⟩ data (stale v)).module.info = (stale v).info ∧
      (modbusCommandAnalysis ⟨true, true⟩ data (stale v)).module.sendMsgList = [] ∧
      (modbusCommandAnalysis ⟨true, true⟩ data (stale v)).module.locationFlag = false := by
  have hstate : (stale v).info.registerState ≠ no := fun he => by cases he
  have hharmless := h ⟨true, true⟩ (stale v) hstate
  rw [uart1Analysis_dispatch (dispatches_broadcast hok haddr hstate)] at hharmless
  obtain ⟨hin, sensor, timeCorrect, rtc, last, hm⟩ := hharmless
  exact ⟨hin, congrArg (·.info) hm, congrArg (·.sendMsgList) hm, congrArg (·.locationFlag) hm⟩

theorem harmless_read (hread : data 1 = readMuti)
    (hin : (modbusCommandAnalysis ⟨true, true⟩ data (stale v)).InBounds)
    (hlist : (modbusCommandAnalysis ⟨true, true⟩ data (stale v)).module.sendMsgList = [])
    (hflag : (modbusCommandAnalysis ⟨true, true⟩ data (stale v)).module.locationFlag = false) :
    8 ≤ (regCount data).toNat ∧ (regCount data).toNat ≤ 125 ∧
      ¬Locates (startReg data) (regCount data).toNat := by
  have hlen := toNat_replyLen (regCount data)
  refine ⟨?_, (modbusCommandAnalysis_inBounds ⟨true, true⟩ data (stale v)).mp hin hread rfl, ?_⟩
  · -- an answer that fits would be queued
    by_contra hshort
    have hanswer : answerOf ⟨true, true⟩ data (stale v) =
        some ((readAnswer (data 0) (data 1) (startReg data) (regCount data) (stale v)).take
          (replyLen (regCount data)).toNat) := by
      rw [answerOf, if_pos hread, if_pos rfl]
    rw [modbusCommandAnalysis_queued hanswer _ rfl] at hlist
    · cases hlist
    · rw [List.length_take, msgSize]
      omega
  · intro hlocates
    rw [modbusCommandAnalysis_module, afterCommand, if_pos hread, if_pos rfl, afterReads,
      if_pos hlocates] at hflag
    cases hflag

theorem harmless_single (hread : data 1 ≠ readMuti) (hsingle : data 1 = writeSingle)
    (hinfo : (modbusCommandAnalysis ⟨true, true⟩ data (stale (data 5 + 1))).module.info =
      (stale (data 5 + 1)).info) :
    ¬(Register.decode (startReg data)).IsSetting := by
  intro hsetting
  rw [modbusCommandAnalysis_module, afterCommand, if_neg hread, if_pos hsingle] at hinfo
  exact writeRegister_harm hsetting (by simp) hinfo

theorem harmless_muti (hread : data 1 ≠ readMuti) (hsingle : data 1 ≠ writeSingle)
    (hmuti : data 1 = writeMuti)
    (hinfo : ∀ v, (modbusCommandAnalysis ⟨true, true⟩ data (stale v)).module.info =
      (stale v).info) :
    ∀ i < (regCount data).toNat,
      ¬(Register.decode (startReg data + BitVec.ofNat 16 i)).IsSetting := by
  intro i hi hsetting
  obtain ⟨j, -, hjn, hj, hlast⟩ :=
    exists_last (P := fun i => (Register.decode (startReg data + BitVec.ofNat 16 i)).IsSetting)
      hi hsetting
  have hv : data (8 + j * 2) + 1 ≠ data (8 + j * 2) := by simp
  generalize data (8 + j * 2) + 1 = v at hv
  have hkept := hinfo v
  rw [modbusCommandAnalysis_module, afterCommand, if_neg hread, if_neg hsingle, if_pos hmuti]
    at hkept
  -- past the last setting only readings change
  have hlater : ReportsOnly (writeMutiLoop (startReg data) data (stale v) (j + 1))
      (writeMutiLoop (startReg data) data (stale v) (regCount data).toNat) :=
    writeMutiLoop_reportsOnly hjn hlast
  refine writeRegister_harm hj ?_ (hlater.info.symm.trans hkept)
  rwa [setWidth_word]

theorem broadcastOk_of_harmless (hok : FrameOk data len) (haddr : data 0 = 0)
    (h : ∀ alloc m, m.info.registerState ≠ no → Harmless m (uart1Analysis alloc data len m)) :
    BroadcastOk data := by
  have hcommand := harmless_command hok haddr h
  unfold BroadcastOk
  split
  · rename_i hread
    obtain ⟨hin, -, hlist, hflag⟩ := hcommand 0
    exact harmless_read hread hin hlist hflag
  split
  · rename_i hread hsingle
    exact harmless_single hread hsingle (hcommand _).2.1
  split
  · rename_i hread hsingle hmuti
    exact harmless_muti hread hsingle hmuti fun v => (hcommand v).2.1
  · trivial

end

theorem modbusCommandAnalysis_inBounds_broadcast (h : BroadcastOk data) :
    (modbusCommandAnalysis alloc data m).InBounds := by
  refine (modbusCommandAnalysis_inBounds alloc data m).mpr fun hread _ => ?_
  rw [BroadcastOk, if_pos hread] at h
  exact h.2.1

/-- A correct broadcast is silent and harmless, in every state of a registered
module, exactly when it is one of the harmless ones. -/
theorem broadcast_harmless (hok : FrameOk data len) (haddr : data 0 = 0) :
    (∀ alloc m, m.info.registerState ≠ no → Harmless m (uart1Analysis alloc data len m)) ↔
      BroadcastOk data := by
  refine ⟨broadcastOk_of_harmless hok haddr, fun h alloc m hstate => ?_⟩
  rw [uart1Analysis_dispatch (dispatches_broadcast hok haddr hstate)]
  refine ⟨modbusCommandAnalysis_inBounds_broadcast h, ?_⟩
  have hreports : ReportsOnly m (modbusCommandAnalysis alloc data m).module :=
    modbusCommandAnalysis_broadcast haddr h
  obtain ⟨sensor, timeCorrect, rtc, hm⟩ := hreports
  refine ⟨sensor, timeCorrect, rtc, m.timeRun, ?_⟩
  simp only [hm, setLastConnectTime]

theorem broadcast_harmless_temperature :
    Harmless (run registered blank)
      (uart1Analysis ⟨true, true⟩
        (Buffer.store (sealFrame [0x00, 0x06, 0xF0, 0x02, 0x01, 0x90]) fun _ => 0) 8
        (run registered blank)) :=
  (broadcast_harmless (by decide +kernel) rfl).mpr (by decide +kernel) _ _ (by decide +kernel)

def readEverybody : Nat → U8 :=
  Buffer.store (sealFrame [0x00, 0x03, 0x04, 0x07, 0x00, 0x01]) fun _ => 0

theorem broadcast_harmless_fails :
    ¬∀ (alloc : Alloc) (data : Nat → U8) (len : U8) (m : Module), m.info.registerState ≠ no →
      FrameOk data len → data 0 = 0 → Harmless m (uart1Analysis alloc data len m) := by
  intro h
  obtain ⟨-, sensor, timeCorrect, rtc, last, hm⟩ := h ⟨true, true⟩ readEverybody 8
    (run registered blank) (by decide +kernel) (by decide +kernel) rfl
  have hsilent : (uart1Analysis ⟨true, true⟩ readEverybody 8
      (run registered blank)).module.sendMsgList = (run registered blank).sendMsgList := by rw [hm]
  exact absurd hsilent (by decide +kernel)

end Hvac
