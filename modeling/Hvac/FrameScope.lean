import Hvac.Invariants
import Mathlib.Data.Nat.Find

/-!
# What a frame is read from

The analysis is given a length, the command decoder is not. Two buffers that
agree on the length lead to the same state when every field the decoder reads
lies in it (`SelfContained`); when one does not, some state shows the difference.
-/

namespace Hvac

open Buffer (window Agree)

def Module.registers (m : Module) : TypeInfo × TypeSensor × TypeAction × Rtc × BitVec 64 :=
  (m.info, m.sensor, m.action, m.rtc, m.timeCorrect)

/-- What the bytes of a frame may change: the registers and the queued replies. -/
def Module.observed (m : Module) :
    (TypeInfo × TypeSensor × TypeAction × Rtc × BitVec 64) × List Msg :=
  (m.registers, m.sendMsgList)

/-- On a module with this identifier a frame is interpreted from its own bytes:
what follows it in the buffer has no influence, in any state. -/
def ReadsOwnBytes (uniqueId : Fin 12 → U8) (data : Nat → U8) (len : U8) : Prop :=
  ∀ (m : Module) (alloc : Alloc) (data' : Nat → U8), m.uniqueId = uniqueId →
    Agree len.toNat data data' →
    (uart1Analysis alloc data' len m).module.observed =
      (uart1Analysis alloc data len m).module.observed

-- ---------------------------------------------------------------------------
-- The condition
-- ---------------------------------------------------------------------------

def Register.IsWritable (r : Register) : Prop := r.IsSetting ∨ r.IsReport

instance (r : Register) : Decidable r.IsWritable := inferInstanceAs (Decidable (_ ∨ _))

def idByte (id : U32) (i : Nat) : U8 := (id >>> (24 - 8 * i)).setWidth 8

/-- The words of a multiple write that could count: those declared, or any
number when the declaration is not in the frame. -/
def declared (data : Nat → U8) (len : U8) : Nat :=
  if 6 ≤ len.toNat then (regCount data).toNat else 255

/-- Every field that is used lies in the frame. -/
def SelfContained (uniqueId : Fin 12 → U8) (data : Nat → U8) (len : U8) : Prop :=
  if data 0 = registerCode then
    data 1 = registerAnser → 8 ≤ len.toNat ∨
      ∃ i < 4, 2 + i < len.toNat ∧ data (2 + i) ≠ idByte (readUniqueId uniqueId) i
  else if data 1 = readMuti then 6 ≤ len.toNat
  else if data 1 = writeSingle then
    if data 0 = 0 then (Register.decode (startReg data)).IsWritable → 6 ≤ len.toNat
    else 8 ≤ len.toNat
  else if data 1 = writeMuti then
    (data 0 ≠ 0 → 6 ≤ len.toNat) ∧
      ∀ i < declared data len,
        (Register.decode (startReg data + BitVec.ofNat 16 i)).IsWritable → 8 + i * 2 < len.toNat
  else True

instance (uniqueId : Fin 12 → U8) (data : Nat → U8) (len : U8) :
    Decidable (SelfContained uniqueId data len) := by
  unfold SelfContained
  infer_instance

-- ---------------------------------------------------------------------------
-- Fields in the frame
-- ---------------------------------------------------------------------------

theorem CrcOk.congr (h : Agree len data data') (hlen : 2 ≤ len) (hok : CrcOk data len) :
    CrcOk data' len := by
  unfold CrcOk at hok ⊢
  rw [← h (len - 1) (by omega), ← h (len - 2) (by omega), ← h.window (Nat.sub_le len 2)]
  exact hok

theorem FrameOk.congr (h : Agree len.toNat data data') (hok : FrameOk data len) :
    FrameOk data' len := ⟨hok.1, hok.2.congr h (Nat.le_of_lt hok.1)⟩

/-- A broadcast of three bytes is no command: its second byte is a CRC byte. -/
theorem broadcast_length (hok : FrameOk data len) (haddr : data 0 = 0)
    (hcmd : data 1 ≠ 0xBF) : 4 ≤ len.toNat := by
  by_contra hlt
  have hlen : len.toNat = 3 := by
    have := hok.1
    omega
  have hcrc := hok.2
  rw [hlen, CrcOk] at hcrc
  have hwindow : window data 1 = [0] := by rw [Buffer.window_succ, haddr]; rfl
  simp only [Nat.add_one_sub_one, Nat.reduceSub, hwindow] at hcrc
  apply hcmd
  rw [← setWidth_word (data 2) (data 1), hcrc]
  decide

theorem readId_eq_iff (data : Nat → U8) (id : U32) :
    readId data = id ↔ ∀ i < 4, data (2 + i) = idByte id i := by
  constructor
  · rintro rfl i hi
    have hcases : i = 0 ∨ i = 1 ∨ i = 2 ∨ i = 3 := by omega
    rcases hcases with rfl | rfl | rfl | rfl <;>
    · simp only [idByte, readId]
      ext j hj
      simp (disch := omega) [decide_eq_true, decide_eq_false, BitVec.getLsbD_eq_getElem]
  · intro h
    have h₀ := h 0 (by decide)
    have h₁ := h 1 (by decide)
    have h₂ := h 2 (by decide)
    have h₃ := h 3 (by decide)
    simp only [Nat.reduceAdd, Nat.reduceMul, Nat.reduceSub, idByte] at h₀ h₁ h₂ h₃
    simp only [readId, h₀, h₁, h₂, h₃]
    ext j hj
    have hcases : j < 8 ∨ (8 ≤ j ∧ j < 16) ∨ (16 ≤ j ∧ j < 24) ∨ (24 ≤ j ∧ j < 32) := by omega
    rcases hcases with hj' | ⟨hl, hu⟩ | ⟨hl, hu⟩ | ⟨hl, hu⟩ <;>
      simp (disch := omega) [decide_eq_true, decide_eq_false, BitVec.getLsbD_eq_getElem]

-- ---------------------------------------------------------------------------
-- A self-contained frame is read from its own bytes
-- ---------------------------------------------------------------------------

theorem startReg_congr (h : Agree len data data') (hlen : 4 ≤ len) :
    startReg data' = startReg data := by
  unfold startReg
  rw [h 2 (by omega), h 3 (by omega)]

theorem register_congr {len : Nat} (h : Agree len data data') (hlen : 2 < len)
    (hs : data 1 = registerAnser → 8 ≤ len ∨
      ∃ i < 4, 2 + i < len ∧ data (2 + i) ≠ idByte m.id i) :
    register data' m = register data m := by
  unfold register
  rw [← h 1 (by omega)]
  by_cases hanser : data 1 = registerAnser
  · rcases hs hanser with hlong | ⟨i, hi, hin, hne⟩
    · rw [← h 7 (by omega)]
      have hid : readId data' = readId data := by
        unfold readId
        rw [h 2 (by omega), h 3 (by omega), h 4 (by omega), h 5 (by omega)]
      rw [hid]
    · have hother : ¬(data 1 = registerAnser ∧ readId data = m.id) := by
        rintro ⟨-, he⟩
        exact hne ((readId_eq_iff data m.id).mp he i hi)
      have hother' : ¬(data 1 = registerAnser ∧ readId data' = m.id) := by
        rintro ⟨-, he⟩
        have hbyte := (readId_eq_iff data' m.id).mp he i hi
        exact hne ((h (2 + i) hin).trans hbyte)
      rw [if_neg hother, if_neg hother']
  · rw [if_neg fun hand => hanser hand.1, if_neg fun hand => hanser hand.1]

theorem readMutiAnalysis_congr (h : Agree len data data') (hlen : 6 ≤ len) :
    readMutiAnalysis alloc data' m = readMutiAnalysis alloc data m := by
  unfold readMutiAnalysis
  rw [h 0 (by omega), h 1 (by omega), h 2 (by omega), h 3 (by omega), h 4 (by omega),
    h 5 (by omega)]

theorem writeRegister_of_not_writable (h : ¬(Register.decode reg).IsWritable) :
    writeRegister reg data m = m :=
  writeRegister_none (fun hs => h (.inl hs)) fun hr => h (.inr hr)

theorem writeSingleAnalysis_congr (h : Agree len data data') (hlen : 4 ≤ len)
    (hs : if data 0 = 0 then (Register.decode (startReg data)).IsWritable → 6 ≤ len
      else 8 ≤ len) :
    writeSingleAnalysis alloc data' m = writeSingleAnalysis alloc data m := by
  unfold writeSingleAnalysis
  dsimp only
  rw [← h 0 (by omega), ← h 2 (by omega), ← h 3 (by omega)]
  by_cases haddr : data 0 = 0
  · rw [if_pos haddr] at hs
    have hwrite : writeRegister (word (data 2) (data 3)) (word (data' 4) (data' 5)) m =
        writeRegister (word (data 2) (data 3)) (word (data 4) (data 5)) m := by
      by_cases hreg : (Register.decode (startReg data)).IsWritable
      · have hlong := hs hreg
        rw [h 4 (by omega), h 5 (by omega)]
      · have hnone (word' : U16) : writeRegister (word (data 2) (data 3)) word' m = m :=
          writeRegister_of_not_writable hreg
        rw [hnone, hnone]
    rw [hwrite, if_neg (not_not_intro haddr), if_neg (not_not_intro haddr)]
  · rw [if_neg haddr] at hs
    rw [h 4 (by omega), h 5 (by omega), h.window hs]

/-- The write loop depends on the words that reach a register with an effect. -/
theorem writeMutiLoop_congr (n : Nat)
    (hs : ∀ i < n, (Register.decode (reg + BitVec.ofNat 16 i)).IsWritable →
      data' (7 + i * 2) = data (7 + i * 2) ∧ data' (8 + i * 2) = data (8 + i * 2)) :
    writeMutiLoop reg data' m n = writeMutiLoop reg data m n := by
  induction n with
  | zero => rfl
  | succ n ih =>
    have hbefore := ih fun i hi => hs i (Nat.lt_succ_of_lt hi)
    unfold writeMutiLoop
    rw [hbefore]
    by_cases hreg : (Register.decode (reg + BitVec.ofNat 16 n)).IsWritable
    · obtain ⟨hhigh, hlow⟩ := hs n (Nat.lt_succ_self n) hreg
      rw [hhigh, hlow]
    · rw [writeRegister_of_not_writable hreg, writeRegister_of_not_writable hreg]

theorem writeMutiLoop_idle (hkn : k ≤ n)
    (hs : ∀ i < n, k ≤ i → ¬(Register.decode (reg + BitVec.ofNat 16 i)).IsWritable) :
    writeMutiLoop reg data m n = writeMutiLoop reg data m k := by
  induction n with
  | zero =>
    obtain rfl := Nat.le_zero.mp hkn
    rfl
  | succ n ih =>
    rcases Nat.eq_or_lt_of_le hkn with rfl | hlt
    · rfl
    · have hle := Nat.le_of_lt_succ hlt
      rw [writeMutiLoop, writeRegister_of_not_writable (hs n (Nat.lt_succ_self n) hle)]
      exact ih hle fun i hi hk => hs i (Nat.lt_succ_of_lt hi) hk

theorem writeMutiAnalysis_congr (h : Agree len.toNat data data') (hlen : 4 ≤ len.toNat)
    (hlong : data 0 ≠ 0 → 6 ≤ len.toNat)
    (hs : ∀ i < declared data len,
      (Register.decode (startReg data + BitVec.ofNat 16 i)).IsWritable → 8 + i * 2 < len.toNat) :
    writeMutiAnalysis alloc data' m = writeMutiAnalysis alloc data m := by
  have hreg := startReg_congr h hlen
  rw [writeMutiAnalysis_eq, writeMutiAnalysis_eq, ← h 0 (by omega), hreg]
  by_cases hcount : 6 ≤ len.toNat
  · have hn : regCount data' = regCount data := by
      rw [regCount_eq, regCount_eq, h 5 (by omega)]
    rw [declared, if_pos hcount] at hs
    have hloop : writeMutiLoop (startReg data) data' m (regCount data).toNat =
        writeMutiLoop (startReg data) data m (regCount data).toNat := by
      apply writeMutiLoop_congr
      intro i hi hwritable
      have hin := hs i hi hwritable
      exact ⟨(h _ (by omega)).symm, (h _ hin).symm⟩
    have hack : ackReply data' = ackReply data := by
      unfold ackReply
      rw [hreg, hn, h 0 (by omega), h 1 (by omega)]
    rw [hn, hloop, hack]
  · -- the count is not in the frame, but then nothing it could count is writable
    have haddr : ¬(data 0 ≠ 0 ∧ alloc.malloc) := fun hand => hcount (hlong hand.1)
    rw [declared, if_neg hcount] at hs
    have hidle (buf : Nat → U8) (n : U8) :
        writeMutiLoop (startReg data) buf m n.toNat = m := by
      have hn := n.isLt
      refine writeMutiLoop_idle (Nat.zero_le _) fun i hi _ hwritable => ?_
      have hin := hs i (by omega) hwritable
      omega
    rw [if_neg haddr, if_neg haddr, hidle, hidle]

theorem modbusCommandAnalysis_congr (h : Agree len.toNat data data') (hok : FrameOk data len)
    (hcode : data 0 ≠ registerCode) (hs : SelfContained uniqueId data len) :
    modbusCommandAnalysis alloc data' m = modbusCommandAnalysis alloc data m := by
  have hshort := hok.1
  unfold SelfContained at hs
  rw [if_neg hcode] at hs
  unfold modbusCommandAnalysis
  dsimp only
  rw [← h 1 (by omega)]
  by_cases hread : data 1 = readMuti
  · rw [if_pos hread] at hs
    rw [if_pos hread, if_pos hread, readMutiAnalysis_congr h hs]
  rw [if_neg hread] at hs
  rw [if_neg hread, if_neg hread]
  by_cases hsingle : data 1 = writeSingle
  · rw [if_pos hsingle] at hs
    have hlen : 4 ≤ len.toNat := by
      by_cases haddr : data 0 = 0
      · exact broadcast_length hok haddr (by rw [hsingle]; decide)
      · rw [if_neg haddr] at hs
        omega
    rw [if_pos hsingle, if_pos hsingle, writeSingleAnalysis_congr h hlen hs]
  rw [if_neg hsingle] at hs
  rw [if_neg hsingle, if_neg hsingle]
  by_cases hmuti : data 1 = writeMuti
  · rw [if_pos hmuti] at hs
    have hlen : 4 ≤ len.toNat := by
      by_cases haddr : data 0 = 0
      · exact broadcast_length hok haddr (by rw [hmuti]; decide)
      · have := hs.1 haddr
        omega
    rw [if_pos hmuti, if_pos hmuti, writeMutiAnalysis_congr h hlen hs.1 hs.2]
  · rw [if_neg hmuti, if_neg hmuti]

/-- The whole state after a self-contained frame is the same, not only what is
observed of it. -/
theorem uart1Analysis_congr (h : Agree len.toNat data data')
    (hs : FrameOk data len → SelfContained m.uniqueId data len) :
    uart1Analysis alloc data' len m = uart1Analysis alloc data len m := by
  by_cases hok : FrameOk data len
  · have hshort := hok.1
    have hok' := hok.congr h
    have h₀ : data 0 = data' 0 := h 0 (by omega)
    by_cases hcode : data 0 = registerCode
    · have hs' := hs hok
      unfold SelfContained at hs'
      rw [if_pos hcode] at hs'
      rw [uart1Analysis_register hok hcode, uart1Analysis_register hok' (h₀ ▸ hcode),
        register_congr h hshort hs']
    · by_cases hcmd : Dispatches data len m
      · have hcmd' : Dispatches data' len m :=
          ⟨hok', h₀ ▸ hcmd.2.1, hcmd.2.2.1, h₀ ▸ hcmd.2.2.2⟩
        rw [uart1Analysis_dispatch hcmd, uart1Analysis_dispatch hcmd',
          modbusCommandAnalysis_congr h hok hcode (hs hok)]
      · have hcmd' : ¬Dispatches data' len m := fun hd =>
          hcmd ⟨hok, hcode, hd.2.2.1, h₀ ▸ hd.2.2.2⟩
        rw [uart1Analysis_ignored (fun hr => hcode hr.2) hcmd,
          uart1Analysis_ignored (fun hr => hcode (h₀ ▸ hr.2)) hcmd']
  · have hok' : ¬FrameOk data' len := fun hok' => hok (hok'.congr h.symm)
    rw [uart1Analysis_ignored (fun hr => hok hr.1) fun hd => hok hd.1,
      uart1Analysis_ignored (fun hr => hok' hr.1) fun hd => hok' hd.1]

-- ---------------------------------------------------------------------------
-- A field outside the frame shows
-- ---------------------------------------------------------------------------

theorem decode_nowTime1_iff : Register.decode reg = .nowTime1 ↔ reg = 0x000A := by
  unfold Register.decode
  constructor
  · intro h
    split at h
    case h_3 heq => exact BitVec.eq_of_toNat_eq heq
    all_goals cases h
  · rintro rfl
    rfl

/-- No half of a time is pending: the next second half is all there is. -/
def Module.ClockClear (m : Module) : Prop := m.timeCorrect.setWidth 8 = (0 : U8)

theorem writeRegister_clockClear (h : Register.decode reg ≠ .nowTime1) (hm : m.ClockClear) :
    (writeRegister reg data m).ClockClear := by
  unfold writeRegister modbusCommand
  cases hreg : Register.decode reg with
  | nowTime1 => exact absurd hreg h
  | nowTime =>
    simp only [writeNowTime, Module.ClockClear]
    ext i hi
    have hin : i < 32 ∧ i < 16 := by omega
    simp [BitVec.getLsbD_signExtend, hin]
  | _ => exact hm

/-- The low byte a register keeps of the word that was written to it. -/
def lowByte (r : Register) (m : Module) : U8 :=
  match r with
  | .ctrl => m.info.ctrl.setWidth 8
  | .unit => m.info.unit
  | .mode => m.info.mode
  | .deadband => m.info.deadBand
  | .daySetpoint => m.info.daySetPoint.setWidth 8
  | .nightSetpoint => m.info.nightSetPoint.setWidth 8
  | .tempFrom => m.info.tempFrom
  | .dayStart => m.info.dayStartTime.setWidth 8
  | .dayEnd => m.info.dayEndTime.setWidth 8
  | .nowCo2 => BitVec.ofInt 8 m.sensor.co2
  | .nowHumi => BitVec.ofInt 8 m.sensor.humi
  | .nowTemp => BitVec.ofInt 8 m.sensor.temp
  | .nowLight => BitVec.ofInt 8 m.sensor.light
  | .nowTime => (m.timeCorrect >>> 16).setWidth 8
  | .nowTime1 => m.timeCorrect.setWidth 8
  | _ => 0

theorem lowByte_writeRegister (hw : (Register.decode reg).IsWritable)
    (hm : Register.decode reg = .nowTime1 → m.ClockClear) :
    lowByte (Register.decode reg) (writeRegister reg data m) = data.setWidth 8 := by
  have hsensor : BitVec.ofInt 8 (data.toNat : Int) = data.setWidth 8 := by
    rw [BitVec.ofInt_natCast]
    exact BitVec.eq_of_toNat_eq (by simp)
  unfold writeRegister modbusCommand
  cases hreg : Register.decode reg <;> rw [hreg] at hw
  case nowCo2 | nowHumi | nowTemp | nowLight => exact hsensor
  case nowTime =>
    simp only [lowByte, writeNowTime]
    ext i hi
    have hin : 16 + i < 32 ∧ 16 + i < 64 ∧ i < 16 := by omega
    simp [BitVec.getElem_signExtend, BitVec.getLsbD_eq_getElem, hin]
  case nowTime1 =>
    have hlow : m.timeCorrect.setWidth 8 = (0 : U8) := hm hreg
    simp only [lowByte, writeNowTime1]
    rw [BitVec.setWidth_or, hlow]
    ext i hi
    simp
  case ctrl | unit | mode | deadband | daySetpoint | nightSetpoint | tempFrom | dayStart | dayEnd =>
    rfl
  all_goals exact absurd hw (by decide)

/-- Two words that differ in their low byte leave different registers. -/
theorem writeRegister_visible (hw : (Register.decode reg).IsWritable)
    (hm : Register.decode reg = .nowTime1 → m.ClockClear)
    (hne : (d.setWidth 8 : U8) ≠ d'.setWidth 8) :
    (writeRegister reg d m).registers ≠ (writeRegister reg d' m).registers := by
  intro heq
  have hsame (r : Register) :
      lowByte r (writeRegister reg d m) = lowByte r (writeRegister reg d' m) := by
    simp only [Module.registers, Prod.mk.injEq] at heq
    obtain ⟨hinfo, hsensor, -, -, htime⟩ := heq
    unfold lowByte
    rw [hinfo, hsensor, htime]
  apply hne
  rw [← lowByte_writeRegister hw hm, hsame, lowByte_writeRegister hw hm]

theorem writeMutiLoop_clockClear (n : Nat) (hm : m.ClockClear)
    (h : ∀ i < n, Register.decode (reg + BitVec.ofNat 16 i) ≠ .nowTime1) :
    (writeMutiLoop reg data m n).ClockClear := by
  induction n with
  | zero => exact hm
  | succ n ih =>
    have hbefore := ih fun i hi => h i (Nat.lt_succ_of_lt hi)
    exact writeRegister_clockClear (h n (Nat.lt_succ_self n)) hbefore

theorem exists_last {P : Nat → Prop} [DecidablePred P] (hi : i < n) (h : P i) :
    ∃ j, i ≤ j ∧ j < n ∧ P j ∧ ∀ k < n, j + 1 ≤ k → ¬P k := by
  refine ⟨Nat.findGreatest P (n - 1), Nat.le_findGreatest (by omega) h, ?_, ?_, ?_⟩
  · have := Nat.findGreatest_le (P := P) (n - 1)
    omega
  · exact Nat.findGreatest_spec (Nat.le_sub_one_of_lt hi) h
  · intro k hk hgreater
    exact Nat.findGreatest_is_greatest hgreater (by omega)

/-- A register that takes effect and whose word ends outside the frame: there is
a last one, and overwriting the end of its word shows. -/
theorem writeMutiLoop_visible (data : Nat → U8) (hm : m.ClockClear) (hn : n ≤ 256) (hi : i < n)
    (hw : (Register.decode (reg + BitVec.ofNat 16 i)).IsWritable) :
    ∃ k v, 8 + i * 2 ≤ k ∧
      (writeMutiLoop reg (Function.update data k v) m n).registers ≠
        (writeMutiLoop reg data m n).registers := by
  obtain ⟨j, hij, hjn, hj, hlast⟩ :=
    exists_last (P := fun j => (Register.decode (reg + BitVec.ofNat 16 j)).IsWritable) hi hw
  refine ⟨8 + j * 2, data (8 + j * 2) + 1, by omega, ?_⟩
  -- nothing after the `j`-th register takes effect, and nothing before it changes
  rw [writeMutiLoop_idle hjn hlast, writeMutiLoop_idle hjn hlast, writeMutiLoop, writeMutiLoop]
  have hbefore : writeMutiLoop reg (Function.update data (8 + j * 2) (data (8 + j * 2) + 1)) m j =
      writeMutiLoop reg data m j := by
    refine writeMutiLoop_congr j fun k hk _ => ⟨?_, ?_⟩
    · rw [Function.update_of_ne (by omega)]
    · rw [Function.update_of_ne (by omega)]
  rw [hbefore]
  refine writeRegister_visible hj (fun htime => ?_) ?_
  · -- the earlier registers are others, so no half of a time is pending
    refine writeMutiLoop_clockClear j hm fun k hk hk' => ?_
    have heq := (decode_nowTime1_iff.mp hk').trans (decode_nowTime1_iff.mp htime).symm
    have hofNat : BitVec.ofNat 16 k = BitVec.ofNat 16 j := by simpa using heq
    have htoNat := congrArg BitVec.toNat hofNat
    simp only [BitVec.toNat_ofNat] at htoNat
    omega
  · simp

/-- A registered module with an empty send list: the state a difference shows in. -/
def listener (uniqueId : Fin 12 → U8) (addr : U8) : Module :=
  let m := powerUp [] {} uniqueId
  { m with info.registerState := yes, info.addr := addr }

theorem listener_clockClear : (listener uniqueId addr).ClockClear := rfl

section

variable {uniqueId : Fin 12 → U8} {data : Nat → U8} {len : U8}

theorem listener_dispatch (hok : FrameOk data len) (hcode : data 0 ≠ registerCode)
    (h : Agree len.toNat data data') :
    (uart1Analysis ⟨true, true⟩ data' len (listener uniqueId (data 0))).module.observed =
      (modbusCommandAnalysis ⟨true, true⟩ data' (listener uniqueId (data 0))).module.observed := by
  have h₀ : data 0 = data' 0 := h 0 (Nat.lt_trans Nat.two_pos hok.1)
  have hstate : (listener uniqueId (data 0)).info.registerState ≠ no := fun he => by cases he
  have hd : Dispatches data' len (listener uniqueId (data 0)) :=
    ⟨hok.congr h, h₀ ▸ hcode, hstate, .inl h₀.symm⟩
  rw [uart1Analysis_dispatch hd]
  rfl

theorem ReadsOwnBytes.observed_eq (h : ReadsOwnBytes uniqueId data len) (hok : FrameOk data len)
    (hcode : data 0 ≠ registerCode) (hx : Agree len.toNat data x) (hy : Agree len.toNat data y) :
    (modbusCommandAnalysis ⟨true, true⟩ x (listener uniqueId (data 0))).module.observed =
      (modbusCommandAnalysis ⟨true, true⟩ y (listener uniqueId (data 0))).module.observed := by
  rw [← listener_dispatch hok hcode hx, ← listener_dispatch hok hcode hy,
    h (listener uniqueId (data 0)) ⟨true, true⟩ x rfl hx,
    h (listener uniqueId (data 0)) ⟨true, true⟩ y rfl hy]

theorem ReadsOwnBytes.answer_eq (h : ReadsOwnBytes uniqueId data len) (hok : FrameOk data len)
    (hcode : data 0 ≠ registerCode) (hx : Agree len.toNat data x) (hy : Agree len.toNat data y)
    (hax : answerOf ⟨true, true⟩ x (listener uniqueId (data 0)) = some body)
    (hay : answerOf ⟨true, true⟩ y (listener uniqueId (data 0)) = some body')
    (hfits : body.length ≤ msgSize) (hfits' : body'.length ≤ msgSize) : body = body' := by
  have hlist := congrArg Prod.snd (h.observed_eq hok hcode hx hy)
  simp only [Module.observed, modbusCommandAnalysis_queued hax hfits rfl,
    modbusCommandAnalysis_queued hay hfits' rfl] at hlist
  exact congrArg Msg.body (List.singleton_injective hlist)

theorem ReadsOwnBytes.register (h : ReadsOwnBytes uniqueId data len) (hok : FrameOk data len)
    (hcode : data 0 = registerCode) (hanser : data 1 = registerAnser) :
    8 ≤ len.toNat ∨
      ∃ i < 4, 2 + i < len.toNat ∧ data (2 + i) ≠ idByte (readUniqueId uniqueId) i := by
  by_contra hcond
  simp only [not_or, not_exists, not_and, not_not] at hcond
  obtain ⟨hshort, hid⟩ := hcond
  have hlen := hok.1
  -- the same frame completed to an answer that carries the id and any address
  let completed (addr : U8) : Nat → U8 := fun i =>
    if i < len.toNat then data i
    else if i = 7 then addr else idByte (readUniqueId uniqueId) (i - 2)
  have hagree (addr : U8) : Agree len.toNat data (completed addr) := fun i hi => (if_pos hi).symm
  have hcompleted (addr : U8) :
      (uart1Analysis ⟨true, true⟩ (completed addr) len (listener uniqueId 0)).module.info.addr =
        addr := by
    have h₀ := hagree addr 0 (by omega)
    have h₁ := hagree addr 1 (by omega)
    have hmatch : readId (completed addr) = (listener uniqueId 0).id := by
      refine (readId_eq_iff _ _).mpr fun i hi => ?_
      simp only [completed]
      split
      · exact hid i hi ‹_›
      · rw [if_neg (by omega), Nat.add_sub_cancel_left]
        rfl
    have hseven : completed addr 7 = addr := by
      simp only [completed]
      rw [if_neg (by omega), if_true]
    rw [uart1Analysis_register (hok.congr (hagree addr)) (h₀ ▸ hcode), Hvac.register,
      if_pos ⟨h₁ ▸ hanser, hmatch⟩]
    exact hseven
  have hsame := (h (listener uniqueId 0) ⟨true, true⟩ (completed 0) rfl (hagree 0)).trans
    (h (listener uniqueId 0) ⟨true, true⟩ (completed 1) rfl (hagree 1)).symm
  have haddr := congrArg (fun o => o.1.1.addr) hsame
  simp only [Module.observed, Module.registers, hcompleted] at haddr
  exact absurd haddr (by decide)

theorem ReadsOwnBytes.read (h : ReadsOwnBytes uniqueId data len) (hok : FrameOk data len)
    (hcode : data 0 ≠ registerCode) (hcmd : data 1 = readMuti) : 6 ≤ len.toNat := by
  by_contra hshort
  have hagree (n : U8) : Agree len.toNat data (Function.update data 5 n) :=
    Buffer.agree_update (by omega) data n
  -- no register asked for, or one: answers of five and of seven bytes
  have hanswer (n : U8) : answerOf ⟨true, true⟩ (Function.update data 5 n)
      (listener uniqueId (data 0)) = some ((readAnswer (data 0) (data 1)
        (startReg (Function.update data 5 n)) (regCount (Function.update data 5 n))
        (listener uniqueId (data 0))).take (replyLen (regCount (Function.update data 5 n))).toNat) := by
    have hread : Function.update data 5 n 1 = readMuti := hcmd
    rw [answerOf, if_pos hread, if_pos rfl]
    rfl
  have hcount (n : U8) : regCount (Function.update data 5 n) = n := by simp [regCount_eq]
  have heq := h.answer_eq hok hcode (hagree 0) (hagree 1) (hanswer 0) (hanswer 1)
    (by rw [hcount, List.length_take, length_readAnswer]; decide)
    (by rw [hcount, List.length_take, length_readAnswer]; decide)
  have hlength := congrArg List.length heq
  simp only [hcount, List.length_take, length_readAnswer] at hlength
  exact absurd hlength (by decide)

theorem ReadsOwnBytes.single (h : ReadsOwnBytes uniqueId data len) (hok : FrameOk data len)
    (hcode : data 0 ≠ registerCode) (hcmd : data 1 = writeSingle) :
    if data 0 = 0 then (Register.decode (startReg data)).IsWritable → 6 ≤ len.toNat
    else 8 ≤ len.toNat := by
  split
  · rename_i haddr
    intro hw
    by_contra hshort
    have hagree : Agree len.toNat data (Function.update data 5 (data 5 + 1)) :=
      Buffer.agree_update (by omega) data _
    have hafter (x : Nat → U8) (h₀ : x 0 = 0) (h₁ : x 1 = writeSingle) :
        (modbusCommandAnalysis ⟨true, true⟩ x (listener uniqueId (data 0))).module =
          writeRegister (startReg x) (word (x 4) (x 5)) (listener uniqueId (data 0)) := by
      unfold modbusCommandAnalysis writeSingleAnalysis
      rw [h₀, h₁]
      rfl
    have hsame := congrArg Prod.fst (h.observed_eq hok hcode hagree (.refl _ _))
    rw [hafter _ haddr hcmd, hafter _ (by simpa using haddr) (by simpa using hcmd)] at hsame
    refine writeRegister_visible hw (fun _ => listener_clockClear) ?_ hsame
    simp
  · rename_i haddr
    by_contra hshort
    have hagree (v : U8) : Agree len.toNat data (Function.update data 7 v) :=
      Buffer.agree_update (by omega) data v
    have hanswer (v : U8) : answerOf ⟨true, true⟩ (Function.update data 7 v)
        (listener uniqueId (data 0)) = some (window (Function.update data 7 v) 8) := by
      have hnot : Function.update data 7 v 1 ≠ readMuti := by
        rw [Function.update_of_ne (by decide), hcmd]
        decide
      rw [answerOf, if_neg hnot, if_pos (by simpa using hcmd), if_pos (by simpa using haddr)]
    have heq := h.answer_eq hok hcode (hagree 0) (hagree 1) (hanswer 0) (hanswer 1)
      (by simp [msgSize]) (by simp [msgSize])
    have hseven := Agree.of_window heq 7 (by decide)
    simp at hseven

theorem ReadsOwnBytes.acknowledged (h : ReadsOwnBytes uniqueId data len) (hok : FrameOk data len)
    (hcode : data 0 ≠ registerCode) (hcmd : data 1 = writeMuti) (haddr : data 0 ≠ 0) :
    6 ≤ len.toNat := by
  by_contra hshort
  have hagree (n : U8) : Agree len.toNat data (Function.update data 5 n) :=
    Buffer.agree_update (by omega) data n
  have hanswer (n : U8) : answerOf ⟨true, true⟩ (Function.update data 5 n)
      (listener uniqueId (data 0)) = some (writeAck (Function.update data 5 n)) := by
    have hmuti : Function.update data 5 n 1 = writeMuti := by simpa using hcmd
    rw [answerOf, hmuti, if_neg (by decide), if_neg (by decide), if_pos rfl,
      if_pos ⟨by simpa using haddr, rfl⟩]
  have heq := h.answer_eq hok hcode (hagree 0) (hagree 1) (hanswer 0) (hanswer 1)
    (by simp [writeAck, msgSize]) (by simp [writeAck, msgSize])
  have hpayload := Checksum.sealFrame_inj heq
  simp [regCount_eq] at hpayload

theorem writeMuti_registers (hcmd : data 1 = writeMuti) (m : Module) :
    (modbusCommandAnalysis ⟨true, true⟩ data m).module.registers =
      (writeMutiLoop (startReg data) data m (regCount data).toNat).registers := by
  have hafter : afterCommand data ⟨true, true⟩ m =
      writeMutiLoop (startReg data) data m (regCount data).toNat := by
    rw [afterCommand, hcmd, if_neg (by decide), if_neg (by decide), if_pos rfl]
  rw [modbusCommandAnalysis_module, hafter]
  rfl

theorem ReadsOwnBytes.words (h : ReadsOwnBytes uniqueId data len) (hok : FrameOk data len)
    (hcode : data 0 ≠ registerCode) (hcmd : data 1 = writeMuti) (hi : i < declared data len)
    (hw : (Register.decode (startReg data + BitVec.ofNat 16 i)).IsWritable) :
    8 + i * 2 < len.toNat := by
  by_contra hout
  -- a completion of the frame that declares the `i`-th word
  obtain ⟨x, hx, hxcmd, hxreg, hxcount⟩ : ∃ x, Agree len.toNat data x ∧ x 1 = writeMuti ∧
      startReg x = startReg data ∧ i < (regCount x).toNat := by
    by_cases hlen : 6 ≤ len.toNat
    · rw [declared, if_pos hlen] at hi
      exact ⟨data, .refl _ _, hcmd, rfl, hi⟩
    · rw [declared, if_neg hlen] at hi
      refine ⟨Function.update data 5 (BitVec.ofNat 8 (i + 1)), Buffer.agree_update (by omega) _ _,
        by simpa using hcmd, by simp [startReg], ?_⟩
      rw [regCount_eq, Function.update_self, BitVec.toNat_ofNat]
      omega
  obtain ⟨k, v, hk, hvisible⟩ := writeMutiLoop_visible (m := listener uniqueId (data 0)) x
    listener_clockClear (Nat.le_of_lt (regCount x).isLt) hxcount (hxreg ▸ hw)
  have hagree : Agree len.toNat x (Function.update x k v) := Buffer.agree_update (by omega) x v
  -- overwriting the end of a word leaves command, register and count alone
  have hkcmd : Function.update x k v 1 = writeMuti := by
    rw [Function.update_of_ne (by omega), hxcmd]
  have hkreg : startReg (Function.update x k v) = startReg x := by
    unfold startReg
    rw [Function.update_of_ne (by omega), Function.update_of_ne (by omega)]
  have hkcount : regCount (Function.update x k v) = regCount x := by
    rw [regCount_eq, regCount_eq, Function.update_of_ne (by omega)]
  apply hvisible
  have hsame := congrArg Prod.fst (h.observed_eq hok hcode (hx.trans hagree) hx)
  simp only [Module.observed, writeMuti_registers hkcmd, writeMuti_registers hxcmd, hkreg,
    hkcount] at hsame
  exact hsame

end

/-- For any identifier and frame: in every state, whatever follows the frame in
the buffer, the analysis leaves the same exactly when the frame is not correct
or contains every field that its command uses. -/
theorem frame_reads_own_bytes (uniqueId : Fin 12 → U8) (data : Nat → U8) (len : U8) :
    ReadsOwnBytes uniqueId data len ↔ (FrameOk data len → SelfContained uniqueId data len) := by
  constructor
  · intro h hok
    unfold SelfContained
    by_cases hcode : data 0 = registerCode
    · rw [if_pos hcode]
      exact h.register hok hcode
    rw [if_neg hcode]
    by_cases hread : data 1 = readMuti
    · rw [if_pos hread]
      exact h.read hok hcode hread
    rw [if_neg hread]
    by_cases hsingle : data 1 = writeSingle
    · rw [if_pos hsingle]
      exact h.single hok hcode hsingle
    rw [if_neg hsingle]
    by_cases hmuti : data 1 = writeMuti
    · rw [if_pos hmuti]
      exact ⟨h.acknowledged hok hcode hmuti, fun i => h.words hok hcode hmuti⟩
    · rw [if_neg hmuti]
      trivial
  · intro h m alloc data' hid hagree
    rw [uart1Analysis_congr hagree fun hok => hid ▸ h hok]

/-- Three registers are declared and the word of one is sent: the second is set
to the frame's CRC, the night set point to what an older frame left behind. -/
theorem frame_reads_own_bytes_fails :
    ¬∀ (m : Module) (alloc : Alloc) (len : U8) (data data' : Nat → U8), Reachable m →
      Agree len.toNat data data' →
      (uart1Analysis alloc data' len m).module.observed =
        (uart1Analysis alloc data len m).module.observed := by
  intro h
  let frame := sealFrame [0x01, 0x10, 0x04, 0x06, 0x00, 0x03, 0x06, 0x00, 0x00]
  have hsame := h (run registered blank) ⟨true, true⟩ 11 (Buffer.store frame fun _ => 0x00)
    (Buffer.store frame fun _ => 0x01) (reachable_run _) fun i hi => by
      rw [Buffer.store_of_lt (by exact hi), Buffer.store_of_lt (by exact hi)]
  have hnight := congrArg (fun o => o.1.1.nightSetPoint) hsame
  exact absurd hnight (by decide +kernel)

end Hvac
