import Hvac.DataLayer
import Mathlib.Tactic.Tauto

/-!
# What a command does

One lemma for each of the three commands, with its loop behind it: the state
it leaves, the reply it queues and the heap bytes it touches.
-/

namespace Hvac

open Buffer (window Allocation)

-- ---------------------------------------------------------------------------
-- The words of a read
-- ---------------------------------------------------------------------------

/-- The value of `test` after the first turns of the read loop. -/
def readTest (reg : U16) (m : Module) : Nat → U16
  | 0 => 0x0000
  | i + 1 => readValue (reg + BitVec.ofNat 16 i) (readTest reg m i) m

/-- The words the loop puts into the answer. -/
def readWords (reg : U16) (m : Module) (n : Nat) : List U16 :=
  (List.range n).map fun i => readTest reg m (i + 1)

theorem word_bytes (w : U16) : word ((w >>> 8).setWidth 8) (w.setWidth 8) = w := by
  exact (Checksum.join_eq_iff _ _ w).mpr rfl

def wordBytes (words : List U16) : List U8 :=
  words.flatMap fun (w : U16) => [(w >>> 8).setWidth 8, w.setWidth 8]

@[simp] theorem length_wordBytes : (wordBytes words).length = 2 * words.length := by
  induction words with
  | nil => rfl
  | cons w rest ih =>
    simp only [wordBytes, List.flatMap_cons, List.length_append, List.length_cons,
      List.length_nil] at ih ⊢
    omega

theorem wordBytes_inj (h : wordBytes words = wordBytes words') : words = words' := by
  induction words generalizing words' with
  | nil =>
    cases words' with
    | nil => rfl
    | cons w' rest' => cases h
  | cons w rest ih =>
    cases words' with
    | nil => cases h
    | cons w' rest' =>
      obtain ⟨hhigh, hbytes⟩ := List.cons.inj h
      obtain ⟨hlow, hrest⟩ := List.cons.inj hbytes
      have hw : w = w' := by rw [← word_bytes w, ← word_bytes w', hhigh, hlow]
      rw [hw, ih hrest]

@[simp] theorem length_readWords : (readWords reg m n).length = n := by
  simp [readWords]

theorem wordBytes_succ (reg : U16) (m : Module) (n : Nat) :
    wordBytes (readWords reg m (n + 1)) =
      wordBytes (readWords reg m n) ++
        [(readTest reg m (n + 1) >>> 8).setWidth 8, (readTest reg m (n + 1)).setWidth 8] := by
  simp [wordBytes, readWords, List.range_succ]

-- ---------------------------------------------------------------------------
-- Registers that cannot be read
-- ---------------------------------------------------------------------------

/-- What as many reads of one register each return. -/
def registerWords (reg : U16) (m : Module) (n : Nat) : List U16 :=
  (List.range n).map fun i => readValue (reg + BitVec.ofNat 16 i) 0x0000 m

@[simp] theorem length_registerWords : (registerWords reg m n).length = n := by
  simp [registerWords]

theorem readValue_report (h : (Register.decode reg).IsReport) (data : U16) (m : Module) :
    readValue reg data m = data := by
  unfold readValue modbusCommand
  cases hr : Register.decode reg <;> simp [hr, Register.IsReport] at h ⊢

theorem readValue_of_not_report (h : ¬(Register.decode reg).IsReport) (data data' : U16)
    (m : Module) : readValue reg data m = readValue reg data' m := by
  unfold readValue modbusCommand
  cases hr : Register.decode reg <;> simp [hr, Register.IsReport] at h ⊢

theorem decode_isReport :
    (Register.decode reg).IsReport ↔
      reg.toNat = 0x0009 ∨ reg.toNat = 0x000A ∨ 0xF000 ≤ reg.toNat ∧ reg.toNat ≤ 0xF003 := by
  constructor
  · intro h
    unfold Register.decode at h
    split at h <;> first | exact h.elim | omega
  · intro h
    obtain h | h | h | h | h | h : reg.toNat = 0x0009 ∨ reg.toNat = 0x000A ∨
        reg.toNat = 0xF000 ∨ reg.toNat = 0xF001 ∨ reg.toNat = 0xF002 ∨ reg.toNat = 0xF003 := by
      omega
    all_goals simp [Register.decode, h, Register.IsReport]

/-- A number without a register, right before the first of a row of registers that
cannot be read. -/
def BeforeReports (reg : U16) : Prop := reg = 0x0008 ∨ reg = 0xEFFF

instance (reg : U16) : Decidable (BeforeReports reg) := inferInstanceAs (Decidable (_ ∨ _))

theorem readValue_beforeReports (h : BeforeReports reg) (data : U16) (m : Module) :
    readValue reg data m = 0xFFFF := by
  rcases h with rfl | rfl <;> rfl

theorem beforeReports_iff : BeforeReports reg ↔
    ¬(Register.decode reg).IsReport ∧ (Register.decode (reg + 1)).IsReport := by
  have hone : BitVec.toNat (1 : U16) = 1 := rfl
  have hlt := reg.isLt
  simp only [BeforeReports, decode_isReport, BitVec.toNat_add, hone, ← BitVec.toNat_inj]
  simp
  omega

/-- A step of the read goes from a number without a register to one that cannot be
read. -/
def StepsIntoReports (reg : U16) (n : Nat) : Prop :=
  ∃ i < n - 1, BeforeReports (reg + BitVec.ofNat 16 i)

instance (reg : U16) (n : Nat) : Decidable (StepsIntoReports reg n) :=
  inferInstanceAs (Decidable (∃ i < n - 1, _))

theorem ofNat_succ (reg : U16) (i : Nat) :
    reg + BitVec.ofNat 16 (i + 1) = reg + BitVec.ofNat 16 i + 1 := by
  rw [BitVec.ofNat_add, BitVec.add_assoc]
  rfl

/-- The variable is still zero where a register that cannot be read is reached
over such registers only. -/
theorem readTest_report (h : ∀ j < i, ¬BeforeReports (reg + BitVec.ofNat 16 j))
    (hreport : (Register.decode (reg + BitVec.ofNat 16 i)).IsReport) : readTest reg m i = 0 := by
  induction i with
  | zero => rfl
  | succ i ih =>
    have hbefore : (Register.decode (reg + BitVec.ofNat 16 i)).IsReport := by
      by_contra hnone
      refine h i (Nat.lt_succ_self i) (beforeReports_iff.mpr ⟨hnone, ?_⟩)
      rwa [← ofNat_succ]
    rw [readTest, readValue_report hbefore]
    exact ih (fun j hj => h j (Nat.lt_succ_of_lt hj)) hbefore

/-- Each turn of the loop reads what a read of its register alone does exactly when
no step goes from 0x0008 to 0x0009 or from 0xEFFF to 0xF000. -/
theorem readTest_single_iff :
    (∀ i < n, readTest reg m (i + 1) = readValue (reg + BitVec.ofNat 16 i) 0x0000 m) ↔
      ¬StepsIntoReports reg n := by
  constructor
  · rintro heq ⟨i, hi, hbefore⟩
    have hreport := (beforeReports_iff.mp hbefore).2
    have hread := heq (i + 1) (Nat.add_lt_of_lt_sub hi)
    rw [readTest, ofNat_succ, readValue_report hreport, readValue_report hreport, readTest,
      readValue_beforeReports hbefore] at hread
    exact absurd hread (by decide)
  · intro hsteps i hi
    rw [readTest]
    by_cases hreport : (Register.decode (reg + BitVec.ofNat 16 i)).IsReport
    · rw [readTest_report (fun j hj hbefore => hsteps ⟨j, by omega, hbefore⟩) hreport]
    · exact readValue_of_not_report hreport ..

theorem readWords_eq_registerWords :
    readWords reg m n = registerWords reg m n ↔ ¬StepsIntoReports reg n := by
  rw [← readTest_single_iff (m := m), readWords, registerWords, List.map_inj_left]
  simp only [List.mem_range]

-- ---------------------------------------------------------------------------
-- The read loop
-- ---------------------------------------------------------------------------

/-- The locate register is among the `n` from `reg` on. -/
def Locates (reg : U16) (n : Nat) : Prop :=
  ∃ i < n, Register.decode (reg + BitVec.ofNat 16 i) = .location

instance (reg : U16) (n : Nat) : Decidable (Locates reg n) :=
  inferInstanceAs (Decidable (∃ i < n, _))

theorem locates_succ : Locates reg (n + 1) ↔
    Locates reg n ∨ Register.decode (reg + BitVec.ofNat 16 n) = .location := by
  constructor
  · rintro ⟨i, hi, h⟩
    rcases Nat.lt_succ_iff_lt_or_eq.mp hi with hlt | rfl
    · exact .inl ⟨i, hlt, h⟩
    · exact .inr h
  · rintro (⟨i, hi, h⟩ | h)
    · exact ⟨i, Nat.lt_succ_of_lt hi, h⟩
    · exact ⟨n, Nat.lt_succ_self n, h⟩

/-- A read of the `n` registers sets the locate flag if it meets its register. -/
def afterReads (reg : U16) (n : Nat) (m : Module) : Module :=
  if Locates reg n then { m with locationFlag := true } else m

/-- What the read loop has done after `n` turns. -/
theorem readMutiLoop_spec (reg : U16) (m : Module) (reply : Allocation U8) (n : Nat) :
    (readMutiLoop reg m reply n).1 = afterReads reg n m ∧
      (readMutiLoop reg m reply n).2.1 = readTest reg m n ∧
      window (readMutiLoop reg m reply n).2.2.mem (3 + 2 * n) =
        window reply.mem 3 ++ wordBytes (readWords reg m n) ∧
      (readMutiLoop reg m reply n).2.2.size = reply.size := by
  induction n with
  | zero =>
    have hnone : ¬Locates reg 0 := fun ⟨i, hi, _⟩ => absurd hi (Nat.not_lt_zero i)
    refine ⟨(if_neg hnone).symm, rfl, ?_, rfl⟩
    simp [readMutiLoop, readWords, wordBytes]
  | succ n ih =>
    obtain ⟨hm, htest, hwindow, hsize⟩ := ih
    have hvalue (test : U16) :
        readValue (reg + BitVec.ofNat 16 n) test (afterReads reg n m) =
          readValue (reg + BitVec.ofNat 16 n) test m := by
      unfold afterReads; split <;> simp
    simp only [readMutiLoop, modbusCommand_read, hm, htest, hvalue]
    refine ⟨?_, rfl, ?_, hsize⟩
    · unfold afterReads
      rw [if_congr locates_succ rfl rfl]
      by_cases h : Locates reg n <;> simp [h]
    · rw [wordBytes_succ, ← List.append_assoc, ← hwindow,
        show 3 + 2 * (n + 1) = (3 + n * 2 + 1) + 1 by omega,
        show 4 + n * 2 = 3 + n * 2 + 1 by omega,
        Allocation.window_write, Allocation.window_write,
        show 3 + n * 2 = 3 + 2 * n by omega]
      simp [readTest]

theorem readMutiLoop_inBounds (reg : U16) (m : Module) (reply : Allocation U8) (n : Nat)
    (h : 3 ≤ reply.size) :
    (readMutiLoop reg m reply n).2.2.InBounds ↔ 3 + 2 * n ≤ reply.size ∧ reply.InBounds := by
  induction n with
  | zero => simpa [readMutiLoop] using fun _ => h
  | succ n ih =>
    have hsize := (readMutiLoop_spec reg m reply n).2.2.2
    simp only [readMutiLoop, Allocation.inBounds_write, Allocation.size_write, hsize, ih]
    constructor
    · rintro ⟨h₁, h₂, h₃, h₄⟩
      exact ⟨by omega, h₄⟩
    · rintro ⟨h₁, h₂⟩
      exact ⟨by omega, by omega, by omega, h₂⟩

-- ---------------------------------------------------------------------------
-- The end of a reply
-- ---------------------------------------------------------------------------

@[simp] theorem size_putCrc : (putCrc n reply).size = reply.size := rfl

theorem window_putCrc (n : Nat) (reply : Allocation U8) :
    window (putCrc n reply).mem (n + 2) = sealFrame (window reply.mem n) := by
  unfold putCrc
  dsimp only
  have hfirst : window ((reply.expose n).write n
      ((usModbusRtuCrc (window reply.mem n)).setWidth 8)).mem n = window reply.mem n := by
    apply Buffer.window_congr
    intro i hi
    simp [Function.update_of_ne (Nat.ne_of_lt hi)]
  rw [hfirst, Allocation.window_write, Allocation.mem_expose, Allocation.window_write,
    Allocation.mem_expose]
  simp [Checksum.sealFrame, Checksum.trailer]

theorem inBounds_putCrc (n : Nat) (reply : Allocation U8) :
    (putCrc n reply).InBounds ↔ n + 2 ≤ reply.size ∧ reply.InBounds := by
  simp only [putCrc, Allocation.inBounds_write, Allocation.inBounds_expose,
    Allocation.size_write, Allocation.size_expose]
  constructor
  · rintro ⟨h, -, -, -, hr⟩
    exact ⟨h, hr⟩
  · rintro ⟨h, hr⟩
    exact ⟨h, by omega, by omega, by omega, hr⟩

-- ---------------------------------------------------------------------------
-- Read
-- ---------------------------------------------------------------------------

def startReg (data : Nat → U8) : U16 := word (data 2) (data 3)

/-- The register count of a command: its low byte. -/
def regCount (data : Nat → U8) : U8 := (word (data 4) (data 5)).setWidth 8

@[simp] theorem setWidth_word (high low : U8) : (word high low).setWidth 8 = low := by
  unfold word
  ext i
  simp

theorem regCount_eq (data : Nat → U8) : regCount data = data 5 := setWidth_word ..

def readAnswer (addr cmd : U8) (reg : U16) (n : U8) (m : Module) : List U8 :=
  sealFrame ([addr, cmd, n] ++ wordBytes (readWords reg m n.toNat))

def replyLen (n : U8) : U8 := n * 2 + 5

@[simp] theorem length_readAnswer :
    (readAnswer addr cmd reg n m).length = 2 * n.toNat + 5 := by
  simp [readAnswer]

theorem toNat_replyLen (n : U8) : (replyLen n).toNat = (2 * n.toNat + 5) % 256 := by
  have h2 : BitVec.toNat (2 : U8) = 2 := rfl
  have h5 : BitVec.toNat (5 : U8) = 5 := rfl
  simp only [replyLen, BitVec.toNat_add, BitVec.toNat_mul, h2, h5]
  omega

/-- The reply buffer of a read, filled but not yet handed over. -/
def readReply (data : Nat → U8) (m : Module) : Allocation U8 :=
  putCrc (3 + 2 * (regCount data).toNat)
    (readMutiLoop (startReg data) m
      ((((rtMalloc (replyLen (regCount data))).write 0 (data 0)).write 1 (data 1)).write 2
        (regCount data)) (regCount data).toNat).2.2

theorem window_readReply (data : Nat → U8) (m : Module) :
    window (readReply data m).mem (2 * (regCount data).toNat + 5) =
      readAnswer (data 0) (data 1) (startReg data) (regCount data) m := by
  unfold readReply
  rw [show 2 * (regCount data).toNat + 5 = 3 + 2 * (regCount data).toNat + 2 by omega,
    window_putCrc, (readMutiLoop_spec ..).2.2.1]
  congr 1

theorem readMutiAnalysis_eq (alloc : Alloc) (data : Nat → U8) (m : Module) :
    readMutiAnalysis alloc data m =
      if alloc.malloc then
        sendReply alloc (replyLen (regCount data)).toNat (readReply data m)
          (afterReads (startReg data) (regCount data).toNat m)
      else { module := m, reply := none } := by
  unfold readMutiAnalysis
  rw [← (readMutiLoop_spec (startReg data) m
    ((((rtMalloc (replyLen (regCount data))).write 0 (data 0)).write 1 (data 1)).write 2
      (regCount data)) (regCount data).toNat).1]
  rfl

/-- The reply fits what was allocated exactly when its length fits eight bits. -/
theorem inBounds_readReply (data : Nat → U8) (m : Module) :
    ((readReply data m).expose (replyLen (regCount data)).toNat).InBounds ↔
      (regCount data).toNat ≤ 125 := by
  have hcount := (regCount data).isLt
  have hlen := toNat_replyLen (regCount data)
  unfold readReply
  rw [Allocation.inBounds_expose, size_putCrc, inBounds_putCrc, (readMutiLoop_spec ..).2.2.2]
  simp only [Allocation.size_write, rtMalloc]
  constructor
  · rintro ⟨-, h, -⟩
    omega
  · intro h
    refine ⟨Nat.le_refl _, by omega, ?_⟩
    rw [readMutiLoop_inBounds]
    · simp only [Allocation.inBounds_write, Allocation.size_write]
      refine ⟨by omega, by omega, by omega, by omega, ?_⟩
      intro i hi
      cases hi
    · simp only [Allocation.size_write]
      omega

-- ---------------------------------------------------------------------------
-- Write
-- ---------------------------------------------------------------------------

theorem writeMutiLoop_kept (reg : U16) (data : Nat → U8) (m : Module) (n : Nat) :
    Kept m (writeMutiLoop reg data m n) ∧
      (writeMutiLoop reg data m n).sendMsgList = m.sendMsgList := by
  induction n with
  | zero => exact ⟨.refl m, rfl⟩
  | succ n ih =>
    refine ⟨ih.1.trans (writeRegister_kept ..), ?_⟩
    rw [writeMutiLoop, writeRegister_sendMsgList]
    exact ih.2

def writeAck (data : Nat → U8) : List U8 :=
  sealFrame [data 0, data 1, (startReg data >>> 8).setWidth 8, (startReg data).setWidth 8, 0x00,
    regCount data]

def ackReply (data : Nat → U8) : Allocation U8 :=
  putCrc 6
    ((((((rtMalloc 8).write 0 (data 0)).write 1 (data 1)).write 2
      ((startReg data >>> 8).setWidth 8)).write 3 ((startReg data).setWidth 8)).write 4 0x00 |>.write
      5 (regCount data))

theorem window_ackReply (data : Nat → U8) : window (ackReply data).mem 8 = writeAck data := by
  rw [ackReply, window_putCrc]
  congr 1

theorem inBounds_ackReply (data : Nat → U8) : ((ackReply data).expose 8).InBounds := by
  rw [Allocation.inBounds_expose, ackReply, inBounds_putCrc]
  simp only [Allocation.inBounds_write, Allocation.size_write, size_putCrc]
  refine ⟨by decide, by decide, by decide, by decide, by decide, by decide, by decide, by decide, ?_⟩
  intro i hi
  cases hi

theorem writeMutiAnalysis_eq (alloc : Alloc) (data : Nat → U8) (m : Module) :
    writeMutiAnalysis alloc data m =
      if data 0 ≠ 0 ∧ alloc.malloc then
        sendReply alloc 8 (ackReply data)
          (writeMutiLoop (startReg data) data m (regCount data).toNat)
      else
        { module := writeMutiLoop (startReg data) data m (regCount data).toNat, reply := none } :=
  rfl

-- ---------------------------------------------------------------------------
-- Any command
-- ---------------------------------------------------------------------------

def answerOf (alloc : Alloc) (data : Nat → U8) (m : Module) : Option (List U8) :=
  if data 1 = readMuti then
    if alloc.malloc then
      some ((readAnswer (data 0) (data 1) (startReg data) (regCount data) m).take
        (replyLen (regCount data)).toNat)
    else none
  else if data 1 = writeSingle then if data 0 ≠ 0 then some (window data 8) else none
  else if data 1 = writeMuti then
    if data 0 ≠ 0 ∧ alloc.malloc then some (writeAck data) else none
  else none

/-- The registers, less the send list, after a command. -/
def afterCommand (data : Nat → U8) (alloc : Alloc) (m : Module) : Module :=
  if data 1 = readMuti then
    if alloc.malloc then afterReads (startReg data) (regCount data).toNat m else m
  else if data 1 = writeSingle then writeRegister (startReg data) (word (data 4) (data 5)) m
  else if data 1 = writeMuti then writeMutiLoop (startReg data) data m (regCount data).toNat
  else m

theorem afterReads_kept (reg : U16) (n : Nat) (m : Module) : Kept m (afterReads reg n m) := by
  unfold afterReads
  split
  · exact ⟨rfl, rfl, rfl, rfl, rfl, rfl, rfl, rfl, rfl⟩
  · exact .refl m

@[simp] theorem afterReads_sendMsgList (reg : U16) (n : Nat) (m : Module) :
    (afterReads reg n m).sendMsgList = m.sendMsgList := by
  unfold afterReads; split <;> rfl

theorem afterCommand_kept (data : Nat → U8) (alloc : Alloc) (m : Module) :
    Kept m (afterCommand data alloc m) := by
  unfold afterCommand
  repeat' split
  · exact afterReads_kept ..
  · exact .refl m
  · exact writeRegister_kept ..
  · exact (writeMutiLoop_kept ..).1
  · exact .refl m

theorem modbusCommandAnalysis_module (alloc : Alloc) (data : Nat → U8) (m : Module) :
    (modbusCommandAnalysis alloc data m).module =
      { afterCommand data alloc m with
        sendMsgList := match answerOf alloc data m with
          | none => m.sendMsgList
          | some body => queue alloc.calloc body m.sendMsgList } := by
  have htake : window (readReply data m).mem (replyLen (regCount data)).toNat =
      (readAnswer (data 0) (data 1) (startReg data) (regCount data) m).take
        (replyLen (regCount data)).toNat := by
    rw [← window_readReply, Buffer.take_window]
    rw [toNat_replyLen]
    omega
  unfold modbusCommandAnalysis afterCommand answerOf
  dsimp only
  split
  · rw [readMutiAnalysis_eq]
    split
    · simp only [sendReply, htake, afterReads_sendMsgList]
    · rfl
  split
  · unfold writeSingleAnalysis
    dsimp only
    split
    · simp only [writeRegister_sendMsgList]
      rfl
    · simp only [startReg]
      rw [← writeRegister_sendMsgList (word (data 2) (data 3)) (word (data 4) (data 5)) m]
  split
  · have hlist := (writeMutiLoop_kept (startReg data) data m (regCount data).toNat).2
    rw [writeMutiAnalysis_eq]
    split
    · simp only [sendReply, window_ackReply, hlist]
    · rw [← hlist]
  · rfl

theorem answerOf_head (h : answerOf alloc data m = some body) : body.head? = some (data 0) := by
  unfold answerOf at h
  repeat' split at h
  all_goals simp only [Option.some.injEq, reduceCtorEq] at h
  · subst h
    have hlen := toNat_replyLen (regCount data)
    obtain ⟨k, hk⟩ : ∃ k, (replyLen (regCount data)).toNat = k + 1 :=
      Nat.exists_eq_succ_of_ne_zero (by omega)
    rw [hk]
    rfl
  · subst h
    rfl
  · subst h
    rfl

theorem modbusCommandAnalysis_queued (h : answerOf ⟨true, true⟩ data m = some body)
    (hfits : body.length ≤ msgSize) (hempty : m.sendMsgList = []) :
    (modbusCommandAnalysis ⟨true, true⟩ data m).module.sendMsgList = [⟨body, hfits⟩] := by
  rw [modbusCommandAnalysis_module, h]
  simp only [queue, hempty, addToSendMsgList_nil hfits]

/-- No access to the reply's block went past its end. Only then is the rest of the
memory, and with it the state, what the outcome says. -/
def Outcome.InBounds (out : Outcome) : Prop := ∀ reply, out.reply = some reply → reply.InBounds

instance (out : Outcome) : Decidable out.InBounds :=
  match h : out.reply with
  | none => isTrue fun _ he => by rw [h] at he; cases he
  | some reply =>
    decidable_of_iff reply.InBounds
      ⟨fun hin _ he => Option.some.inj (h.symm.trans he) ▸ hin, fun hall => hall reply h⟩

/-- Heap accesses of a command leave their buffer only in a long read. -/
theorem modbusCommandAnalysis_inBounds (alloc : Alloc) (data : Nat → U8) (m : Module) :
    (modbusCommandAnalysis alloc data m).InBounds ↔
      (data 1 = readMuti → alloc.malloc → (regCount data).toNat ≤ 125) := by
  unfold modbusCommandAnalysis Outcome.InBounds
  dsimp only
  split
  · rename_i hread
    rw [readMutiAnalysis_eq]
    cases halloc : alloc.malloc with
    | false => simp
    | true => simpa [sendReply, hread] using inBounds_readReply data m
  · rename_i hread
    refine iff_of_true ?_ fun h => absurd h hread
    intro reply hreply
    split at hreply
    · unfold writeSingleAnalysis at hreply
      dsimp only at hreply
      split at hreply <;> cases hreply
    split at hreply
    · rw [writeMutiAnalysis_eq] at hreply
      split at hreply
      · cases hreply
        exact inBounds_ackReply data
      · cases hreply
    · cases hreply

-- ---------------------------------------------------------------------------
-- Any frame
-- ---------------------------------------------------------------------------

def FrameOk (data : Nat → U8) (len : U8) : Prop := 2 < len.toNat ∧ CrcOk data len.toNat

instance (data : Nat → U8) (len : U8) : Decidable (FrameOk data len) :=
  inferInstanceAs (Decidable (_ ∧ _))

def Dispatches (data : Nat → U8) (len : U8) (m : Module) : Prop :=
  FrameOk data len ∧ data 0 ≠ registerCode ∧ m.info.registerState ≠ no ∧
    (data 0 = m.info.addr ∨ data 0 = 0x00)

instance (data : Nat → U8) (len : U8) (m : Module) : Decidable (Dispatches data len m) :=
  inferInstanceAs (Decidable (_ ∧ _ ∧ _ ∧ _))

theorem frameUse_registration (h : FrameOk data len) (hcode : data 0 = registerCode) :
    frameUse data len m = .registration := by
  unfold frameUse
  rw [if_neg (Nat.not_le_of_lt h.1), if_neg (not_not_intro h.2), if_pos hcode]

/-- `ModbusCommandAnalysis` is called with the frames that pass every check. -/
theorem frameUse_command_iff : frameUse data len m = .command ↔ Dispatches data len m := by
  unfold frameUse
  constructor
  · intro h
    split at h
    · cases h
    split at h
    · cases h
    split at h
    · cases h
    split at h
    · cases h
    split at h
    · cases h
    rename_i hlen hcrc hcode hstate haddr
    exact ⟨⟨Nat.lt_of_not_le hlen, not_not.mp hcrc⟩, hcode, hstate, by tauto⟩
  · rintro ⟨hok, hcode, hstate, haddr⟩
    have hpass : ¬(data 0 ≠ m.info.addr ∧ data 0 ≠ 0x00) := by
      rintro ⟨h₁, h₂⟩
      exact haddr.elim h₁ h₂
    rw [if_neg (Nat.not_le_of_lt hok.1), if_neg (not_not_intro hok.2), if_neg hcode,
      if_neg hstate, if_neg hpass]

theorem uart1Analysis_register (h : FrameOk data len) (hcode : data 0 = registerCode) :
    uart1Analysis alloc data len m =
      { module := setLastConnectTime (register data m), reply := none } := by
  rw [uart1Analysis, frameUse_registration h hcode]

theorem uart1Analysis_dispatch (h : Dispatches data len m) :
    uart1Analysis alloc data len m =
      { module := setLastConnectTime (modbusCommandAnalysis alloc data m).module
        reply := (modbusCommandAnalysis alloc data m).reply } := by
  rw [uart1Analysis, frameUse_command_iff.mpr h]

theorem uart1Analysis_ignored (hreg : ¬(FrameOk data len ∧ data 0 = registerCode))
    (hcmd : ¬Dispatches data len m) :
    uart1Analysis alloc data len m = { module := m, reply := none } := by
  have hdropped : frameUse data len m = .dropped := by
    cases huse : frameUse data len m with
    | dropped => rfl
    | command => exact absurd (frameUse_command_iff.mp huse) hcmd
    | registration =>
      unfold frameUse at huse
      split at huse
      · cases huse
      split at huse
      · cases huse
      split at huse
      · rename_i hlen hcrc hcode
        exact absurd ⟨⟨Nat.lt_of_not_le hlen, not_not.mp hcrc⟩, hcode⟩ hreg
      · split at huse
        · cases huse
        · split at huse <;> cases huse
  rw [uart1Analysis, hdropped]

end Hvac
