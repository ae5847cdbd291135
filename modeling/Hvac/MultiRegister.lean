import Hvac.FrameScope
import Hvac.Reply
import Hvac.Traffic

/-!
# Several registers in one frame

A read of several registers is meant to be as many reads of one, and a write of
several as many writes. Writes are (`multi_write_eq_single`). In a read one
variable takes the value of each register in turn, and a register that cannot be
read leaves in it what the register before it put there (`multi_read_eq_single`).
-/

namespace Hvac

open Buffer (window)

-- ---------------------------------------------------------------------------
-- Words of a frame
-- ---------------------------------------------------------------------------

/-- The word in the bytes `2 * i` and `2 * i + 1` from an offset on. -/
def wordAt (data : Nat → U8) (offset i : Nat) : U16 :=
  word (data (offset + i * 2)) (data (offset + 1 + i * 2))

theorem wordBytes_getElem? (words : List U16) (i : Nat) :
    (wordBytes words)[i * 2]? = words[i]?.map (fun w : U16 => (w >>> 8).setWidth 8) ∧
      (wordBytes words)[i * 2 + 1]? = words[i]?.map (fun w : U16 => w.setWidth 8) := by
  induction words generalizing i with
  | nil => simp [wordBytes]
  | cons w rest ih =>
    cases i with
    | zero => simp [wordBytes]
    | succ i => simpa [wordBytes, Nat.succ_mul] using ih i

theorem wordAt_of_window {words : List U16}
    (h : window data len = header ++ wordBytes words ++ rest) (hi : i < words.length) :
    wordAt data header.length i = words[i] := by
  obtain ⟨hhigh, hlow⟩ := wordBytes_getElem? words i
  simp only [List.getElem?_eq_getElem hi, Option.map_some] at hhigh hlow
  have hbyte {j : Nat} {byte : U8} (hj : (wordBytes words)[j]? = some byte) :
      data (header.length + j) = byte := by
    have hin := (List.getElem?_eq_some_iff.mp hj).1
    have hget := congrArg (·[header.length + j]?) h
    simp only [List.append_assoc, List.getElem?_append_right (Nat.le_add_right ..),
      Nat.add_sub_cancel_left, List.getElem?_append_left hin, hj] at hget
    obtain ⟨hlt, hget⟩ := List.getElem?_eq_some_iff.mp hget
    simpa using hget
  rw [wordAt, hbyte hhigh, Nat.add_assoc, Nat.add_comm 1, hbyte hlow, word_bytes]

-- ---------------------------------------------------------------------------
-- Reads
-- ---------------------------------------------------------------------------

structure ReadsRegisters (data : Nat → U8) (reg : U16) (n : U8) : Prop where
  cmd : data 1 = readMuti
  reg : startReg data = reg
  count : regCount data = n

def replyWord (out : Outcome) (i : Nat) : Option U16 :=
  out.reply.map fun reply => wordAt reply.mem 3 i

theorem replyWord_read (halloc : alloc.malloc = true) (h : ReadsRegisters data reg n)
    (hi : i < n.toNat) :
    replyWord (modbusCommandAnalysis alloc data m) i = some (readTest reg m (i + 1)) := by
  obtain ⟨hcmd, rfl, rfl⟩ := h
  have hwords : i < (readWords (startReg data) m (regCount data).toNat).length := by
    simpa using hi
  have hword := wordAt_of_window (window_readReply data m) hwords
  simp only [modbusCommandAnalysis, if_pos hcmd, readMutiAnalysis_eq, halloc, if_true, replyWord,
    sendReply, Option.map_some, Buffer.Allocation.mem_expose]
  rw [show wordAt (readReply data m).mem 3 i = _ from hword]
  simp [readWords]

/-- Each word of a read is that of a read of its register alone exactly when the
registers read do not go from 0x0008 to 0x0009 or from 0xEFFF to 0xF000. -/
theorem multi_read_eq_single (m : Module) (halloc : alloc.malloc = true)
    (h : ReadsRegisters data reg n) (single : Nat → Nat → U8)
    (hsingle : ∀ i < n.toNat, ReadsRegisters (single i) (reg + BitVec.ofNat 16 i) 1) :
    (∀ i < n.toNat, replyWord (modbusCommandAnalysis alloc data m) i =
        replyWord (modbusCommandAnalysis alloc (single i) m) 0) ↔
      ¬StepsIntoReports reg n.toNat := by
  rw [← readTest_single_iff (m := m)]
  refine forall₂_congr fun i hi => ?_
  rw [replyWord_read halloc h hi, replyWord_read halloc (hsingle i hi) (by decide), Option.some.injEq]
  simp [readTest]

/-- A read of the locate register's neighbours, of `n` registers from `low` on. -/
def readLow (low n : U8) : Nat → U8 :=
  Buffer.store (sealFrame [0x01, 0x03, 0x00, low, 0x00, n]) fun _ => 0

theorem multi_read_eq_single_times :
    replyWord (modbusCommandAnalysis ⟨true, true⟩ (readLow 0x09 2) blank) 1 =
      replyWord (modbusCommandAnalysis ⟨true, true⟩ (readLow 0x0A 1) blank) 0 := by
  refine (multi_read_eq_single (n := 2) blank rfl ⟨rfl, rfl, rfl⟩
    (fun i => readLow (0x09 + BitVec.ofNat 8 i) 1) ?_).mpr (by decide) 1 (by decide)
  intro i hi
  obtain rfl | rfl : i = 0 ∨ i = 1 := Nat.le_one_iff_eq_zero_or_eq_one.mp (Nat.le_of_lt_succ hi)
  · exact ⟨rfl, rfl, rfl⟩
  · exact ⟨rfl, rfl, rfl⟩

/-- 0x0009 cannot be read: zero alone, 0xFFFF after 0x0008, which does not exist. -/
theorem multi_read_eq_single_fails :
    ReadsRegisters (readLow 0x08 2) 0x0008 2 ∧ ReadsRegisters (readLow 0x09 1) 0x0009 1 ∧
      replyWord (modbusCommandAnalysis ⟨true, true⟩ (readLow 0x08 2) blank) 1 = some 0xFFFF ∧
      replyWord (modbusCommandAnalysis ⟨true, true⟩ (readLow 0x09 1) blank) 0 = some 0x0000 :=
  ⟨⟨rfl, rfl, rfl⟩, ⟨rfl, rfl, rfl⟩, by decide +kernel, by decide +kernel⟩

-- ---------------------------------------------------------------------------
-- Writes
-- ---------------------------------------------------------------------------

theorem writeRegister_registers (h : m'.registers = m.registers) (reg v : U16) :
    (writeRegister reg v m').registers = (writeRegister reg v m).registers := by
  simp only [Module.registers, Prod.mk.injEq] at h
  obtain ⟨hinfo, hsensor, haction, hrtc, htime⟩ := h
  unfold writeRegister modbusCommand
  cases Register.decode reg <;>
    simp only [Module.registers, writeNowTime, writeNowTime1, hinfo, haction, hsensor, htime, hrtc]

theorem writeRegisters_registers (h : m'.registers = m.registers) (writes : List (U16 × U16)) :
    (writeRegisters writes m').registers = (writeRegisters writes m).registers := by
  induction writes generalizing m m' with
  | nil => exact h
  | cons w rest ih => exact ih (writeRegister_registers h w.1 w.2)

def deliver (alloc : Alloc) (frame : List U8) : List Event := [.input frame, .poll alloc]

structure ToModule (frame : List U8) (m : Module) : Prop where
  sealed : Sealed frame
  long : 3 ≤ frame.length
  short : frame.length < 256
  addr : frame.getD 0 0 = m.info.addr ∨ frame.getD 0 0 = 0x00
  cmd : frame.getD 1 0 ≠ registerAnser

theorem uart1Input_byte (m : Module) (h : i < frame.length) :
    (uart1Input frame m).rx.data i = frame.getD i 0 := by
  simp [uart1Input, Buffer.store_of_lt h, h]

theorem ToModule.frameOk (h : ToModule frame m) :
    FrameOk (uart1Input frame m).rx.data (uart1Input frame m).handedLen ∧
      (uart1Input frame m).Pending := by
  have hlen : (uart1Input frame m).handedLen.toNat = frame.length := by
    simp only [Module.handedLen, uart1Input, BitVec.toNat_ofNat]
    exact Nat.mod_eq_of_lt h.short
  have htwo : 2 ≤ frame.length := Nat.le_of_succ_le h.long
  have hcrc : CrcOk (uart1Input frame m).rx.data frame.length := by
    rw [crcOk_iff_sealed htwo]
    have hwindow : window (uart1Input frame m).rx.data frame.length = frame :=
      Buffer.window_store ..
    rw [hwindow]
    exact h.sealed
  have hfirst : (uart1Input frame m).rx.data 0 = frame.getD 0 0 :=
    uart1Input_byte m (Nat.lt_of_lt_of_le (by decide) h.long)
  refine ⟨⟨hlen ▸ h.long, by rwa [hlen]⟩, if_pos ⟨htwo, hcrc, ?_⟩⟩
  obtain haddr | haddr := h.addr
  · exact .inr (.inr (hfirst.trans haddr))
  · exact .inr (.inl (hfirst.trans haddr))

/-- What a command writes. A frame with the address of the registration frames is
none, whatever the module's address. -/
def frameWrites (data : Nat → U8) : List (U16 × U16) :=
  if data 0 = registerCode then [] else commandWrites data

theorem modbusCommandAnalysis_writes (alloc : Alloc) (data : Nat → U8) (m : Module) :
    (modbusCommandAnalysis alloc data m).module.registers =
      (writeRegisters (commandWrites data) m).registers := by
  obtain ⟨flag, h⟩ := afterCommand_writeRegisters data alloc m
  rw [modbusCommandAnalysis_module, h]
  rfl

/-- A delivered command carries out its writes, and reaches nothing else that a
write could reach. -/
theorem run_deliver (h : ToModule frame m) (hregistered : m.info.registerState = yes)
    (alloc : Alloc) :
    (run (deliver alloc frame) m).registers =
      (writeRegisters (frameWrites (uart1Input frame m).rx.data) m).registers := by
  obtain ⟨hok, hpending⟩ := h.frameOk
  have hbyte {i : Nat} (hi : i < 3) := uart1Input_byte m (Nat.lt_of_lt_of_le hi h.long)
  rw [deliver, run, Machine.run_cons, Machine.run_cons, Machine.run_nil, step, step,
    uartPoll_pending hpending]
  obtain ⟨-, hcode, he⟩ | ⟨⟨-, hcode, -⟩, he⟩ | ⟨hreg, hcmd, -⟩ :=
    uart1Analysis_cases alloc (uart1Input frame m).rx.data (uart1Input frame m).handedLen
      (uart1CleanRecvFlag (uart1Input frame m))
  · have hnone : ¬((uart1Input frame m).rx.data 1 = registerAnser ∧
        readId (uart1Input frame m).rx.data = (uart1CleanRecvFlag (uart1Input frame m)).id) :=
      fun hand => h.cmd ((hbyte (by decide)).symm.trans hand.1)
    rw [he, register, if_neg hnone, frameWrites, if_pos hcode]
    rfl
  · rw [he, frameWrites, if_neg hcode]
    have hafter := modbusCommandAnalysis_writes alloc (uart1Input frame m).rx.data
      (uart1CleanRecvFlag (uart1Input frame m))
    have hclean : (uart1CleanRecvFlag (uart1Input frame m)).registers = m.registers := rfl
    exact hafter.trans (writeRegisters_registers hclean _)
  · -- an intact command to a registered module is one of the two
    have hnocode : (uart1Input frame m).rx.data 0 ≠ registerCode := fun hcode => hreg ⟨hok, hcode⟩
    have hstate : (uart1CleanRecvFlag (uart1Input frame m)).info.registerState ≠ no := by
      simp [uart1CleanRecvFlag, uart1Input, hregistered, yes, no]
    refine absurd ⟨hok, hnocode, hstate, ?_⟩ hcmd
    rw [hbyte (by decide)]
    exact h.addr

-- ---------------------------------------------------------------------------
-- One write of several, several writes of one
-- ---------------------------------------------------------------------------

def registerBytes (reg : U16) : List U8 := [(reg >>> 8).setWidth 8, reg.setWidth 8]

def writeSingleFrame (addr : U8) (reg v : U16) : List U8 :=
  sealFrame ([addr, writeSingle] ++ registerBytes reg ++ registerBytes v)

def writeMutiFrame (addr : U8) (reg : U16) (words : List U16) : List U8 :=
  sealFrame ([addr, writeMuti] ++ registerBytes reg ++
    [0x00, BitVec.ofNat 8 words.length, BitVec.ofNat 8 (2 * words.length)] ++ wordBytes words)

def registerSequence (reg : U16) (words : List U16) : List (U16 × U16) :=
  words.mapIdx fun i v => (reg + BitVec.ofNat 16 i, v)

/-- One frame for each write, with any memory at each. -/
def writeSingles (allocs : Nat → Alloc) (addr : U8) : List (U16 × U16) → List Event
  | [] => []
  | w :: rest =>
    deliver (allocs 0) (writeSingleFrame addr w.1 w.2) ++
      writeSingles (fun i => allocs (i + 1)) addr rest

def writesTo (addr : U8) (writes : List (U16 × U16)) : List (U16 × U16) :=
  if addr = registerCode then [] else writes

theorem toModule_writeSingle (haddr : addr = m.info.addr ∨ addr = 0x00) (reg v : U16) :
    ToModule (writeSingleFrame addr reg v) m :=
  ⟨Checksum.sealed_sealFrame, by simp [writeSingleFrame, registerBytes],
    by simp [writeSingleFrame, registerBytes], haddr, by
      rw [show (writeSingleFrame addr reg v).getD 1 0 = writeSingle from rfl]
      decide⟩

theorem frameWrites_writeSingle (addr : U8) (reg v : U16) (m : Module) :
    frameWrites (uart1Input (writeSingleFrame addr reg v) m).rx.data = writesTo addr [(reg, v)] := by
  have hreg : startReg (uart1Input (writeSingleFrame addr reg v) m).rx.data = reg := word_bytes reg
  have hword : word ((uart1Input (writeSingleFrame addr reg v) m).rx.data 4)
      ((uart1Input (writeSingleFrame addr reg v) m).rx.data 5) = v := word_bytes v
  have hcmd : (uart1Input (writeSingleFrame addr reg v) m).rx.data 1 = writeSingle := rfl
  rw [frameWrites, commandWrites, if_pos hcmd, hreg, hword]
  rfl

theorem toModule_writeMuti (haddr : addr = m.info.addr ∨ addr = 0x00) (reg : U16)
    (hlen : 9 + 2 * words.length ≤ 255) : ToModule (writeMutiFrame addr reg words) m := by
  refine ⟨Checksum.sealed_sealFrame, ?_, ?_, haddr, ?_⟩
  · simp [writeMutiFrame, registerBytes]
  · simp [writeMutiFrame, registerBytes]
    omega
  · rw [show (writeMutiFrame addr reg words).getD 1 0 = writeMuti from rfl]
    decide

theorem frameWrites_writeMuti (addr : U8) (reg : U16) (hlen : 9 + 2 * words.length ≤ 255)
    (m : Module) :
    frameWrites (uart1Input (writeMutiFrame addr reg words) m).rx.data =
      writesTo addr (registerSequence reg words) := by
  have hreg : startReg (uart1Input (writeMutiFrame addr reg words) m).rx.data = reg := word_bytes reg
  have hcmd : (uart1Input (writeMutiFrame addr reg words) m).rx.data 1 = writeMuti := rfl
  have hcount : (regCount (uart1Input (writeMutiFrame addr reg words) m).rx.data).toNat =
      words.length := by
    rw [regCount_eq]
    exact Nat.mod_eq_of_lt (by omega)
  have hwindow : window (uart1Input (writeMutiFrame addr reg words) m).rx.data
      (writeMutiFrame addr reg words).length = writeMutiFrame addr reg words :=
    Buffer.window_store ..
  have hwords : ((List.range words.length).map fun i =>
      (reg + BitVec.ofNat 16 i, wordAt (uart1Input (writeMutiFrame addr reg words) m).rx.data 7 i)) =
        registerSequence reg words := by
    apply List.ext_getElem (by simp [registerSequence])
    intro i _ hi
    have hi : i < words.length := by simpa [registerSequence] using hi
    have hword : wordAt (uart1Input (writeMutiFrame addr reg words) m).rx.data 7 i = words[i] :=
      wordAt_of_window hwindow hi
    simp [registerSequence, hword]
  have hsingle : ¬(uart1Input (writeMutiFrame addr reg words) m).rx.data 1 = writeSingle := by
    rw [hcmd]
    decide
  rw [frameWrites, commandWrites, if_neg hsingle, if_pos hcmd, hreg, hcount, ← hwords]
  rfl

theorem writeRegisters_kept (writes : List (U16 × U16)) (m : Module) :
    Kept m (writeRegisters writes m) := by
  induction writes generalizing m with
  | nil => exact .refl m
  | cons w rest ih => exact (writeRegister_kept w.1 w.2 m).trans (ih _)

theorem run_writeSingles (allocs : Nat → Alloc) (hregistered : m.info.registerState = yes)
    (haddr : addr = m.info.addr ∨ addr = 0x00) (writes : List (U16 × U16)) :
    (run (writeSingles allocs addr writes) m).registers =
      (writeRegisters (writesTo addr writes) m).registers := by
  induction writes generalizing allocs m with
  | nil =>
    unfold writesTo
    split <;> rfl
  | cons w rest ih =>
    have hfirst := run_deliver (toModule_writeSingle haddr w.1 w.2) hregistered (allocs 0)
    rw [frameWrites_writeSingle] at hfirst
    have hinfo := congrArg Prod.fst hfirst
    have hkept := writeRegisters_kept (writesTo addr [w]) m
    have hwrites : writesTo addr (w :: rest) = writesTo addr [w] ++ writesTo addr rest := by
      unfold writesTo
      split <;> rfl
    rw [writeSingles, run, Machine.run_append, hwrites, writeRegisters, List.foldl_append]
    refine (ih _ ?_ ?_).trans (writeRegisters_registers hfirst _)
    · exact (congrArg TypeInfo.registerState hinfo).trans (hkept.registerState.trans hregistered)
    · rw [show (Machine.run step _ m).info = _ from hinfo]
      exact hkept.addr ▸ haddr

/-- One write of several registers leaves what as many writes of one leave, in a
registered module, from any register on, with the clock standing still. -/
theorem multi_write_eq_single (alloc : Alloc) (allocs : Nat → Alloc)
    (hregistered : m.info.registerState = yes) (haddr : addr = m.info.addr ∨ addr = 0x00)
    (reg : U16) (words : List U16) (hlen : 9 + 2 * words.length ≤ 255) :
    (run (deliver alloc (writeMutiFrame addr reg words)) m).registers =
      (run (writeSingles allocs addr (registerSequence reg words)) m).registers := by
  have hmulti := run_deliver (toModule_writeMuti haddr reg hlen) hregistered alloc
  rw [frameWrites_writeMuti addr reg hlen] at hmulti
  exact hmulti.trans (run_writeSingles allocs hregistered haddr _).symm

theorem multi_write_eq_single_time :
    (run (deliver ⟨true, true⟩ (writeMutiFrame 0x00 0x0009 [0x6553, 0xF100]))
        (run registered blank)).registers =
      (run (writeSingles (fun _ => ⟨true, true⟩) 0x00 [(0x0009, 0x6553), (0x000A, 0xF100)])
        (run registered blank)).registers :=
  multi_write_eq_single _ _ (by decide +kernel) (.inr rfl) 0x0009 [0x6553, 0xF100] (by decide)

end Hvac
