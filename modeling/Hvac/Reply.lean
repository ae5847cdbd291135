import Hvac.Invariants

/-!
# Replies

What a module says on the bus. A read is answered in full as long as the answer
fits a queued message (`read_answered`), the buffer an answer is built in is
large enough as long as its length fits a byte (`reply_inBounds`), and what is
queued is a valid frame as long as an echoed frame has eight bytes
(`sent_frames_valid`).
-/

namespace Hvac

open Buffer (window)
open Machine (Within)

-- ---------------------------------------------------------------------------
-- Reads
-- ---------------------------------------------------------------------------

/-- A correct eight-byte read of `n` registers from `reg` on, sent to `addr`. -/
structure ReadFrame (data : Nat → U8) (addr : U8) (reg : U16) (n : Nat) : Prop where
  addr : data 0 = addr
  cmd : data 1 = readMuti
  reg : startReg data = reg
  count : word (data 4) (data 5) = BitVec.ofNat 16 n
  crc : CrcOk data 8

/-- Exactly one reply waits, the full answer to a read: the words are those that as
many reads of one register each return. -/
def AnsweredInFull (addr : U8) (reg : U16) (n : Nat) (m m' : Module) : Prop :=
  ∃ reply, m'.sendMsgList = [reply] ∧ reply.len = 2 * n + 5 ∧
    reply.body = sealFrame ([addr, readMuti, BitVec.ofNat 8 n] ++ wordBytes (registerWords reg m n))

theorem regCount_of_readFrame (h : ReadFrame data a r n) : regCount data = BitVec.ofNat 8 n := by
  have hcount := congrArg (BitVec.setWidth 8) h.count
  rw [BitVec.setWidth_ofNat_of_le (by decide)] at hcount
  exact hcount

theorem answerOf_readFrame (h : ReadFrame data a r n) (hn : n ≤ 125) :
    answerOf ⟨true, true⟩ data m = some
      (sealFrame ([a, readMuti, BitVec.ofNat 8 n] ++ wordBytes (readWords r m n))) := by
  have hcount : (BitVec.ofNat 8 n).toNat = n := by
    rw [BitVec.toNat_ofNat]
    omega
  have hlen : (replyLen (BitVec.ofNat 8 n)).toNat = 2 * n + 5 := by
    rw [toNat_replyLen, hcount]
    omega
  rw [answerOf, if_pos h.cmd, if_pos rfl, regCount_of_readFrame h, hlen, List.take_of_length_le]
  · rw [readAnswer, h.addr, h.cmd, h.reg, hcount]
  · rw [length_readAnswer, hcount]

/-- Frames of words behind the same bytes are the same only if the words are. -/
theorem sealFrame_words_inj (hlen : words.length = words'.length)
    (h : sealFrame (front ++ wordBytes words) = sealFrame (front ++ wordBytes words')) :
    words = words' := by
  have hlength : (front ++ wordBytes words).length = (front ++ wordBytes words').length := by
    simp [hlen]
  have hfront : front ++ wordBytes words = front ++ wordBytes words' :=
    List.append_inj_left h hlength
  exact wordBytes_inj (List.append_cancel_left hfront)

/-- A registered module with an empty send list and memory to spare answers a
read of one to 125 registers in full exactly when there are at most seven, its
address does not make the frame a registration frame, and the registers read do
not go from 0x0008 to 0x0009 or from 0xEFFF to 0xF000. -/
theorem read_answered (hstate : m.info.registerState ≠ no) (hempty : m.sendMsgList = [])
    (hn : 1 ≤ n ∧ n ≤ 125) (h : ReadFrame data m.info.addr reg n) :
    AnsweredInFull m.info.addr reg n m (uart1Analysis ⟨true, true⟩ data 8 m).module ↔
      n ≤ 7 ∧ m.info.addr ≠ registerCode ∧ ¬StepsIntoReports reg n := by
  have hok : FrameOk data 8 := ⟨by decide, h.crc⟩
  have hanswer := answerOf_readFrame (m := m) h hn.2
  have hlength : (sealFrame ([m.info.addr, readMuti, BitVec.ofNat 8 n] ++
      wordBytes (readWords reg m n))).length = 2 * n + 5 := by
    simp
  by_cases hcode : m.info.addr = registerCode
  · -- a registration frame queues nothing
    have hsilent : (uart1Analysis ⟨true, true⟩ data 8 m).module.sendMsgList = [] := by
      rw [uart1Analysis_register hok (h.addr.trans hcode)]
      rcases register_cases data m with ⟨-, -, hr⟩ | ⟨-, hr⟩ <;> rw [hr] <;> exact hempty
    refine iff_of_false ?_ fun hand => hand.2.1 hcode
    rintro ⟨reply, hone, -⟩
    cases hsilent.symm.trans hone
  · have hd : Dispatches data 8 m :=
      ⟨hok, fun he => hcode (h.addr.symm.trans he), hstate, .inl h.addr⟩
    rw [uart1Analysis_dispatch hd]
    have hqueued (hfits : n ≤ 7) := modbusCommandAnalysis_queued hanswer
      (by rw [hlength, msgSize]; omega) hempty
    constructor
    · rintro ⟨reply, hone, hlen, hbody⟩
      have hfits : n ≤ 7 := by
        have hroom := reply.fits
        rw [← Msg.len, hlen, msgSize] at hroom
        omega
      have hreply := List.head_eq_of_cons_eq ((hqueued hfits).symm.trans hone)
      rw [← hreply] at hbody
      exact ⟨hfits, hcode, readWords_eq_registerWords.mp (sealFrame_words_inj (by simp) hbody)⟩
    · rintro ⟨hfits, -, hsteps⟩
      have hwords : readWords reg m n = registerWords reg m n :=
        readWords_eq_registerWords.mpr hsteps
      exact ⟨_, hqueued hfits, hlength,
        congrArg (fun words => sealFrame ([m.info.addr, readMuti, BitVec.ofNat 8 n] ++
          wordBytes words)) hwords⟩

def readSettings (n : U8) : Nat → U8 :=
  Buffer.store (sealFrame [0x01, 0x03, 0x04, 0x07, 0x00, n]) fun _ => 0

theorem read_answered_two :
    AnsweredInFull (run registered blank).info.addr 0x0407 2 (run registered blank)
      (uart1Analysis ⟨true, true⟩ (readSettings 2) 8 (run registered blank)).module :=
  (read_answered (m := run registered blank) (by decide +kernel) (by decide +kernel) (by decide)
    ⟨by decide +kernel, rfl, rfl, rfl, by decide +kernel⟩).mpr
      ⟨by decide, by decide +kernel, by decide⟩

theorem read_answered_fails :
    ReadFrame (readSettings 8) (run registered blank).info.addr 0x0407 8 ∧
      (run registered blank).info.registerState ≠ no ∧ (run registered blank).sendMsgList = [] ∧
      ¬AnsweredInFull (run registered blank).info.addr 0x0407 8 (run registered blank)
        (uart1Analysis ⟨true, true⟩ (readSettings 8) 8 (run registered blank)).module := by
  refine ⟨⟨by decide +kernel, rfl, rfl, rfl, by decide +kernel⟩, by decide +kernel,
    by decide +kernel, ?_⟩
  rintro ⟨reply, hone, -⟩
  have hnone : (uart1Analysis ⟨true, true⟩ (readSettings 8) 8
      (run registered blank)).module.sendMsgList = [] := by decide +kernel
  cases hnone.symm.trans hone

-- ---------------------------------------------------------------------------
-- The reply buffer
-- ---------------------------------------------------------------------------

/-- For any frame, state and memory: the accesses stay inside the buffer unless a
read that is carried out declares, in its low byte, more than 125 registers. -/
theorem reply_inBounds (alloc : Alloc) (data : Nat → U8) (len : U8) (m : Module) :
    (uart1Analysis alloc data len m).InBounds ↔
      ¬(Dispatches data len m ∧ data 1 = readMuti ∧ alloc.malloc ∧ 125 < (regCount data).toNat) := by
  have hnone (m' : Module) : (⟨m', none⟩ : Outcome).InBounds := fun _ h => by cases h
  rcases uart1Analysis_cases alloc data len m with ⟨-, hcode, he⟩ | ⟨hd, he⟩ | ⟨-, hd, he⟩
  · rw [he]
    exact iff_of_true (hnone _) fun hbad => hbad.1.2.1 hcode
  · rw [he]
    refine (modbusCommandAnalysis_inBounds alloc data m).trans ⟨?_, ?_⟩
    · rintro h ⟨-, hread, halloc, hlong⟩
      exact Nat.not_le_of_lt hlong (h hread halloc)
    · intro h hread halloc
      by_contra hlong
      exact h ⟨hd, hread, halloc, Nat.lt_of_not_le hlong⟩
  · rw [he]
    exact iff_of_true (hnone _) fun hbad => hd hbad.1

/-- A read of 126 registers gets a buffer of one byte. -/
theorem reply_inBounds_fails :
    ¬(uart1Analysis ⟨true, true⟩ (readSettings 126) 8 (run registered blank)).InBounds := by
  decide +kernel

-- ---------------------------------------------------------------------------
-- What goes out on the bus
-- ---------------------------------------------------------------------------

/-- A frame another module would take: at most a message long, and its last two
bytes are the CRC of the others. -/
def ValidFrame (body : List U8) : Prop :=
  4 ≤ body.length ∧ body.length ≤ msgSize ∧ CrcOk (fun i => body.getD i 0) body.length

instance (body : List U8) : Decidable (ValidFrame body) := inferInstanceAs (Decidable (_ ∧ _ ∧ _))

theorem crcOk_iff_sealed (hlen : 2 ≤ len) : CrcOk data len ↔ Sealed (window data len) := by
  obtain ⟨n, rfl⟩ := Nat.exists_eq_add_of_le' hlen
  have hsplit : window data (n + 2) = window data n ++ [data n, data (n + 1)] := by
    rw [Buffer.window_succ, Buffer.window_succ, List.append_assoc]
    rfl
  rw [hsplit]
  exact Checksum.sealed_append_iff.symm

theorem ValidFrame.of_sealed (h : Sealed body) (h₄ : 4 ≤ body.length)
    (h₂₀ : body.length ≤ msgSize) : ValidFrame body := by
  refine ⟨h₄, h₂₀, (crcOk_iff_sealed (Nat.le_of_succ_le (Nat.le_of_succ_le h₄))).mpr ?_⟩
  have hwindow : window (fun i => body.getD i 0) body.length = body :=
    Buffer.window_store body fun _ => 0
  rwa [hwindow]

/-- The steps that do not put an invalid frame on the bus: a single write is
echoed only if its first eight bytes are a frame, as they are when the frame has
eight, and a read that gets a buffer does not declare more registers than the
buffer has room for. -/
def AnswersValid : Event → Module → Prop
  | .poll alloc, m =>
    m.Pending → Dispatches m.rx.data m.handedLen m →
      (m.rx.data 1 = writeSingle → m.rx.data 0 ≠ 0 → alloc.calloc → CrcOk m.rx.data 8) ∧
      (m.rx.data 1 = readMuti → alloc.malloc → (regCount m.rx.data).toNat ≤ 125)
  | _, _ => True

instance : (e : Event) → (m : Module) → Decidable (AnswersValid e m)
  | .poll _, m => by unfold AnswersValid; infer_instance
  | .input _, _ | .every10s _ _, _ | .timeRunning, _ | .controlProgram _, _
  | .monitorConnectedState, _ | .homePage _, _ | .settingPage _, _ | .rtcTick _, _ | .reboot, _ =>
    inferInstanceAs (Decidable True)

theorem generateRegisterData_valid (m : Module) : ValidFrame (generateRegisterData m) :=
  .of_sealed Checksum.sealed_sealFrame (by simp [generateRegisterData])
    (by simp [generateRegisterData, msgSize])

theorem answerOf_valid (h : answerOf alloc data m = some body) (hfits : body.length ≤ msgSize)
    (hsingle : data 1 = writeSingle → data 0 ≠ 0 → CrcOk data 8)
    (hread : data 1 = readMuti → alloc.malloc → (regCount data).toNat ≤ 125) : ValidFrame body := by
  unfold answerOf at h
  by_cases hcmd : data 1 = readMuti
  · rw [if_pos hcmd] at h
    split at h
    · rename_i halloc
      cases h
      have hshort := hread hcmd halloc
      have hlen := toNat_replyLen (regCount data)
      rw [List.length_take, length_readAnswer, msgSize] at hfits
      have hwhole : (replyLen (regCount data)).toNat = 2 * (regCount data).toNat + 5 := by omega
      rw [List.take_of_length_le (by rw [length_readAnswer, hwhole])]
      refine .of_sealed Checksum.sealed_sealFrame ?_ ?_
      · rw [length_readAnswer]
        omega
      · rw [length_readAnswer, msgSize]
        omega
    · cases h
  rw [if_neg hcmd] at h
  by_cases hecho : data 1 = writeSingle
  · rw [if_pos hecho] at h
    split at h
    · cases h
      rename_i haddr
      exact .of_sealed ((crcOk_iff_sealed (by decide)).mp (hsingle hecho haddr)) (by simp)
        (by simp [msgSize])
    · cases h
  rw [if_neg hecho] at h
  split at h
  · split at h
    · cases h
      exact .of_sealed Checksum.sealed_sealFrame (by simp [writeAck]) (by simp [writeAck, msgSize])
    · cases h
  · cases h

theorem step_sendMsgList_valid (hg : AnswersValid e m)
    (h : ∀ msg ∈ m.sendMsgList, ValidFrame msg.body) :
    ∀ msg ∈ (step e m).sendMsgList, ValidFrame msg.body := by
  intro msg hmsg
  rcases mem_step_sendMsgList hmsg with hold | hrequest | ⟨alloc, rfl, hp, hd, hcalloc, ha⟩
  · exact h msg hold
  · rw [hrequest]
    exact generateRegisterData_valid m
  · obtain ⟨hsingle, hread⟩ := hg hp hd
    exact answerOf_valid ha msg.fits (fun hecho haddr => hsingle hecho haddr hcalloc) hread

/-- Along any run from power-up whose single writes and reads are such, every
queued message and everything handed to the serial line is a valid frame. -/
theorem sent_frames_valid (h : Within step AnswersValid events (powerUp flash rtc uniqueId)) :
    (∀ msg ∈ (run events (powerUp flash rtc uniqueId)).sendMsgList, ValidFrame msg.body) ∧
      ∀ body ∈ Machine.trace step sends events (powerUp flash rtc uniqueId), ValidFrame body := by
  have hstart : ∀ msg ∈ (powerUp flash rtc uniqueId).sendMsgList, ValidFrame msg.body :=
    fun msg hmsg => nomatch hmsg
  refine ⟨h.preserves (P := fun m => ∀ msg ∈ m.sendMsgList, ValidFrame msg.body)
    (fun _ _ hg => step_sendMsgList_valid hg) hstart, ?_⟩
  refine h.mem_trace (P := fun m => ∀ msg ∈ m.sendMsgList, ValidFrame msg.body)
    (fun _ _ hg => step_sendMsgList_valid hg) ?_ hstart
  intro e m body hm hsend
  obtain ⟨msg, hmsg, rfl⟩ := sends_eq_some hsend
  exact hm msg hmsg

/-- A registered module gets a write of the day set point, padded with the bytes,
and answers it. -/
def writeAnswered (padding : List U8) : List Event :=
  registered ++ [.input (sealFrame ([0x01, 0x06, 0x04, 0x07, 0x00, 0xFA] ++ padding)),
    .poll ⟨true, true⟩, .poll ⟨true, true⟩]

theorem sent_frames_valid_unpadded :
    Machine.trace step sends (writeAnswered []) (powerUp [] {} fun _ => 0) ≠ [] ∧
      ∀ body ∈ Machine.trace step sends (writeAnswered []) (powerUp [] {} fun _ => 0),
        ValidFrame body :=
  ⟨by decide +kernel, (sent_frames_valid (by decide +kernel)).2⟩

/-- With two bytes of padding the echo ends where the padding does, without a CRC. -/
theorem sent_frames_valid_fails :
    ¬∀ events, ∀ body ∈ Machine.trace step sends events (powerUp [] {} fun _ => 0),
      ValidFrame body := by
  intro h
  exact absurd (h (writeAnswered [0x00, 0x00])) (by decide +kernel)

end Hvac
