import Hvac.Serial

/-!
# Framing

Between two frames the line is idle: all that was stored has been reported and
read, and the four positions, of the DMA controller, of the driver and of the
two indices, agree. A frame that goes around less than once moves them together,
whether or not it passes the end of the buffer.
-/

namespace Hvac

open Buffer (window)

/-- Everything stored has been reported and read. -/
structure SerialLine.Idle (line : SerialLine) : Prop where
  put : line.fifo.putIndex.toNat = line.stored % 256
  get : line.fifo.getIndex.toNat = line.stored % 256
  last : line.lastIndex.toNat = line.stored % 256
  notFull : line.fifo.isFull = false

/-- The idle line after so many bytes; with none it is the line just opened. -/
def idleAt (stored : Nat) (buffer : Nat → U8) : SerialLine where
  fifo :=
    { buffer
      putIndex := BitVec.ofNat 16 (stored % 256)
      getIndex := BitVec.ofNat 16 (stored % 256) }
  stored := stored
  lastIndex := BitVec.ofNat 32 (stored % 256)

theorem idleAt_idle (stored : Nat) (buffer : Nat → U8) : (idleAt stored buffer).Idle := by
  have hindex : (BitVec.ofNat 16 (stored % 256)).toNat = stored % 256 := by
    rw [BitVec.toNat_ofNat]
    omega
  refine ⟨hindex, hindex, ?_, rfl⟩
  simp only [idleAt, BitVec.toNat_ofNat]
  omega

-- ---------------------------------------------------------------------------
-- The event
-- ---------------------------------------------------------------------------

theorem shiftLeft_and_low (len : U32) : len <<< 8 &&& 0xFF = 0 := by
  have hmask : BitVec.toNat (0xFF : U32) = 2 ^ 8 - 1 := rfl
  have hzero : BitVec.toNat (0 : U32) = 0 := rfl
  apply BitVec.eq_of_toNat_eq
  rw [BitVec.toNat_and, BitVec.toNat_shiftLeft, hmask, hzero, Nat.and_two_pow_sub_one_eq_mod,
    Nat.shiftLeft_eq]
  omega

theorem and_not_of_and {x y : BitVec w} (h : x &&& y = 0) : x &&& ~~~y = x := by
  ext i hi
  have hbit : (x &&& y)[i] = (0 : BitVec w)[i] := by rw [h]
  simp at hbit ⊢
  exact hbit

theorem event_code (len : U32) :
    (rtSerialEventRxDmadone ||| len <<< 8) &&& 0xFF = rtSerialEventRxDmadone := by
  rw [BitVec.and_comm, BitVec.and_or_distrib_left, BitVec.and_comm _ (len <<< 8),
    shiftLeft_and_low]
  rfl

/-- Shifted into the event and back, with whatever sign, the length keeps its low half. -/
theorem event_length (len : U32) :
    (((rtSerialEventRxDmadone ||| len <<< 8) &&& ~~~(0xFF : U32)).sshiftRight 8).setWidth 16 =
      (len.setWidth 16 : U16) := by
  have hcode : ~~~(0xFF : U32) &&& rtSerialEventRxDmadone = 0 := rfl
  rw [BitVec.and_comm, BitVec.and_or_distrib_left, hcode, BitVec.and_comm _ (len <<< 8),
    and_not_of_and (shiftLeft_and_low len)]
  ext i hi
  have hin : 8 + i < 32 := by omega
  have hpast : ¬8 + i < 8 := by omega
  have hbit : i < 32 := by omega
  simp [BitVec.getElem_sshiftRight, hin, hpast, BitVec.getLsbD_eq_getElem hbit]

-- ---------------------------------------------------------------------------
-- The indices
-- ---------------------------------------------------------------------------

theorem toNat_bufsz : bufsz.toNat = 256 := rfl

theorem toNat_setWidth_bufsz : (bufsz.setWidth 32 : U32).toNat = 256 := rfl

/-- The index a stream position has in the buffer. -/
theorem recvTotalIndex_toNat (line : SerialLine) :
    (bufsz.setWidth 32 - dmaGetCounter line).toNat = line.stored % 256 := by
  rw [dmaGetCounter, BitVec.toNat_sub, BitVec.toNat_ofNat, toNat_setWidth_bufsz, toNat_bufsz]
  omega

/-- From one position in the buffer to another, by the cut difference of the two. -/
theorem advance_toNat {p q : U32} {put : U16} (hput : put.toNat = p.toNat) (hp : p.toNat < 256)
    (hq : q.toNat < 256) : (put + (q - p).setWidth 16).toNat = q.toNat := by
  rw [BitVec.toNat_add, BitVec.toNat_setWidth, BitVec.toNat_sub, hput]
  omega

/-- A reported length that leads to a position in the buffer overwrites nothing. -/
theorem rtHwSerialIsr_dmadone {fifo : RxFifo} {len : U32} (hget : fifo.getIndex = fifo.putIndex)
    (hfull : fifo.isFull = false) (hput : (fifo.putIndex + len.setWidth 16).toNat < 256) :
    rtHwSerialIsr (rtSerialEventRxDmadone ||| len <<< 8) fifo =
      (some (serialFifoCalcRecvedLen { fifo with putIndex := fifo.putIndex + len.setWidth 16 }),
        { fifo with putIndex := fifo.putIndex + len.setWidth 16 }) := by
  have hroom : ¬fifo.putIndex + len.setWidth 16 ≥ bufsz := by
    rw [ge_iff_le, BitVec.le_def, toNat_bufsz]
    omega
  have hupdate (len' : U32) (hlen : (len'.setWidth 16 : U16) = len.setWidth 16) :
      rtDmaRecvUpdatePutIndex len' fifo =
        { fifo with putIndex := fifo.putIndex + len.setWidth 16 } := by
    unfold rtDmaRecvUpdatePutIndex
    rw [hlen, hget]
    simp [hroom, hfull]
  simp only [rtHwSerialIsr, event_code, if_pos, hupdate _ (event_length len)]

/-- What is between the indices, on either side of the end. -/
theorem recvedLen_toNat {fifo : RxFifo} (hget : fifo.getIndex.toNat < 256)
    (hput : fifo.putIndex.toNat = (fifo.getIndex.toNat + n) % 256) (hpos : 0 < n) (hn : n < 256) :
    (serialFifoCalcRecvedLen fifo).toNat = n := by
  have hne : fifo.putIndex ≠ fifo.getIndex := by
    intro heq
    rw [heq] at hput
    omega
  unfold serialFifoCalcRecvedLen
  rw [if_neg hne]
  split
  · rename_i hlt
    rw [gt_iff_lt, BitVec.lt_def] at hlt
    simp only [BitVec.toNat_sub, BitVec.toNat_setWidth]
    omega
  · rename_i hlt
    rw [gt_iff_lt, BitVec.lt_def] at hlt
    simp only [BitVec.toNat_sub, BitVec.toNat_setWidth, toNat_bufsz]
    omega

/-- A read of all there is gives it in order. -/
theorem serialDmaRx_data {fifo : RxFifo} (hget : fifo.getIndex.toNat < 256)
    (hlen : (serialFifoCalcRecvedLen fifo).toNat < 256) :
    (serialDmaRx (serialFifoCalcRecvedLen fifo) fifo).1 =
      Ring.get 256 fifo.getIndex.toNat (serialFifoCalcRecvedLen fifo).toNat fifo.buffer := by
  rw [Ring.get_eq_window hget (Nat.le_of_lt hlen)]
  simp only [serialDmaRx, ite_self]
  generalize serialFifoCalcRecvedLen fifo = len at hlen
  have hone : (fifo.getIndex.setWidth 32 + len < bufsz.setWidth 32) ↔
      fifo.getIndex.toNat + len.toNat < 256 := by
    rw [BitVec.lt_def, BitVec.toNat_add, BitVec.toNat_setWidth, toNat_setWidth_bufsz]
    omega
  have hfirst : (bufsz.setWidth 32 - fifo.getIndex.setWidth 32 : U32).toNat =
      256 - fifo.getIndex.toNat := by
    rw [BitVec.toNat_sub, BitVec.toNat_setWidth, toNat_setWidth_bufsz]
    omega
  rw [if_congr hone rfl rfl, hfirst]
  split
  · rfl
  · have hsecond : (len + fifo.getIndex.setWidth 32 - bufsz.setWidth 32 : U32).toNat =
        fifo.getIndex.toNat + len.toNat - 256 := by
      rw [BitVec.toNat_sub, toNat_setWidth_bufsz, BitVec.toNat_add, BitVec.toNat_setWidth]
      omega
    rw [hsecond]

/-- It leaves the get index behind what it gave, and nothing else changed. -/
theorem serialDmaRx_fifo {fifo : RxFifo} (hget : fifo.getIndex.toNat < 256)
    (hlen : (serialFifoCalcRecvedLen fifo).toNat < 256) (hfull : fifo.isFull = false) :
    (serialDmaRx (serialFifoCalcRecvedLen fifo) fifo).2.getIndex.toNat =
        (fifo.getIndex.toNat + (serialFifoCalcRecvedLen fifo).toNat) % 256 ∧
      (serialDmaRx (serialFifoCalcRecvedLen fifo) fifo).2.putIndex = fifo.putIndex ∧
      (serialDmaRx (serialFifoCalcRecvedLen fifo) fifo).2.isFull = false := by
  simp only [serialDmaRx, ite_self, rtDmaRecvUpdateGetIndex]
  generalize serialFifoCalcRecvedLen fifo = len at hlen
  have hsum : (fifo.getIndex + len.setWidth 16).toNat = fifo.getIndex.toNat + len.toNat := by
    rw [BitVec.toNat_add, BitVec.toNat_setWidth]
    omega
  refine ⟨?_, trivial, by simp [hfull]⟩
  split
  · rw [BitVec.toNat_umod, hsum, toNat_bufsz]
  · rename_i hlt
    rw [ge_iff_le, BitVec.le_def, hsum, toNat_bufsz] at hlt
    rw [hsum]
    omega

-- ---------------------------------------------------------------------------
-- One frame
-- ---------------------------------------------------------------------------

/-- The FIFO once the frame is reported. -/
def reportedFifo (frame : List U8) (line : SerialLine) : RxFifo :=
  let line := dmaStore frame line
  let recvLen := bufsz.setWidth 32 - dmaGetCounter line - line.lastIndex
  { line.fifo with putIndex := line.fifo.putIndex + recvLen.setWidth 16 }

theorem reportedFifo_putIndex (h : line.Idle) (frame : List U8) :
    (reportedFifo frame line).putIndex.toNat = (line.stored + frame.length) % 256 := by
  have htotal := recvTotalIndex_toNat (dmaStore frame line)
  have hput : line.fifo.putIndex.toNat = line.lastIndex.toNat := h.put.trans h.last.symm
  have hlast := h.last
  exact (advance_toNat hput (by omega) (by omega)).trans htotal

theorem uartIsr_frame (h : line.Idle) (hpos : 0 < frame.length) (hlen : frame.length < 256) :
    uartIsr (dmaStore frame line) =
      (some (serialFifoCalcRecvedLen (reportedFifo frame line)),
        { dmaStore frame line with
          fifo := reportedFifo frame line
          lastIndex := bufsz.setWidth 32 - dmaGetCounter (dmaStore frame line) }) := by
  have htotal := recvTotalIndex_toNat (dmaStore frame line)
  have hstored : (dmaStore frame line).stored = line.stored + frame.length := rfl
  have hlast : (dmaStore frame line).lastIndex.toNat = line.stored % 256 := h.last
  have hget : (dmaStore frame line).fifo.getIndex = (dmaStore frame line).fifo.putIndex :=
    BitVec.eq_of_toNat_eq (h.get.trans h.put.symm)
  have hput := reportedFifo_putIndex h frame
  have hmoved : bufsz.setWidth 32 - dmaGetCounter (dmaStore frame line) -
      (dmaStore frame line).lastIndex ≠ 0 := by
    intro hzero
    have hsame := (BitVec.sub_eq_iff_eq_add.mp hzero).trans (BitVec.zero_add _)
    rw [hsame, hlast] at htotal
    omega
  have hroom : (reportedFifo frame line).putIndex.toNat < 256 := by omega
  unfold uartIsr
  dsimp only
  rw [if_pos hmoved, rtHwSerialIsr_dmadone hget h.notFull hroom]
  rfl

/-- The interrupt after a frame reports its length, and reads the frame. -/
theorem idleInterrupt_frame (h : line.Idle) (hpos : 0 < frame.length) (hlen : frame.length < 256) :
    (idleInterrupt (dmaStore frame line)).1 = some (frame.length, frame) ∧
      (idleInterrupt (dmaStore frame line)).2.Idle := by
  have hput := reportedFifo_putIndex h frame
  have hget : (reportedFifo frame line).getIndex.toNat = line.stored % 256 := h.get
  have hlt : (reportedFifo frame line).getIndex.toNat < 256 := by omega
  have htold : (serialFifoCalcRecvedLen (reportedFifo frame line)).toNat = frame.length :=
    recvedLen_toNat hlt (by omega) hpos hlen
  have hsize : serialFifoCalcRecvedLen (reportedFifo frame line) ≠ 0 := by
    intro hzero
    rw [hzero] at htold
    exact absurd htold (Nat.ne_of_lt hpos)
  have hdata := serialDmaRx_data hlt (by omega)
  have hfifo := serialDmaRx_fifo hlt (by omega) h.notFull
  rw [htold, hget] at hdata
  have hread : Ring.get 256 (line.stored % 256) frame.length (reportedFifo frame line).buffer =
      frame := by
    rw [Ring.get_mod]
    exact Ring.get_put (Nat.le_of_lt hlen) line.stored line.fifo.buffer
  unfold idleInterrupt
  rw [uartIsr_frame h hpos hlen]
  dsimp only
  rw [rtSerialRead, if_neg hsize]
  constructor
  · rw [htold, hdata, hread]
  · have hgot : (line.stored % 256 + frame.length) % 256 = (line.stored + frame.length) % 256 :=
      Nat.mod_add_mod ..
    refine ⟨?_, ?_, recvTotalIndex_toNat _, hfifo.2.2⟩
    · rw [hfifo.2.1]
      exact hput
    · rw [hfifo.1, htold, hget]
      exact hgot

theorem uart1Indicated_length (read : List U8) (m : Module) :
    uart1Indicated read.length read m = uart1Input read m := rfl

theorem frameStep_idle (h : r.line.Idle) (hpos : 0 < frame.length) (hlen : frame.length < 256) :
    (frameStep frame r).line.Idle ∧ (frameStep frame r).module = uart1Input frame r.module ∧
      delivers frame r = some (frame.length, frame) := by
  obtain ⟨hsome, hidle⟩ := idleInterrupt_frame h hpos hlen
  refine ⟨hidle, ?_, hsome⟩
  simp only [frameStep, hsome]
  exact uart1Indicated_length frame r.module

-- ---------------------------------------------------------------------------
-- Any frames
-- ---------------------------------------------------------------------------

theorem frames_delivered (h : r.line.Idle) (hframes : ∀ f ∈ frames, 0 < f.length ∧ f.length < 256) :
    Machine.trace frameStep delivers frames r = frames.map (fun f => (f.length, f)) ∧
      (Machine.run frameStep frames r).line.Idle ∧
      (Machine.run frameStep frames r).module = run (frames.map .input) r.module := by
  induction frames generalizing r with
  | nil => exact ⟨rfl, h, rfl⟩
  | cons frame rest ih =>
    obtain ⟨hpos, hlen⟩ := hframes frame List.mem_cons_self
    obtain ⟨hidle, hmodule, hout⟩ := frameStep_idle h hpos hlen
    obtain ⟨htrace, hline, hrun⟩ := ih hidle fun f hf => hframes f (List.mem_cons_of_mem _ hf)
    refine ⟨?_, hline, ?_⟩
    · simp [hout, htrace]
    · rw [Machine.run_cons, hrun, hmodule]
      rfl

/-- Wherever in the buffer the first frame begins and whatever it holds: every frame
of 1 to 255 bytes is delivered with its length and its bytes, and the module
receives it as one chunk. -/
theorem framing_exact (stored : Nat) (buffer : Nat → U8) (m : Module) (frames : List (List U8))
    (hframes : ∀ f ∈ frames, 1 ≤ f.length ∧ f.length ≤ 255) :
    Machine.trace frameStep delivers frames ⟨idleAt stored buffer, m⟩ =
        frames.map (fun f => (f.length, f)) ∧
      (Machine.run frameStep frames ⟨idleAt stored buffer, m⟩).module =
        run (frames.map .input) m := by
  have hall := frames_delivered (r := ⟨idleAt stored buffer, m⟩) (idleAt_idle stored buffer)
    fun f hf => ⟨(hframes f hf).1, Nat.lt_succ_of_le (hframes f hf).2⟩
  exact ⟨hall.1, hall.2.2⟩

/-- The first frame begins at the last byte of the buffer. -/
theorem framing_exact_wrap :
    Machine.trace frameStep delivers [[0x01, 0x02], [0x03, 0x04, 0x05]]
        ⟨idleAt 255 fun _ => 0, blank⟩ =
      [(2, [0x01, 0x02]), (3, [0x03, 0x04, 0x05])] :=
  (framing_exact 255 (fun _ => 0) blank [[0x01, 0x02], [0x03, 0x04, 0x05]] (by decide)).1

end Hvac
