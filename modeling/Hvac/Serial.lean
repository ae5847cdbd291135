import Hvac.Run
import Hvac.Lib.Ring

/-!
# The serial driver

`drv_usart.c` and `serial.c`, less everything but reception by DMA into a
circular buffer: the idle interrupt, the indices of the receive FIFO, and the
read `Uart1_input` makes. `rt_size_t` and `int` have 32 bits.
-/

namespace Hvac

open Buffer (window)

-- ---------------------------------------------------------------------------
-- The receive FIFO
-- ---------------------------------------------------------------------------

/-- `struct rt_serial_rx_fifo`. -/
structure RxFifo where
  buffer : Nat → U8 := fun _ => 0
  putIndex : U16 := 0
  getIndex : U16 := 0
  isFull : Bool := false

/-- `RT_SERIAL_RB_BUFSZ`, in the 16-bit field of the configuration. -/
def bufsz : U16 := 256

def serialFifoCalcRecvedLen (fifo : RxFifo) : U32 :=
  if fifo.putIndex = fifo.getIndex then if fifo.isFull then bufsz.setWidth 32 else 0
  else if fifo.putIndex > fifo.getIndex then
    fifo.putIndex.setWidth 32 - fifo.getIndex.setWidth 32
  else bufsz.setWidth 32 - (fifo.getIndex.setWidth 32 - fifo.putIndex.setWidth 32)

def rtDmaRecvUpdateGetIndex (len : U32) (fifo : RxFifo) : RxFifo :=
  let getIndex := fifo.getIndex + len.setWidth 16
  { fifo with
    isFull := if fifo.isFull ∧ len ≠ 0 then false else fifo.isFull
    getIndex := if getIndex ≥ bufsz then getIndex % bufsz else getIndex }

def rtDmaRecvUpdatePutIndex (len : U32) (fifo : RxFifo) : RxFifo :=
  let putIndex := fifo.putIndex + len.setWidth 16
  let fifo :=
    if fifo.getIndex ≤ fifo.putIndex then
      if putIndex ≥ bufsz then
        { fifo with
          putIndex := putIndex % bufsz
          isFull := if putIndex % bufsz ≥ fifo.getIndex then true else fifo.isFull }
      else { fifo with putIndex }
    else if putIndex ≥ fifo.getIndex then
      { fifo with
        putIndex := if putIndex ≥ bufsz then putIndex % bufsz else putIndex
        isFull := true }
    else { fifo with putIndex }
  -- what was not read is overwritten
  if fifo.isFull then { fifo with getIndex := fifo.putIndex } else fifo

/-- `_serial_dma_rx`: the bytes that are copied out, in one piece or in two. -/
def serialDmaRx (length : U32) (fifo : RxFifo) : List U8 × RxFifo :=
  let fifoRecvedLen := serialFifoCalcRecvedLen fifo
  let recvLen := if length.toInt < fifoRecvedLen.toInt then length else fifoRecvedLen
  let getIndex : U32 := fifo.getIndex.setWidth 32
  let tail := fun i => fifo.buffer (fifo.getIndex.toNat + i)
  let data :=
    if getIndex + recvLen < bufsz.setWidth 32 then window tail recvLen.toNat
    else
      window tail (bufsz.setWidth 32 - getIndex).toNat ++
        window fifo.buffer (recvLen + getIndex - bufsz.setWidth 32).toNat
  (data, rtDmaRecvUpdateGetIndex recvLen fifo)

def rtSerialRead (size : U32) (fifo : RxFifo) : List U8 × RxFifo :=
  if size = 0 then ([], fifo) else serialDmaRx size fifo

-- ---------------------------------------------------------------------------
-- Interrupts
-- ---------------------------------------------------------------------------

def rtSerialEventRxDmadone : U32 := 0x03

/-- `rt_hw_serial_isr`: what `rx_indicate` is called with. The event is an `int`,
and the length in it is shifted back with its sign. Of the events only the end
of a reception by DMA matters here. -/
def rtHwSerialIsr (event : U32) (fifo : RxFifo) : Option U32 × RxFifo :=
  if event &&& 0xFF = rtSerialEventRxDmadone then
    let length := (event &&& ~~~(0xFF : U32)).sshiftRight 8
    let fifo := rtDmaRecvUpdatePutIndex length fifo
    (some (serialFifoCalcRecvedLen fifo), fifo)
  else (none, fifo)

/-- The line: the FIFO, what the DMA controller has stored in its buffer since it
was started, and `last_index` of the driver. -/
structure SerialLine where
  fifo : RxFifo := {}
  stored : Nat := 0
  lastIndex : U32 := 0

/-- The DMA controller stores bytes as they come, around and around. -/
def dmaStore (bytes : List U8) (line : SerialLine) : SerialLine :=
  { line with
    fifo.buffer := Ring.put bufsz.toNat line.stored bytes line.fifo.buffer
    stored := line.stored + bytes.length }

/-- `__HAL_DMA_GET_COUNTER`: what is left of the current turn. -/
def dmaGetCounter (line : SerialLine) : U32 :=
  BitVec.ofNat 32 (bufsz.toNat - line.stored % bufsz.toNat)

/-- `uart_isr` at an idle line. -/
def uartIsr (line : SerialLine) : Option U32 × SerialLine :=
  let recvTotalIndex := bufsz.setWidth 32 - dmaGetCounter line
  let recvLen := recvTotalIndex - line.lastIndex
  let line := { line with lastIndex := recvTotalIndex }
  if recvLen ≠ 0 then
    let (told, fifo) := rtHwSerialIsr (rtSerialEventRxDmadone ||| recvLen <<< 8) line.fifo
    (told, { line with fifo })
  else (none, line)

-- ---------------------------------------------------------------------------
-- The callback
-- ---------------------------------------------------------------------------

/-- `Uart1_input` with the size it is told and the bytes its read gave. -/
def uart1Indicated (size : Nat) (read : List U8) (m : Module) : Module :=
  let data := Buffer.store read m.rx.data
  { m with rx :=
    { size := size
      data := data
      messageFlag :=
        if 2 ≤ size ∧ CrcOk data size ∧
            (data 0 = registerCode ∨ data 0 = 0x00 ∨ data 0 = m.info.addr) then yes
        else m.rx.messageFlag } }

/-- The idle interrupt, down to the callback: what the callback is told and
reads, if it is called, and the line after it. -/
def idleInterrupt (line : SerialLine) : Option (Nat × List U8) × SerialLine :=
  match uartIsr line with
  | (none, line) => (none, line)
  | (some size, line) =>
    let (read, fifo) := rtSerialRead size line.fifo
    (some (size.toNat, read), { line with fifo })

structure Receiver where
  line : SerialLine
  module : Module

/-- A frame arrives, and the idle interrupt after it is handled. -/
def frameStep (frame : List U8) (r : Receiver) : Receiver where
  line := (idleInterrupt (dmaStore frame r.line)).2
  module :=
    match (idleInterrupt (dmaStore frame r.line)).1 with
    | none => r.module
    | some (size, read) => uart1Indicated size read r.module

def delivers (frame : List U8) (r : Receiver) : Option (Nat × List U8) :=
  (idleInterrupt (dmaStore frame r.line)).1

end Hvac
