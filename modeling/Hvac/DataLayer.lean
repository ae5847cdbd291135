import Hvac.Registers
import Hvac.Lib.Buffer

/-!
# Frames

`UartDataLayer.c`: reception of a frame, its check and dispatch, the three
Modbus commands and the registration request.
-/

namespace Hvac

open Buffer (window Allocation)

def word (high low : U8) : U16 := high.setWidth 16 <<< 8 ||| low.setWidth 16

-- ---------------------------------------------------------------------------
-- Reception
-- ---------------------------------------------------------------------------

/-- The comparison both `Uart1_input` and `Uart1Analysis` make: the last two of
the first `len` bytes are the CRC of those before. -/
def CrcOk (data : Nat → U8) (len : Nat) : Prop :=
  word (data (len - 1)) (data (len - 2)) = usModbusRtuCrc (window data (len - 2))

instance (data : Nat → U8) (len : Nat) : Decidable (CrcOk data len) :=
  inferInstanceAs (Decidable (_ = _))

/-- `Uart1_input` takes the chunk for a frame to this module or to all. -/
def Accepts (m : Module) (chunk : List U8) : Prop :=
  let data := Buffer.store chunk m.rx.data
  2 ≤ chunk.length ∧ CrcOk data chunk.length ∧
    (data 0 = registerCode ∨ data 0 = 0x00 ∨ data 0 = m.info.addr)

instance (m : Module) (chunk : List U8) : Decidable (Accepts m chunk) :=
  inferInstanceAs (Decidable (_ ∧ _ ∧ _))

/-- `Uart1_input`: the buffer and the size are overwritten before any check. -/
def uart1Input (chunk : List U8) (m : Module) : Module :=
  { m with rx :=
    { size := chunk.length
      data := Buffer.store chunk m.rx.data
      messageFlag := if Accepts m chunk then yes else m.rx.messageFlag } }

-- ---------------------------------------------------------------------------
-- Replies
-- ---------------------------------------------------------------------------

structure Alloc where
  malloc : Bool
  calloc : Bool
  deriving DecidableEq, Repr

/-- A state, with the heap buffer a reply was built in, if there was one. The state
is what the code leaves if no access went past that buffer's end. -/
structure Outcome where
  module : Module
  reply : Option (Allocation U8)

/-- `rt_malloc`: a block of `len` bytes. What it holds is not read before it is
written, and what lies behind it, which an access past its end would reach, is not
part of the state. -/
def rtMalloc (len : U8) : Allocation U8 := { size := len.toNat, mem := fun _ => 0 }

/-- Both CRC bytes of the first `n`, each from a computation of its own. -/
def putCrc (n : Nat) (reply : Allocation U8) : Allocation U8 :=
  let reply := (reply.expose n).write n ((usModbusRtuCrc (window reply.mem n)).setWidth 8)
  (reply.expose n).write (n + 1) ((usModbusRtuCrc (window reply.mem n) >>> 8).setWidth 8)

/-- `AddToSendMsgList(reply, len)`, then the end of the reply's life. -/
def sendReply (alloc : Alloc) (len : Nat) (reply : Allocation U8) (m : Module) : Outcome where
  module := { m with sendMsgList := queue alloc.calloc (window reply.mem len) m.sendMsgList }
  reply := some (reply.expose len)

-- ---------------------------------------------------------------------------
-- Commands
-- ---------------------------------------------------------------------------

/-- The loop of `READ_MUTI` after its first turns: `test` is not reset between
them. -/
def readMutiLoop (reg : U16) (m : Module) (reply : Allocation U8) :
    Nat → Module × U16 × Allocation U8
  | 0 => (m, 0x0000, reply)
  | i + 1 =>
    let (m, test, reply) := readMutiLoop reg m reply i
    let (m, test) := modbusCommand .readCmd (reg + BitVec.ofNat 16 i) test m
    (m, test,
      (reply.write (3 + i * 2) ((test >>> 8).setWidth 8)).write (4 + i * 2) (test.setWidth 8))

def readMutiAnalysis (alloc : Alloc) (data : Nat → U8) (m : Module) : Outcome :=
  let addr := data 0
  let cmd := data 1
  let reg := word (data 2) (data 3)
  let size : U8 := (word (data 4) (data 5)).setWidth 8
  let len : U8 := size * 2 + 5
  if alloc.malloc then
    let reply := (((rtMalloc len).write 0 addr).write 1 cmd).write 2 size
    let (m, _, reply) := readMutiLoop reg m reply size.toNat
    sendReply alloc len.toNat (putCrc (3 + 2 * size.toNat) reply) m
  else { module := m, reply := none }

def writeSingleAnalysis (alloc : Alloc) (data : Nat → U8) (m : Module) : Outcome :=
  let reg := word (data 2) (data 3)
  let m := writeRegister reg (word (data 4) (data 5)) m
  -- a broadcast is not answered; the answer is the received frame
  if data 0 ≠ 0 then
    { module := { m with sendMsgList := queue alloc.calloc (window data 8) m.sendMsgList }
      reply := none }
  else { module := m, reply := none }

def writeMutiLoop (reg : U16) (data : Nat → U8) (m : Module) : Nat → Module
  | 0 => m
  | i + 1 =>
    writeRegister (reg + BitVec.ofNat 16 i) (word (data (7 + i * 2)) (data (8 + i * 2)))
      (writeMutiLoop reg data m i)

def writeMutiAnalysis (alloc : Alloc) (data : Nat → U8) (m : Module) : Outcome :=
  let addr := data 0
  let cmd := data 1
  let reg := word (data 2) (data 3)
  let size : U8 := (word (data 4) (data 5)).setWidth 8
  let m := writeMutiLoop reg data m size.toNat
  if addr ≠ 0 ∧ alloc.malloc then
    let reply := (((rtMalloc 8).write 0 addr).write 1 cmd).write 2 ((reg >>> 8).setWidth 8)
    let reply := ((reply.write 3 (reg.setWidth 8)).write 4 0x00).write 5 size
    sendReply alloc 8 (putCrc 6 reply) m
  else { module := m, reply := none }

def modbusCommandAnalysis (alloc : Alloc) (data : Nat → U8) (m : Module) : Outcome :=
  let cmd := data 1
  if cmd = readMuti then readMutiAnalysis alloc data m
  else if cmd = writeSingle then writeSingleAnalysis alloc data m
  else if cmd = writeMuti then writeMutiAnalysis alloc data m
  else { module := m, reply := none }

-- ---------------------------------------------------------------------------
-- Check and dispatch
-- ---------------------------------------------------------------------------

def readId (data : Nat → U8) : U32 :=
  (data 2).setWidth 32 <<< 24 ||| (data 3).setWidth 32 <<< 16 |||
    (data 4).setWidth 32 <<< 8 ||| (data 5).setWidth 32

def Answers (data : Nat → U8) (m : Module) : Prop :=
  data 0 = registerCode ∧ data 1 = registerAnser ∧ readId data = m.id

instance (data : Nat → U8) (m : Module) : Decidable (Answers data m) :=
  inferInstanceAs (Decidable (_ ∧ _ ∧ _))

def setLastConnectTime (m : Module) : Module := { m with lastConnectTime := m.timeRun }

def register (data : Nat → U8) (m : Module) : Module :=
  if data 1 = registerAnser ∧ readId data = m.id then
    { m with info.registerState := yes, info.addr := data 7 }
  else m

/-- What `Uart1Analysis` does with a frame; `command` is the branch that calls
`ModbusCommandAnalysis`. -/
inductive FrameUse
  | dropped | registration | command
  deriving DecidableEq, Repr

/-- The checks of `Uart1Analysis`, in their order. -/
def frameUse (data : Nat → U8) (len : U8) (m : Module) : FrameUse :=
  if len.toNat ≤ 2 then .dropped
  else if ¬CrcOk data len.toNat then .dropped
  else if data 0 = registerCode then .registration
  else if m.info.registerState = no then .dropped
  else if data 0 ≠ m.info.addr ∧ data 0 ≠ 0x00 then .dropped
  else .command

def uart1Analysis (alloc : Alloc) (data : Nat → U8) (len : U8) (m : Module) : Outcome :=
  match frameUse data len m with
  | .dropped => { module := m, reply := none }
  | .registration => { module := setLastConnectTime (register data m), reply := none }
  | .command =>
    let out := modbusCommandAnalysis alloc data m
    { out with module := setLastConnectTime out.module }

def generateRegisterData (m : Module) : List U8 :=
  sealFrame
    [registerCode, 0x00, 0x00, 0x00, 0x00, 0x00, 0x06, m.info.addr, m.info.type,
      (m.id >>> 24).setWidth 8, (m.id >>> 16).setWidth 8, (m.id >>> 8).setWidth 8,
      m.id.setWidth 8]

end Hvac
