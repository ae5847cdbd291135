import Hvac.Reply
import Hvac.Lib.ShiftRegister

/-!
# What the CRC detects

`usModbusRTU_CRC` is a shift register of 16 bits with the polynomial 0xA001, so
no change within 16 consecutive bits escapes it: not of one field of the
settings, and not of the payload of a frame.
-/

namespace Hvac

open ShiftRegister (bits Burst)
open Buffer (window)

theorem and_one_ne_zero {crc : U16} : crc &&& 0x0001 ≠ 0 ↔ crc.getLsbD 0 = true := by
  have hone : (0x0001 : U16) = 1#16 := rfl
  rw [hone, BitVec.and_one_eq_setWidth_ofBool_getLsbD]
  cases crc.getLsbD 0 <;> simp

theorem modbusCrcBit_eq_shift : modbusCrcBit = ShiftRegister.shift 0xA001 := by
  funext crc
  simp only [modbusCrcBit, ShiftRegister.shift, and_one_ne_zero]

theorem modbusCrcByte_eq_feedByte : modbusCrcByte = ShiftRegister.feedByte 0xA001 := by
  funext crc byte
  rw [modbusCrcByte, modbusCrcBit_eq_shift]
  rfl

theorem usModbusRtuCrc_ne_of_burst {data data' : List U8} (hlen : data.length = data'.length)
    (hne : data ≠ data') (h : Burst 16 (bits data) (bits data')) :
    usModbusRtuCrc data ≠ usModbusRtuCrc data' := by
  rw [usModbusRtuCrc, usModbusRtuCrc, modbusCrcByte_eq_feedByte]
  exact ShiftRegister.foldl_feedByte_ne_of_burst (by decide) rfl hlen hne h 0xFFFF

-- ---------------------------------------------------------------------------
-- One field of the settings
-- ---------------------------------------------------------------------------

/-- The fields under the CRC, in the order of the record. -/
inductive InfoField
  | registerState | type | addr | daySetPoint | nightSetPoint | temp | deadBand | mode | unit
  | tempFrom | dayStartTime | dayEndTime | ctrl | coolOrHeat | connected | moduleMode | fanRun
  deriving DecidableEq, Repr

def InfoField.all : List InfoField :=
  [.registerState, .type, .addr, .daySetPoint, .nightSetPoint, .temp, .deadBand, .mode, .unit,
    .tempFrom, .dayStartTime, .dayEndTime, .ctrl, .coolOrHeat, .connected, .moduleMode, .fanRun]

def TypeInfo.bytes (info : TypeInfo) : InfoField → List U8
  | .registerState => [info.registerState]
  | .type => [info.type]
  | .addr => [info.addr]
  | .daySetPoint => le16 info.daySetPoint
  | .nightSetPoint => le16 info.nightSetPoint
  | .temp => le16 info.temp
  | .deadBand => [info.deadBand]
  | .mode => [info.mode]
  | .unit => [info.unit]
  | .tempFrom => [info.tempFrom]
  | .dayStartTime => le16 info.dayStartTime
  | .dayEndTime => le16 info.dayEndTime
  | .ctrl => le16 info.ctrl
  | .coolOrHeat => [info.coolOrHeat]
  | .connected => [info.connected]
  | .moduleMode => [info.moduleMode]
  | .fanRun => [info.fanRun]

theorem covered_eq_flatMap (info : TypeInfo) :
    info.covered = InfoField.all.flatMap info.bytes := rfl

theorem length_bytes (info : TypeInfo) (field : InfoField) : (info.bytes field).length ≤ 2 := by
  cases field <;> simp [TypeInfo.bytes, le16]

theorem length_bytes_eq (info info' : TypeInfo) (field : InfoField) :
    (info.bytes field).length = (info'.bytes field).length := by
  cases field <;> rfl

/-- The two records differ in this field under the CRC and in no other. -/
structure DifferOnly (field : InfoField) (info info' : TypeInfo) : Prop where
  others : ∀ other, other ≠ field → info.bytes other = info'.bytes other
  differ : info.bytes field ≠ info'.bytes field

theorem DifferOnly.crc_ne (h : DifferOnly field info info') :
    usModbusRtuCrc info.covered ≠ usModbusRtuCrc info'.covered := by
  have hmem : field ∈ InfoField.all := by cases field <;> decide
  obtain ⟨before, after, hall⟩ := List.append_of_mem hmem
  have hnodup : (before ++ field :: after).Nodup := by
    rw [← hall]
    decide
  have hout : field ∉ before ∧ field ∉ after := by
    simp only [List.nodup_append, List.nodup_cons, List.mem_cons] at hnodup
    exact ⟨fun hb => hnodup.2.2 _ hb _ (.inl rfl) rfl, hnodup.2.1.1⟩
  have hsame (fields : List InfoField) (hfields : field ∉ fields) :
      fields.flatMap info.bytes = fields.flatMap info'.bytes := by
    refine List.flatMap_congr fun other ho => h.others other fun heq => ?_
    exact hfields (heq ▸ ho)
  have hcovered (info : TypeInfo) : info.covered =
      before.flatMap info.bytes ++ info.bytes field ++ after.flatMap info.bytes := by
    rw [covered_eq_flatMap, hall, List.flatMap_append, List.flatMap_cons, List.append_assoc]
  rw [hcovered info, hcovered info', hsame before hout.1, hsame after hout.2]
  have hlen := length_bytes_eq info info' field
  refine usModbusRtuCrc_ne_of_burst ?_ ?_ ?_
  · simp [hlen]
  · intro heq
    rw [List.append_assoc, List.append_assoc] at heq
    exact h.differ (List.append_cancel_right (List.append_cancel_left heq))
  · simp only [ShiftRegister.bits_append]
    have hle := length_bytes info field
    refine ShiftRegister.burst_of_segment _ _ ?_ ?_
    · rw [ShiftRegister.length_bits, ShiftRegister.length_bits, hlen]
    · rw [ShiftRegister.length_bits]
      omega

/-- A save after such a change writes the page. -/
theorem DifferOnly.saveGlobalInfo (h : DifferOnly field info m.info)
    (hlast : m.lastCrc = usModbusRtuCrc info.covered) (ops : FlashOps) :
    (saveGlobalInfo ops m).flash =
      flashWrite ops { m.info with crc := usModbusRtuCrc m.info.covered }.toBytes m.flash := by
  rw [Hvac.saveGlobalInfo, hlast]
  dsimp only
  rw [if_pos h.crc_ne]

-- ---------------------------------------------------------------------------
-- The payload of a frame
-- ---------------------------------------------------------------------------

theorem crcOk_store_iff (hlen : 2 ≤ chunk.length) :
    CrcOk (Buffer.store chunk buf) chunk.length ↔ Sealed chunk := by
  rw [crcOk_iff_sealed hlen, Buffer.window_store]

/-- A frame whose payload was changed after it was sealed. -/
theorem not_crcOk_of_burst {payload payload' : List U8} (hlen : payload.length = payload'.length)
    (hne : payload ≠ payload') (h : Burst 16 (bits payload) (bits payload')) (buf : Nat → U8) :
    let chunk := payload' ++ Checksum.trailer (usModbusRtuCrc payload)
    ¬CrcOk (Buffer.store chunk buf) chunk.length := by
  intro chunk hok
  have hsealed := (crcOk_store_iff (by simp [chunk])).mp hok
  exact usModbusRtuCrc_ne_of_burst hlen hne h (Checksum.sealed_append_trailer.mp hsealed)

/-- `usModbusRTU_CRC` detects every burst of up to 16 bits; so a change of one
field of the settings is seen by the next save, and a frame with such a change
in its payload is not taken. -/
theorem burst_detected :
    (∀ data data' : List U8, data.length = data'.length → data ≠ data' →
      Burst 16 (bits data) (bits data') → usModbusRtuCrc data ≠ usModbusRtuCrc data') ∧
    (∀ field info m, DifferOnly field info m.info →
      usModbusRtuCrc info.covered ≠ usModbusRtuCrc m.info.covered ∧
      (m.lastCrc = usModbusRtuCrc info.covered → ∀ ops, (saveGlobalInfo ops m).flash =
        flashWrite ops { m.info with crc := usModbusRtuCrc m.info.covered }.toBytes m.flash)) ∧
    (∀ payload payload' : List U8, payload.length = payload'.length → payload ≠ payload' →
      Burst 16 (bits payload) (bits payload') → ∀ m,
        let chunk := payload' ++ Checksum.trailer (usModbusRtuCrc payload)
        ¬CrcOk (uart1Input chunk m).rx.data chunk.length ∧
          (uart1Input chunk m).rx.messageFlag = m.rx.messageFlag) := by
  refine ⟨fun _ _ hlen hne h => usModbusRtuCrc_ne_of_burst hlen hne h,
    fun _ _ _ h => ⟨h.crc_ne, h.saveGlobalInfo⟩, fun payload payload' hlen hne h m => ?_⟩
  have hbad := not_crcOk_of_burst hlen hne h m.rx.data
  exact ⟨hbad, if_neg fun haccepts => hbad haccepts.2.1⟩

end Hvac
