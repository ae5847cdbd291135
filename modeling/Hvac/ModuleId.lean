import Hvac.State
import Hvac.Lib.ShiftRegister
import Mathlib.Data.List.OfFn

/-!
# Module ids

A module registers with the CRC-32 of its chip's identifier. The table of
`crc_32.c` is that of the shift register with the polynomial 0xEDB88320.
-/

namespace Hvac

open ShiftRegister (bits Burst)

def crc32Polynomial : U32 := 0xEDB88320

/-- The reflected CRC taken bit by bit, the low bit of a byte first. -/
def crc32BitSerial (initVal : U32) (data : List U8) : U32 :=
  (bits data).foldl (ShiftRegister.feed crc32Polynomial) initVal

/-- The standard CRC-32: the register starts with ones, and is inverted at the end. -/
def crc32Standard (data : List U8) : U32 := ~~~crc32BitSerial 0xFFFFFFFF data

theorem crc32Table_entries : ∀ i < 256, crc32Table.getD i 0 =
    (ShiftRegister.shift crc32Polynomial)^[8] (BitVec.ofNat 32 i) := by
  decide +kernel

theorem crc32Table_entry (idx : U8) : crc32Table.getD idx.toNat 0 =
    (ShiftRegister.shift crc32Polynomial)^[8] (idx.setWidth 32) := by
  rw [crc32Table_entries idx.toNat idx.isLt, BitVec.ofNat_toNat]

/-- One turn of the loop is eight shifts of the register. -/
theorem crc32CycCal_cons (initVal : U32) (byte : U8) (rest : List U8) :
    crc32CycCal initVal (byte :: rest) =
      crc32CycCal (ShiftRegister.feedByte crc32Polynomial initVal byte) rest := by
  rw [ShiftRegister.feedByte_eq_table, ← crc32Table_entry]
  rfl

theorem crc32CycCal_eq_foldl (initVal : U32) (data : List U8) :
    crc32CycCal initVal data =
      data.foldl (ShiftRegister.feedByte crc32Polynomial) initVal := by
  induction data generalizing initVal with
  | nil => rfl
  | cons byte rest ih => rw [crc32CycCal_cons, ih, List.foldl_cons]

theorem crc32CycCal_eq_bitSerial (initVal : U32) (data : List U8) :
    crc32CycCal initVal data = crc32BitSerial initVal data := by
  rw [crc32CycCal_eq_foldl, ShiftRegister.foldl_feedByte (by decide), crc32BitSerial]

theorem crc32CycCal_append (initVal : U32) (first second : List U8) :
    crc32CycCal initVal (first ++ second) = crc32CycCal (crc32CycCal initVal first) second :=
  List.foldl_append

theorem crc32Cal_eq_standard (data : List U8) : crc32Cal data = crc32Standard data := by
  rw [crc32Cal, crc32CycCal_eq_bitSerial, crc32Standard]
  exact BitVec.xor_allOnes

/-- The table-driven CRC-32 is the bit-serial one, taken in any number of pieces. -/
theorem crc32_table_driven (initVal : U32) (first second : List U8) :
    crc32CycCal initVal first = crc32BitSerial initVal first ∧
      crc32CycCal initVal (first ++ second) = crc32CycCal (crc32CycCal initVal first) second ∧
      crc32Cal first = crc32Standard first :=
  ⟨crc32CycCal_eq_bitSerial initVal first, crc32CycCal_append initVal first second,
    crc32Cal_eq_standard first⟩

/-- The check value of CRC-32, for the characters `1` to `9`. -/
example : crc32Cal [0x31, 0x32, 0x33, 0x34, 0x35, 0x36, 0x37, 0x38, 0x39] = 0xCBF43926 := by
  decide +kernel

theorem readUniqueId_eq_standard (uniqueId : Fin 12 → U8) :
    readUniqueId uniqueId = crc32Standard (List.ofFn uniqueId) := crc32Cal_eq_standard _

/-- Chips whose identifiers differ within 32 consecutive bits have different ids. -/
theorem readUniqueId_ne_of_burst {uniqueId uniqueId' : Fin 12 → U8} (hne : uniqueId ≠ uniqueId')
    (h : Burst 32 (bits (List.ofFn uniqueId)) (bits (List.ofFn uniqueId'))) :
    readUniqueId uniqueId ≠ readUniqueId uniqueId' := by
  intro heq
  rw [readUniqueId_eq_standard, readUniqueId_eq_standard, crc32Standard, crc32Standard,
    BitVec.not_inj, ← crc32CycCal_eq_bitSerial, ← crc32CycCal_eq_bitSerial, crc32CycCal_eq_foldl,
    crc32CycCal_eq_foldl] at heq
  refine ShiftRegister.foldl_feedByte_ne_of_burst (by decide) rfl (by simp) ?_ h _ heq
  exact fun hlist => hne (List.ofFn_injective hlist)

end Hvac
