import Mathlib.Data.List.Basic

/-!
# Frames sealed by a checksum

A sealed frame ends with the 16-bit checksum of what precedes, low byte
first. The checksum is any function of the payload.
-/

namespace Checksum

variable (crc : List (BitVec 8) → BitVec 16)

/-- The two bytes a checksum is sent as. -/
def trailer (sum : BitVec 16) : List (BitVec 8) := [sum.setWidth 8, (sum >>> 8).setWidth 8]

def sealFrame (payload : List (BitVec 8)) : List (BitVec 8) := payload ++ trailer (crc payload)

/-- The frame is some payload followed by the payload's checksum. -/
def Sealed (frame : List (BitVec 8)) : Prop := ∃ payload, frame = sealFrame crc payload

variable {crc}

@[simp] theorem length_trailer : (trailer sum).length = 2 := rfl

@[simp] theorem length_sealFrame :
    (sealFrame crc payload).length = payload.length + 2 := by
  simp [sealFrame]

theorem sealFrame_inj (h : sealFrame crc payload = sealFrame crc payload') :
    payload = payload' := (List.append_inj' h rfl).1

theorem sealed_sealFrame : Sealed crc (sealFrame crc payload) := ⟨payload, rfl⟩

/-- Putting two received bytes together gives the checksum they were cut from. -/
theorem join_eq_iff (low high : BitVec 8) (sum : BitVec 16) :
    (high.setWidth 16 <<< 8 ||| low.setWidth 16 = sum) ↔ [low, high] = trailer sum := by
  simp only [trailer, List.cons.injEq, and_true]
  constructor
  · rintro rfl
    refine ⟨?_, ?_⟩ <;> ext i hi
    · simp
    · have h : 8 + i < 16 ∧ ¬8 + i < 8 ∧ i < 16 := by omega
      simp [h, BitVec.getLsbD_eq_getElem hi]
  · rintro ⟨rfl, rfl⟩
    ext i hi
    by_cases h : i < 8
    · simp [h, BitVec.getLsbD_eq_getElem hi]
    · have hd : i - 8 < 8 ∧ 8 + (i - 8) = i := by omega
      simp [h, hd, BitVec.getLsbD_eq_getElem hi]

theorem sealed_append_iff {payload : List (BitVec 8)} {low high : BitVec 8} :
    Sealed crc (payload ++ [low, high]) ↔
      high.setWidth 16 <<< 8 ||| low.setWidth 16 = crc payload := by
  rw [join_eq_iff]
  constructor
  · rintro ⟨other, h⟩
    obtain ⟨rfl, h⟩ := List.append_inj' h rfl
    exact h
  · intro h
    exact ⟨payload, by rw [sealFrame, h]⟩

theorem sealed_append_trailer {payload : List (BitVec 8)} :
    Sealed crc (payload ++ trailer sum) ↔ sum = crc payload := by
  have hjoin := (join_eq_iff (sum.setWidth 8) ((sum >>> 8).setWidth 8) sum).mpr rfl
  rw [trailer, sealed_append_iff, hjoin]

end Checksum
