import Hvac.SendList

/-!
# Refused messages

The duplicate test of `AddToSendMsgList` compares as many bytes as the new
message has with the zeroed slots of the queued ones. A message is also refused
for one of another length whose slot it begins.
-/

namespace Hvac

/-- Too long, no room, or queued already. -/
def Refusable (data : List U8) (list : List Msg) : Prop :=
  msgSize < data.length ∨ msgListMax ≤ list.length ∨ ∃ msg ∈ list, msg.body = data

instance (data : List U8) (list : List Msg) : Decidable (Refusable data list) :=
  inferInstanceAs (Decidable (_ ∨ _ ∨ _))

/-- A message of another length whose slot begins with these bytes. -/
def Begins (data : List U8) (msg : Msg) : Prop :=
  msg.len ≠ data.length ∧ msg.data.take data.length = data

instance (data : List U8) (msg : Msg) : Decidable (Begins data msg) :=
  inferInstanceAs (Decidable (_ ∧ _))

/-- The test is true for the duplicates and for the messages this one begins. -/
theorem take_data_eq_iff (msg : Msg) (data : List U8) :
    msg.data.take data.length = data ↔ msg.body = data ∨ Begins data msg := by
  constructor
  · intro h
    by_cases hlen : msg.len = data.length
    · rw [← hlen, Msg.take_len_data] at h
      exact .inl h
    · exact .inr ⟨hlen, h⟩
  · rintro (rfl | h)
    · exact msg.take_len_data
    · exact h.2

/-- With memory for a node, what `AddToSendMsgList` refuses. -/
theorem addToSendMsgList_refuses_iff (data : List U8) (list : List Msg) :
    (addToSendMsgList true data list).2 = false ↔
      Refusable data list ∨ ∃ msg ∈ list, Begins data msg := by
  unfold addToSendMsgList Refusable
  by_cases hfits : data.length ≤ msgSize
  · have hlong : ¬msgSize < data.length := Nat.not_lt.mpr hfits
    by_cases hroom : msgListMax ≤ list.length
    · simp [hfits, hroom]
    · have hany : (list.any fun temp => temp.data.take data.length == data) = true ↔
          (∃ msg ∈ list, msg.body = data) ∨ ∃ msg ∈ list, Begins data msg := by
        simp only [List.any_eq_true, beq_iff_eq, take_data_eq_iff, and_or_left, exists_or]
      rw [dif_pos hfits, if_neg hroom, if_neg (by decide)]
      simp only [hlong, hroom, false_or, ← hany]
      split
      · rename_i h
        exact iff_of_true rfl h
      · rename_i h
        exact iff_of_false (by simp) h
  · have hlong : msgSize < data.length := Nat.lt_of_not_le hfits
    simp [hfits, hlong]

/-- The message is refused for one of the three reasons only, and otherwise is
what the list gains. -/
def RefusedRightly (data : List U8) (list : List Msg) : Prop :=
  ((addToSendMsgList true data list).2 = false ↔ Refusable data list) ∧
    ((addToSendMsgList true data list).2 = true →
      ∃ hfits : data.length ≤ msgSize, (addToSendMsgList true data list).1 = ⟨data, hfits⟩ :: list)

/-- For every list and message: exactly when there is a reason to refuse it, or
it begins the slot of no message of another length. -/
theorem refused_rightly_iff (data : List U8) (list : List Msg) :
    RefusedRightly data list ↔ Refusable data list ∨ ∀ msg ∈ list, ¬Begins data msg := by
  unfold RefusedRightly
  rw [addToSendMsgList_refuses_iff]
  constructor
  · rintro ⟨hiff, -⟩
    by_cases h : ∃ msg ∈ list, Begins data msg
    · exact .inl (hiff.mp (.inr h))
    · exact .inr fun msg hm hb => h ⟨msg, hm, hb⟩
  · intro h
    refine ⟨⟨fun hor => ?_, .inl⟩, fun haccepted => ?_⟩
    · rcases hor with hrefusable | ⟨msg, hm, hb⟩
      · exact hrefusable
      · exact h.resolve_right fun hnone => hnone msg hm hb
    · rcases addToSendMsgList_cases true data list with hadd | ⟨hfits, -, -, -, hadd⟩
      · rw [hadd] at haccepted
        cases haccepted
      · rw [hadd]
        exact ⟨hfits, rfl⟩

/-- A message of one byte, with one of two bytes queued that begins the same. -/
theorem refused_rightly_fails :
    ¬RefusedRightly [0x01] [⟨[0x01, 0x02], by decide⟩] ∧
      (addToSendMsgList true [0x01] [⟨[0x01, 0x02], by decide⟩]).2 = false ∧
      ¬Refusable [0x01] [⟨[0x01, 0x02], by decide⟩] := by
  have hrefused : (addToSendMsgList true [0x01] [⟨[0x01, 0x02], by decide⟩]).2 = false := by decide
  have hreason : ¬Refusable [0x01] [⟨[0x01, 0x02], by decide⟩] := by decide
  exact ⟨fun h => hreason (h.1.mp hrefused), hrefused, hreason⟩

end Hvac
