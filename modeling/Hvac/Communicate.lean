import Hvac.Types
import Mathlib.Data.List.Basic

/-!
# The send list

`Communicate.c`: messages wait in a linked list until the loop sends them. The
list is given from the node after the head on, which is where messages are
both inserted and taken.
-/

namespace Hvac

/-- `rt_massage_list`: the `len` bytes that were copied in. The node itself
comes zeroed from `rt_calloc`, so the rest of its `data` is zero. -/
structure Msg where
  body : List U8
  fits : body.length ≤ msgSize
  deriving DecidableEq

def Msg.len (msg : Msg) : Nat := msg.body.length

def Msg.data (msg : Msg) : List U8 := msg.body ++ List.replicate (msgSize - msg.len) 0

@[simp] theorem Msg.length_data (msg : Msg) : msg.data.length = msgSize := by
  have := msg.fits
  simp [Msg.data, Msg.len]
  omega

theorem Msg.take_len_data (msg : Msg) : msg.data.take msg.len = msg.body := by
  simp [Msg.data, Msg.len]

/-- `AddToSendMsgList` of the bytes in `data`; `calloc` says whether there is
memory for a node. The list after the call, and whether it returns `RT_EOK`. -/
def addToSendMsgList (calloc : Bool) (data : List U8) (list : List Msg) : List Msg × Bool :=
  if h : data.length ≤ msgSize then
    if list.length ≥ msgListMax then (list, false)
    else if !calloc then (list, false)
    -- Only the new message's length is compared, whatever the queued one's is.
    else if list.any fun temp => temp.data.take data.length == data then (list, false)
    else (⟨data, h⟩ :: list, true)
  else (list, false)

/-- `RemoveFromSendMsgList`: the first node whose data starts with `data`. -/
def removeFromSendMsgList (data : List U8) (list : List Msg) : List Msg :=
  if data.length > msgSize ∨ data.length = 0 then list
  else list.eraseP fun pos => pos.data.take data.length == data

/-- `SendMsgHandle`: the list after the call and what was given to
`SendToMaster`, if anything. -/
def sendMsgHandle : List Msg → List Msg × Option (List U8)
  | [] => ([], none)
  | first :: rest =>
    if first.len ≠ 0 then
      (removeFromSendMsgList first.data (first :: rest), some first.body)
    else (first :: rest, none)

/-- A message is refused and the list as it was, or it is in front. -/
theorem addToSendMsgList_cases (calloc : Bool) (data : List U8) (list : List Msg) :
    addToSendMsgList calloc data list = (list, false) ∨
      ∃ hfits : data.length ≤ msgSize, calloc = true ∧ list.length < msgListMax ∧
        (∀ older ∈ list, older.data.take data.length ≠ data) ∧
        addToSendMsgList calloc data list = (⟨data, hfits⟩ :: list, true) := by
  unfold addToSendMsgList
  by_cases hfits : data.length ≤ msgSize
  case neg => exact .inl (dif_neg hfits)
  rw [dif_pos hfits]
  by_cases hroom : list.length ≥ msgListMax
  case pos => exact .inl (if_pos hroom)
  rw [if_neg hroom]
  cases calloc with
  | false => exact .inl rfl
  | true =>
    rw [if_neg (by decide)]
    split
    · exact .inl rfl
    · rename_i hany
      refine .inr ⟨hfits, rfl, Nat.lt_of_not_le hroom, fun older hmem heq => hany ?_, rfl⟩
      exact List.any_eq_true.mpr ⟨older, hmem, beq_iff_eq.mpr heq⟩

theorem addToSendMsgList_of_long (h : msgSize < data.length) :
    addToSendMsgList calloc data list = (list, false) := by
  unfold addToSendMsgList
  rw [dif_neg (Nat.not_le_of_lt h)]

theorem addToSendMsgList_nil (h : data.length ≤ msgSize) :
    addToSendMsgList true data [] = ([⟨data, h⟩], true) := by
  simp [addToSendMsgList, h, msgListMax]

/-- The list after an addition whose result nobody looks at. -/
def queue (calloc : Bool) (data : List U8) (list : List Msg) : List Msg :=
  (addToSendMsgList calloc data list).1

theorem queue_cases (calloc : Bool) (data : List U8) (list : List Msg) :
    queue calloc data list = list ∨
      ∃ hfits : data.length ≤ msgSize, calloc = true ∧
        queue calloc data list = ⟨data, hfits⟩ :: list := by
  unfold queue
  rcases addToSendMsgList_cases calloc data list with h | ⟨hfits, hcalloc, -, -, h⟩ <;> rw [h]
  · exact .inl rfl
  · exact .inr ⟨hfits, hcalloc, rfl⟩

theorem sendMsgHandle_cons (h : first.len ≠ 0) :
    sendMsgHandle (first :: rest) = (rest, some first.body) := by
  have htake : first.data.take first.data.length = first.data := List.take_length
  have hok : ¬(first.data.length > msgSize ∨ first.data.length = 0) := by simp [msgSize]
  simp only [sendMsgHandle, ne_eq, h, not_false_eq_true, if_true, removeFromSendMsgList,
    if_neg hok, List.eraseP_cons, htake, BEq.rfl, cond_true]

theorem sendMsgHandle_cases (list : List Msg) :
    sendMsgHandle list = (list, none) ∨
      ∃ first rest, list = first :: rest ∧ sendMsgHandle list = (rest, some first.body) := by
  cases list with
  | nil => exact .inl rfl
  | cons first rest =>
    by_cases h : first.len = 0
    · exact .inl (by simp [sendMsgHandle, h])
    · exact .inr ⟨first, rest, rfl, sendMsgHandle_cons h⟩

end Hvac
