import Hvac.SendList
import Hvac.Lib.Dlist
import Mathlib.Data.List.Forall2

/-!
# The send list in memory

`Communicate.c` with its list as it is in memory: nodes that `rt_calloc` gives
out, linked both ways around the static head. Every call ends and does what the
call on lists of messages does, and the blocks given out are those in the list.
-/

namespace Hvac

open Machine (Within)

variable {A : Type} [DecidableEq A]

/-- An `rt_massage_list` at each address, and the blocks `rt_calloc` has given out. -/
structure MsgHeap (A : Type) where
  links : Dlist.Links A
  data : A → List U8
  len : A → U8
  live : List A

def initSendMsgList (list : A) (heap : MsgHeap A) : MsgHeap A :=
  { heap with links := Dlist.init list heap.links }

/-- A zeroed node. Its links are written before they are read. -/
def MsgHeap.calloc (heap : MsgHeap A) (block : A) : MsgHeap A :=
  { heap with
    data := Function.update heap.data block (List.replicate msgSize 0)
    len := Function.update heap.len block 0
    live := block :: heap.live }

/-- `rt_free`. A block that is not in use cannot be given back, a second time included:
the call then gives nothing. -/
def MsgHeap.free (heap : MsgHeap A) (block : A) : Option (MsgHeap A) :=
  if block ∈ heap.live then some { heap with live := heap.live.erase block } else none

/-- The bytes and their number go into the node, and the node behind the head. -/
def MsgHeap.fill (heap : MsgHeap A) (list newMsg : A) (data : List U8) : MsgHeap A :=
  { heap with
    len := Function.update heap.len newMsg (BitVec.ofNat 8 data.length)
    data := Function.update heap.data newMsg (data ++ (heap.data newMsg).drop data.length)
    links := Dlist.insertAfter list newMsg heap.links }

/-- `GetSendMsgListSize`. -/
def getSendMsgListSize (list : A) (turns : Nat) (heap : MsgHeap A) : Option U16 :=
  (Dlist.len heap.links.next list turns list).map (BitVec.ofNat 16)

/-- `rt_list_for_each_entry` up to the first node whose data starts with these bytes. -/
def findData (list : A) (turns : Nat) (data : List U8) (heap : MsgHeap A) : Option (Option A) :=
  Dlist.find heap.links.next list (fun temp => (heap.data temp).take data.length == data) turns
    (heap.links.next list)

/-- `AddToSendMsgList`, with the block `rt_calloc` finds if it finds one; `true` is `RT_EOK`. -/
def addToSendMsgListAt (list : A) (turns : Nat) (block : Option A) (data : List U8)
    (heap : MsgHeap A) : Option (MsgHeap A × Bool) :=
  if data.length > msgSize then some (heap, false)
  else do
    let size ← getSendMsgListSize list turns heap
    if size.toNat ≥ msgListMax then return (heap, false)
    else
      match block with
      | none => return (heap, false)
      | some newMsg =>
        let heap := heap.calloc newMsg
        let listRealSize ← getSendMsgListSize list turns heap
        if listRealSize = 0 then return (heap.fill list newMsg data, true)
        else
          match ← findData list turns data heap with
          | some _ => return (← heap.free newMsg, false)
          | none => return (heap.fill list newMsg data, true)

/-- `RemoveFromSendMsgList`. -/
def removeFromSendMsgListAt (list : A) (turns : Nat) (data : List U8) (heap : MsgHeap A) :
    Option (MsgHeap A) :=
  if data.length > msgSize ∨ data.length = 0 then some heap
  else do
    match ← findData list turns data heap with
    | some pos => MsgHeap.free { heap with links := Dlist.remove pos heap.links } pos
    | none => return heap

/-- `SendMsgHandle`, with what it gives to `SendToMaster`, if anything. -/
def sendMsgHandleAt (list : A) (turns : Nat) (heap : MsgHeap A) :
    Option (MsgHeap A × Option (List U8)) := do
  let size ← getSendMsgListSize list turns heap
  if size = 0 then return (heap, none)
  else
    let first := heap.links.next list
    if heap.len first ≠ 0 then
      let heap' ← removeFromSendMsgListAt list turns ((heap.data first).take msgSize) heap
      return (heap', some ((heap.data first).take (heap.len first).toNat))
    else return (heap, none)

-- ---------------------------------------------------------------------------
-- Nodes and messages
-- ---------------------------------------------------------------------------

/-- The node at this address is this message. -/
structure MsgHeap.IsMsg (heap : MsgHeap A) (node : A) (msg : Msg) : Prop where
  data : heap.data node = msg.data
  len : heap.len node = BitVec.ofNat 8 msg.len

/-- The list at `list` has these nodes, they are these messages, and no other
block is given out. -/
structure MsgHeap.Holds (heap : MsgHeap A) (list : A) (nodes : List A) (msgs : List Msg) :
    Prop where
  ring : Dlist.Ring heap.links list nodes
  live : heap.live.Perm nodes
  isMsgs : List.Forall₂ heap.IsMsg nodes msgs

/-- What `rt_calloc` gives out is neither the head nor given out. -/
def MsgHeap.Fresh (heap : MsgHeap A) (list : A) (block : Option A) : Prop :=
  ∀ newMsg ∈ block, newMsg ∉ list :: heap.live

instance MsgHeap.decidableFresh (heap : MsgHeap A) (list : A) (block : Option A) :
    Decidable (heap.Fresh list block) :=
  inferInstanceAs (Decidable (∀ newMsg ∈ block, _))

/-- What fits is zero only if it was. -/
theorem ofNat_ne_zero {w n : Nat} (hn : n ≠ 0) (hfits : (BitVec.ofNat w n).toNat = n) :
    BitVec.ofNat w n ≠ 0#w := by
  intro heq
  rw [heq] at hfits
  exact hn (hfits.symm.trans BitVec.toNat_zero)

omit [DecidableEq A] in
/-- The first node that passes a test is in the place of the first message that does. -/
theorem find?_eraseP {R : A → Msg → Prop} (test : A → Bool) (test' : Msg → Bool)
    (h : List.Forall₂ R nodes msgs) (htest : ∀ node msg, R node msg → test node = test' msg) :
    (nodes.find? test = none ∧ msgs.any test' = false ∧ msgs.eraseP test' = msgs) ∨
      ∃ first node second, nodes = first ++ node :: second ∧ nodes.find? test = some node ∧
        msgs.any test' = true ∧ List.Forall₂ R (first ++ second) (msgs.eraseP test') := by
  induction h with
  | nil => exact .inl ⟨rfl, rfl, rfl⟩
  | @cons node msg nodes msgs hfirst hrest ih =>
    rw [List.find?_cons, List.any_cons, List.eraseP_cons, htest node msg hfirst]
    cases htest' : test' msg with
    | true => exact .inr ⟨[], node, nodes, rfl, rfl, rfl, hrest⟩
    | false =>
      rcases ih with ⟨hfind, hany, herase⟩ | ⟨first, other, second, rfl, hfind, hany, hmsgs⟩
      · exact .inl ⟨hfind, hany, congrArg (msg :: ·) herase⟩
      · exact .inr ⟨node :: first, other, second, rfl, hfind, hany, hmsgs.cons hfirst⟩

variable {heap : MsgHeap A} {list block : A} {nodes : List A} {msgs : List Msg} {data : List U8}

omit [DecidableEq A] in
theorem MsgHeap.Holds.length (h : heap.Holds list nodes msgs) : nodes.length = msgs.length :=
  h.isMsgs.length_eq

theorem MsgHeap.Holds.getSendMsgListSize_eq (h : heap.Holds list nodes msgs)
    (hlen : msgs.length ≤ msgListMax) (hturns : msgListMax < turns) :
    getSendMsgListSize list turns heap = some (BitVec.ofNat 16 msgs.length) := by
  have hnodes : nodes.length < turns := h.length ▸ Nat.lt_of_le_of_lt hlen hturns
  rw [getSendMsgListSize, h.ring.len_eq hnodes, h.length]
  rfl

theorem MsgHeap.Holds.findData_eq (h : heap.Holds list nodes msgs) (hlen : msgs.length ≤ msgListMax)
    (hturns : msgListMax < turns) (data : List U8) :
    findData list turns data heap =
      some (nodes.find? fun temp => (heap.data temp).take data.length == data) :=
  h.ring.find_eq _ (h.length ▸ Nat.lt_of_le_of_lt hlen hturns)

omit [DecidableEq A] in
/-- The search over the nodes is the search over the messages. -/
theorem MsgHeap.find?_msgs (h : List.Forall₂ heap.IsMsg nodes msgs) (data : List U8) :
    let test := fun temp => (heap.data temp).take data.length == data
    let test' := fun msg : Msg => msg.data.take data.length == data
    (nodes.find? test = none ∧ msgs.any test' = false ∧ msgs.eraseP test' = msgs) ∨
      ∃ first node second, nodes = first ++ node :: second ∧ nodes.find? test = some node ∧
        msgs.any test' = true ∧ List.Forall₂ heap.IsMsg (first ++ second) (msgs.eraseP test') :=
  find?_eraseP _ _ h fun _ _ hmsg => by simp only [hmsg.data]

-- ---------------------------------------------------------------------------
-- The calls
-- ---------------------------------------------------------------------------

theorem MsgHeap.Holds.calloc (h : heap.Holds list nodes msgs) (hfresh : block ∉ list :: heap.live) :
    Dlist.Ring (heap.calloc block).links list nodes ∧
      List.Forall₂ (heap.calloc block).IsMsg nodes msgs ∧ block ∉ list :: nodes := by
  have hout : block ∉ list :: nodes := by
    intro hm
    rcases List.mem_cons.mp hm with heq | hm
    · exact hfresh (heq ▸ List.mem_cons_self)
    · exact hfresh (List.mem_cons_of_mem _ (h.live.mem_iff.mpr hm))
  refine ⟨h.ring, ?_, hout⟩
  refine List.forall₂_iff_zip.mpr ⟨h.isMsgs.length_eq, fun {node msg} hmem => ?_⟩
  have hne : node ≠ block := by
    rintro rfl
    exact hout (List.mem_cons_of_mem _ (List.of_mem_zip hmem).1)
  obtain ⟨hdata, hlen⟩ := (List.forall₂_iff_zip.mp h.isMsgs).2 hmem
  exact ⟨(Function.update_of_ne hne ..).trans hdata, (Function.update_of_ne hne ..).trans hlen⟩

/-- The new node is the new message, and the others are what they were. -/
theorem MsgHeap.Holds.fill (h : heap.Holds list nodes msgs) (hfresh : block ∉ list :: heap.live)
    (hfits : data.length ≤ msgSize) :
    ((heap.calloc block).fill list block data).Holds list (block :: nodes)
      (⟨data, hfits⟩ :: msgs) := by
  obtain ⟨hring, hmsgs, hout⟩ := h.calloc hfresh
  refine ⟨hring.insertAfter hout, h.live.cons block, List.Forall₂.cons ⟨?_, ?_⟩ ?_⟩
  · simp [MsgHeap.fill, MsgHeap.calloc, Msg.data, Msg.len]
  · exact Function.update_self ..
  · refine List.forall₂_iff_zip.mpr ⟨hmsgs.length_eq, fun {node msg} hmem => ?_⟩
    have hne : node ≠ block := by
      rintro rfl
      exact hout (List.mem_cons_of_mem _ (List.of_mem_zip hmem).1)
    obtain ⟨hdata, hlen⟩ := (List.forall₂_iff_zip.mp hmsgs).2 hmem
    exact ⟨(Function.update_of_ne hne ..).trans hdata, (Function.update_of_ne hne ..).trans hlen⟩

/-- The node that came and went has changed nothing. -/
theorem MsgHeap.Holds.free (h : heap.Holds list nodes msgs) (hfresh : block ∉ list :: heap.live) :
    ∃ heap', (heap.calloc block).free block = some heap' ∧ heap'.Holds list nodes msgs := by
  obtain ⟨hring, hmsgs, -⟩ := h.calloc hfresh
  refine ⟨_, if_pos List.mem_cons_self, hring, ?_, hmsgs.imp fun _ _ hmsg => ⟨hmsg.data, hmsg.len⟩⟩
  simpa [MsgHeap.calloc] using h.live

/-- The node of a message that leaves is in use, and the others stay. -/
theorem MsgHeap.Holds.remove (h : heap.Holds list (first ++ pos :: second) msgs)
    (hmsgs : List.Forall₂ heap.IsMsg (first ++ second) msgs') :
    ∃ heap', { heap with links := Dlist.remove pos heap.links }.free pos = some heap' ∧
      heap'.Holds list (first ++ second) msgs' := by
  have hused : pos ∈ heap.live := h.live.mem_iff.mpr (by simp)
  refine ⟨_, if_pos hused, h.ring.remove, ?_, hmsgs.imp fun _ _ hmsg => ⟨hmsg.data, hmsg.len⟩⟩
  have hperm := (h.live.trans List.perm_middle).erase pos
  rwa [List.erase_cons_head] at hperm

/-- An addition in memory is the one on lists. -/
theorem MsgHeap.Holds.addToSendMsgListAt (h : heap.Holds list nodes msgs)
    (hlen : msgs.length ≤ msgListMax) (hturns : msgListMax < turns) {block : Option A}
    (hfresh : heap.Fresh list block) (data : List U8) :
    ∃ heap' nodes', addToSendMsgListAt list turns block data heap =
        some (heap', (addToSendMsgList block.isSome data msgs).2) ∧
      heap'.Holds list nodes' (queue block.isSome data msgs) := by
  unfold Hvac.addToSendMsgListAt queue addToSendMsgList
  by_cases hfits : data.length ≤ msgSize
  case neg => exact ⟨heap, nodes, by simp [hfits, Nat.lt_of_not_le hfits], by simpa [hfits] using h⟩
  rw [if_neg (Nat.not_lt_of_le hfits), dif_pos hfits, h.getSendMsgListSize_eq hlen hturns]
  have hsize : (BitVec.ofNat 16 msgs.length).toNat = msgs.length := by
    rw [BitVec.toNat_ofNat]
    exact Nat.mod_eq_of_lt (Nat.lt_of_le_of_lt hlen (by decide))
  simp only [Option.bind_eq_bind, Option.bind_some, hsize]
  by_cases hfull : msgs.length ≥ msgListMax
  case pos => exact ⟨heap, nodes, by simp [hfull], by simpa [hfull] using h⟩
  rw [if_neg hfull, if_neg hfull]
  cases block with
  | none => exact ⟨heap, nodes, by simp, by simpa using h⟩
  | some newMsg =>
    have hnew : newMsg ∉ list :: heap.live := hfresh newMsg rfl
    obtain ⟨hring, hmsgs, hout⟩ := h.calloc hnew
    have hfill := h.fill hnew hfits
    have hturns' : nodes.length < turns := h.length ▸ Nat.lt_of_le_of_lt hlen hturns
    have hsize' : getSendMsgListSize list turns (heap.calloc newMsg) =
        some (BitVec.ofNat 16 msgs.length) := h.getSendMsgListSize_eq hlen hturns
    have hfind : findData list turns data (heap.calloc newMsg) =
        some (nodes.find? fun temp => ((heap.calloc newMsg).data temp).take data.length == data) :=
      hring.find_eq _ hturns'
    simp only [hsize', hfind, Option.bind_some, Option.isSome_some, Bool.not_true,
      Bool.false_eq_true, if_false]
    rcases MsgHeap.find?_msgs hmsgs data with
      ⟨hnone, hany, -⟩ | ⟨first, node, second, rfl, hsome, hany, -⟩
    · refine ⟨_, _, ?_, by simpa [hany] using hfill⟩
      simp [hnone, hany]
    · have hne : ¬BitVec.ofNat 16 msgs.length = 0#16 := by
        refine ofNat_ne_zero ?_ hsize
        rw [← h.length]
        simp
      obtain ⟨heap', hfree, hholds⟩ := h.free hnew
      refine ⟨heap', _, ?_, by simpa [hany] using hholds⟩
      simp [hne, hsome, hany, hfree]

/-- A removal in memory is the one on lists. -/
theorem MsgHeap.Holds.removeFromSendMsgListAt (h : heap.Holds list nodes msgs)
    (hlen : msgs.length ≤ msgListMax) (hturns : msgListMax < turns) (data : List U8) :
    ∃ heap' nodes', removeFromSendMsgListAt list turns data heap = some heap' ∧
      heap'.Holds list nodes' (removeFromSendMsgList data msgs) := by
  unfold Hvac.removeFromSendMsgListAt removeFromSendMsgList
  by_cases hbad : data.length > msgSize ∨ data.length = 0
  case pos =>
    rw [if_pos hbad, if_pos hbad]
    exact ⟨heap, nodes, rfl, h⟩
  rw [if_neg hbad, if_neg hbad, h.findData_eq hlen hturns]
  rcases MsgHeap.find?_msgs h.isMsgs data with
    ⟨hnone, -, herase⟩ | ⟨first, pos, second, rfl, hsome, -, hmsgs⟩
  · exact ⟨heap, nodes, by simp [hnone], by rwa [herase]⟩
  · obtain ⟨heap', hfree, hholds⟩ := h.remove hmsgs
    exact ⟨heap', first ++ second, by simp only [hsome]; exact hfree, hholds⟩

/-- A send in memory is the one on lists. -/
theorem MsgHeap.Holds.sendMsgHandleAt (h : heap.Holds list nodes msgs)
    (hlen : msgs.length ≤ msgListMax) (hturns : msgListMax < turns) :
    ∃ heap' nodes', sendMsgHandleAt list turns heap = some (heap', (sendMsgHandle msgs).2) ∧
      heap'.Holds list nodes' (sendMsgHandle msgs).1 := by
  unfold Hvac.sendMsgHandleAt
  rw [h.getSendMsgListSize_eq hlen hturns]
  cases msgs with
  | nil => exact ⟨heap, nodes, rfl, h⟩
  | cons msg rest =>
    obtain ⟨first, others, hfirst, -, rfl⟩ := List.forall₂_cons_right_iff.mp h.isMsgs
    have hsize : ¬BitVec.ofNat 16 (msg :: rest).length = 0#16 :=
      ofNat_ne_zero (Nat.succ_ne_zero _) (Nat.mod_eq_of_lt (Nat.lt_of_le_of_lt hlen (by decide)))
    have hbyte : (BitVec.ofNat 8 msg.len).toNat = msg.len :=
      Nat.mod_eq_of_lt (Nat.lt_of_le_of_lt msg.fits (by decide))
    have hlength : (heap.len first).toNat = msg.len := by rw [hfirst.len, hbyte]
    have hdata : (heap.data first).take msgSize = msg.data := by
      rw [hfirst.data, List.take_of_length_le (Nat.le_of_eq msg.length_data)]
    simp only [Option.bind_eq_bind, Option.bind_some, hsize, if_false, h.ring.path.1, hdata,
      hlength, sendMsgHandle, BitVec.ofNat_eq_ofNat]
    by_cases hzero : msg.len = 0
    · have hnone : heap.len first = 0#8 := by rw [hfirst.len, hzero]
      exact ⟨heap, _, by simp [hnone, hzero], by simpa [hzero] using h⟩
    · have hsome : heap.len first ≠ 0#8 := by
        rw [hfirst.len]
        exact ofNat_ne_zero hzero hbyte
      obtain ⟨heap', nodes', hremove, hholds⟩ := h.removeFromSendMsgListAt hlen hturns msg.data
      refine ⟨heap', nodes', ?_, by simpa only [ne_eq, hzero, not_false_eq_true, if_true]⟩
      simp only [hsome, hzero, hremove, hfirst.data, ne_eq, not_false_eq_true, if_true,
        Option.bind_some, msg.take_len_data]
      rfl

-- ---------------------------------------------------------------------------
-- Any calls in any order
-- ---------------------------------------------------------------------------

inductive MsgCall (A : Type)
  | add (block : Option A) (data : List U8)
  | send

def MsgCall.event : MsgCall A → ListEvent
  | .add block data => .add block.isSome data
  | .send => .send

/-- What `rt_calloc` finds for the call is not in use. -/
def MsgCall.Fresh (list : A) (heap : MsgHeap A) : MsgCall A → Prop
  | .add block _ => heap.Fresh list block
  | .send => True

instance MsgCall.decidableFresh (list : A) (heap : MsgHeap A) :
    (call : MsgCall A) → Decidable (call.Fresh list heap)
  | .add block _ => inferInstanceAs (Decidable (heap.Fresh list block))
  | .send => inferInstanceAs (Decidable True)

/-- A call, with the message it returns `RT_EOK` for and the one it sends. -/
def msgCallAt (list : A) (turns : Nat) (heap : MsgHeap A) :
    MsgCall A → Option (MsgHeap A × Option (List U8) × Option (List U8))
  | .add block data => do
    let (heap, ok) ← addToSendMsgListAt list turns block data heap
    return (heap, if ok then some data else none, none)
  | .send => do
    let (heap, sent) ← sendMsgHandleAt list turns heap
    return (heap, none, sent)

/-- The calls one after another, with the messages accepted and those sent. -/
def msgRunAt (list : A) (turns : Nat) :
    List (MsgCall A) → MsgHeap A → Option (MsgHeap A × List (List U8) × List (List U8))
  | [], heap => some (heap, [], [])
  | call :: rest, heap => do
    let (heap, accepted, sent) ← msgCallAt list turns heap call
    let (heap, accepts, sends) ← msgRunAt list turns rest heap
    return (heap, accepted.toList ++ accepts, sent.toList ++ sends)

/-- At every call what `rt_calloc` finds is not in use. -/
def FreshBlocks (list : A) (turns : Nat) : List (MsgCall A) → MsgHeap A → Prop
  | [], _ => True
  | call :: rest, heap => call.Fresh list heap ∧
    ∀ result ∈ msgCallAt list turns heap call, FreshBlocks list turns rest result.1

instance (list : A) (turns : Nat) : (calls : List (MsgCall A)) → (heap : MsgHeap A) →
    Decidable (FreshBlocks list turns calls heap)
  | [], _ => inferInstanceAs (Decidable True)
  | call :: rest, heap =>
    have (result : MsgHeap A × Option (List U8) × Option (List U8)) :=
      instDecidableFreshBlocks list turns rest result.1
    inferInstanceAs (Decidable (_ ∧ ∀ result ∈ msgCallAt list turns heap call, _))

theorem MsgHeap.Holds.msgCallAt (h : heap.Holds list nodes msgs) (hlen : msgs.length ≤ msgListMax)
    (hturns : msgListMax < turns) {call : MsgCall A} (hfresh : call.Fresh list heap) :
    ∃ heap' nodes', msgCallAt list turns heap call =
        some (heap', listAccepts call.event msgs, listSends call.event msgs) ∧
      heap'.Holds list nodes' (listStep call.event msgs) := by
  cases call with
  | add block data =>
    obtain ⟨heap', nodes', hadd, hholds⟩ := h.addToSendMsgListAt hlen hturns hfresh data
    refine ⟨heap', nodes', ?_, hholds⟩
    rw [Hvac.msgCallAt, hadd]
    rfl
  | send =>
    obtain ⟨heap', nodes', hsend, hholds⟩ := h.sendMsgHandleAt hlen hturns
    refine ⟨heap', nodes', ?_, hholds⟩
    rw [Hvac.msgCallAt, hsend]
    rfl

theorem MsgHeap.Holds.msgRunAt {calls : List (MsgCall A)} (h : heap.Holds list nodes msgs)
    (hlen : msgs.length ≤ msgListMax) (hturns : msgListMax < turns)
    (hfresh : FreshBlocks list turns calls heap) :
    ∃ heap' nodes', msgRunAt list turns calls heap =
        some (heap', Machine.trace listStep listAccepts (calls.map MsgCall.event) msgs,
          Machine.trace listStep listSends (calls.map MsgCall.event) msgs) ∧
      heap'.Holds list nodes' (Machine.run listStep (calls.map MsgCall.event) msgs) := by
  induction calls generalizing heap nodes msgs with
  | nil => exact ⟨heap, nodes, rfl, h⟩
  | cons call rest ih =>
    obtain ⟨hfirst, hrest⟩ := hfresh
    obtain ⟨heap₁, nodes₁, hcall, hholds₁⟩ := h.msgCallAt hlen hturns hfirst
    obtain ⟨heap₂, nodes₂, hrun, hholds₂⟩ := ih hholds₁ (listStep_length _ hlen) (hrest _ hcall)
    refine ⟨heap₂, nodes₂, ?_, hholds₂⟩
    simp only [Hvac.msgRunAt, hcall, hrun, Option.bind_eq_bind, Option.bind_some]
    rfl

/-- After any additions and sends the nodes form a ring both ways and are the
messages of the run on lists, every loop having ended and every block given back
having been in use; what was accepted and sent is the same; and the blocks in use
are these nodes, twenty at most. -/
theorem send_list_in_memory (hturns : msgListMax < turns) (heap : MsgHeap A)
    (hlive : heap.live = []) (calls : List (MsgCall A))
    (hfresh : FreshBlocks list turns calls (initSendMsgList list heap)) :
    ∃ heap' nodes, msgRunAt list turns calls (initSendMsgList list heap) =
        some (heap', Machine.trace listStep listAccepts (calls.map MsgCall.event) [],
          Machine.trace listStep listSends (calls.map MsgCall.event) []) ∧
      heap'.Holds list nodes (Machine.run listStep (calls.map MsgCall.event) []) ∧
      heap'.live.length ≤ msgListMax := by
  have hstart : (initSendMsgList list heap).Holds list [] [] :=
    ⟨Dlist.ring_init, List.Perm.of_eq hlive, List.Forall₂.nil⟩
  obtain ⟨heap', nodes, hrun, hholds⟩ := hstart.msgRunAt (Nat.zero_le _) hturns hfresh
  refine ⟨heap', nodes, hrun, hholds, ?_⟩
  rw [hholds.live.length_eq, hholds.length]
  exact Machine.run_preserves (P := fun msgs : List Msg => msgs.length ≤ msgListMax)
    (fun e _ => listStep_length e) (Nat.zero_le _)

def emptyMsgHeap : MsgHeap Nat :=
  { links := ⟨id, id⟩, data := fun _ => [], len := fun _ => 0, live := [] }

/-- The block of the second message, refused as a prefix of the first, is used again. -/
theorem send_list_in_memory_prefix :
    let calls : List (MsgCall Nat) :=
      [.add (some 1) [0x01, 0x02], .add (some 2) [0x01], .add (some 2) [0x03], .add none [0x04],
        .send]
    ∃ heap' nodes, msgRunAt 0 21 calls (initSendMsgList 0 emptyMsgHeap) =
        some (heap', Machine.trace listStep listAccepts (calls.map MsgCall.event) [],
          Machine.trace listStep listSends (calls.map MsgCall.event) []) ∧
      heap'.Holds 0 nodes (Machine.run listStep (calls.map MsgCall.event) []) ∧
      heap'.live.length ≤ msgListMax :=
  send_list_in_memory (by decide) emptyMsgHeap rfl _ (by decide +kernel)

end Hvac
