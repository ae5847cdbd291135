import Mathlib.Logic.Function.Basic
import Mathlib.Data.List.Basic

/-!
# Singly linked lists

Nodes at addresses, each with the address of the next; a list is a head whose
chain of nodes ends. The loops take a bound on their turns and give nothing
when it runs out, so that their ending is part of what is proved. Addresses are
any type.
-/

namespace Slist

variable {α : Type*}

/-- Take a step from node to node at most so many times, till the end. -/
def tail (next : α → Option α) : Nat → α → Option α
  | 0, _ => none
  | turns + 1, node =>
    match next node with
    | none => some node
    | some node' => tail next turns node'

/-- The nodes a traversal visits, the head not among them. -/
def nodes (next : α → Option α) : Nat → α → Option (List α)
  | 0, _ => none
  | turns + 1, node =>
    match next node with
    | none => some []
    | some node' => (nodes next turns node').map (node' :: ·)

def len (next : α → Option α) : Nat → α → Option Nat
  | 0, _ => none
  | turns + 1, node =>
    match next node with
    | none => some 0
    | some node' => (len next turns node').map (· + 1)

section
variable [DecidableEq α]

def insert (list node : α) (next : α → Option α) : α → Option α :=
  Function.update (Function.update next node (next list)) list (some node)

/-- Where the loop of a removal stops: before the node, or at the end. -/
def before (next : α → Option α) (target : α) : Nat → α → Option α
  | 0, _ => none
  | turns + 1, node =>
    match next node with
    | none => some node
    | some node' => if node' = target then some node else before next target turns node'

def remove (turns : Nat) (list target : α) (next : α → Option α) : Option (α → Option α) :=
  (before next target turns list).map fun node =>
    match next node with
    | none => next
    | some node' => Function.update next node (next node')

end

variable {next : α → Option α} {list : α}

-- ---------------------------------------------------------------------------
-- Chains
-- ---------------------------------------------------------------------------

/-- From the head, exactly these nodes follow. -/
def Chain (next : α → Option α) : α → List α → Prop
  | list, [] => next list = none
  | list, node :: rest => next list = some node ∧ Chain next node rest

/-- A chain that meets no address twice. -/
structure IsList (next : α → Option α) (list : α) (members : List α) : Prop where
  chain : Chain next list members
  nodup : (list :: members).Nodup

/-- Changes elsewhere leave a chain. -/
theorem Chain.congr (h : Chain next list members)
    (hsame : ∀ node ∈ list :: members, next' node = next node) : Chain next' list members := by
  induction members generalizing list with
  | nil => exact (hsame list List.mem_cons_self).trans h
  | cons node rest ih =>
    obtain ⟨hfirst, hrest⟩ := h
    refine ⟨(hsame list List.mem_cons_self).trans hfirst, ih hrest fun other ho => ?_⟩
    exact hsame other (List.mem_cons_of_mem _ ho)

theorem Chain.nodes_eq (h : Chain next list members) (hturns : members.length < turns) :
    nodes next turns list = some members := by
  induction members generalizing list turns with
  | nil =>
    obtain _ | turns := turns
    · exact absurd hturns (Nat.not_lt_zero _)
    · rw [nodes, show next list = none from h]
  | cons node rest ih =>
    obtain _ | turns := turns
    · exact absurd hturns (Nat.not_lt_zero _)
    · rw [nodes, h.1]
      simp only [ih h.2 (Nat.lt_of_succ_lt_succ hturns), Option.map_some]

theorem Chain.len_eq (h : Chain next list members) (hturns : members.length < turns) :
    len next turns list = some members.length := by
  induction members generalizing list turns with
  | nil =>
    obtain _ | turns := turns
    · exact absurd hturns (Nat.not_lt_zero _)
    · rw [len, show next list = none from h]
      rfl
  | cons node rest ih =>
    obtain _ | turns := turns
    · exact absurd hturns (Nat.not_lt_zero _)
    · rw [len, h.1]
      simp only [ih h.2 (Nat.lt_of_succ_lt_succ hturns), Option.map_some, List.length_cons]

/-- Before its end the chain leads from the last node but one to the last. -/
theorem Chain.next_last (h : Chain next list (members ++ [last])) :
    next (members.getLastD list) = some last ∧ next last = none := by
  induction members generalizing list with
  | nil => exact h
  | cons node rest ih =>
    rw [List.getLastD_cons]
    exact ih h.2

theorem Chain.tail_eq (h : Chain next list (members ++ [last]))
    (hturns : members.length + 1 < turns) :
    tail next turns list = some last := by
  induction members generalizing list turns with
  | nil =>
    obtain _ | _ | turns := turns
    · exact absurd hturns (Nat.not_lt_zero _)
    · exact absurd hturns (Nat.lt_irrefl _)
    · obtain ⟨hfirst, hend⟩ := h
      rw [tail, hfirst]
      simp only [tail, show next last = none from hend]
  | cons node rest ih =>
    obtain _ | turns := turns
    · exact absurd hturns (Nat.not_lt_zero _)
    · rw [tail, h.1]
      exact ih h.2 (Nat.lt_of_succ_lt_succ hturns)

variable [DecidableEq α]

-- ---------------------------------------------------------------------------
-- Insertion at the head
-- ---------------------------------------------------------------------------

theorem IsList.insert (h : IsList next list members) (hfresh : node ∉ list :: members) :
    IsList (insert list node next) list (node :: members) := by
  have hne : node ≠ list := fun heq => hfresh (heq ▸ List.mem_cons_self)
  have hnode : node ∉ members := fun hm => hfresh (List.mem_cons_of_mem _ hm)
  obtain ⟨hlist, hmembers⟩ := List.nodup_cons.mp h.nodup
  have hlist' : list ∉ node :: members := by
    rw [List.mem_cons, not_or]
    exact ⟨hne.symm, hlist⟩
  refine ⟨⟨by simp [Slist.insert], ?_⟩, ?_⟩
  · have hfirst : Slist.insert list node next node = next list := by simp [Slist.insert, hne]
    have hrest (other : α) (ho : other ∈ members) :
        Slist.insert list node next other = next other := by
      have hol : other ≠ list := fun heq => hlist (heq ▸ ho)
      have hon : other ≠ node := fun heq => hnode (heq ▸ ho)
      simp [Slist.insert, hol, hon]
    have hchain := h.chain
    cases members with
    | nil => exact hfirst.trans hchain
    | cons first rest =>
      exact ⟨hfirst.trans hchain.1, hchain.2.congr hrest⟩
  · exact List.nodup_cons.mpr ⟨hlist', List.nodup_cons.mpr ⟨hnode, hmembers⟩⟩

-- ---------------------------------------------------------------------------
-- Removal of the last node
-- ---------------------------------------------------------------------------

theorem Chain.before_last (h : Chain next list (members ++ [last]))
    (hnodup : (members ++ [last]).Nodup) (hturns : members.length < turns) :
    before next last turns list = some (members.getLastD list) := by
  induction members generalizing list turns with
  | nil =>
    obtain _ | turns := turns
    · exact absurd hturns (Nat.not_lt_zero _)
    · rw [before, h.1]
      simp
  | cons node rest ih =>
    obtain _ | turns := turns
    · exact absurd hturns (Nat.not_lt_zero _)
    · obtain ⟨hnode, hrest⟩ := List.nodup_cons.mp hnodup
      have hne : node ≠ last := fun heq => hnode (heq ▸ List.mem_append_right _ List.mem_cons_self)
      rw [before, h.1]
      simp only [hne, if_false]
      rw [ih h.2 hrest (Nat.lt_of_succ_lt_succ hturns), List.getLastD_cons]

/-- A chain cut off after its last but one node. -/
theorem Chain.cut (h : Chain next list (members ++ [last]))
    (hnodup : (list :: members).Nodup) :
    Chain (Function.update next (members.getLastD list) none) list members := by
  induction members generalizing list with
  | nil => exact Function.update_self ..
  | cons node rest ih =>
    obtain ⟨hlist, hrest⟩ := List.nodup_cons.mp hnodup
    have hne : list ≠ rest.getLastD node := by
      intro heq
      exact hlist (heq ▸ List.getLastD_mem_cons)
    rw [List.getLastD_cons]
    refine ⟨?_, ih h.2 hrest⟩
    rw [Function.update_of_ne hne]
    exact h.1

theorem IsList.remove_last (h : IsList next list (members ++ [last]))
    (hturns : members.length < turns) :
    ∃ next', remove turns list last next = some next' ∧ IsList next' list members := by
  obtain ⟨hlist, hmembers⟩ := List.nodup_cons.mp h.nodup
  have hnodup : (list :: members).Nodup := by
    refine List.nodup_cons.mpr ⟨fun hm => hlist (List.mem_append_left _ hm), ?_⟩
    exact hmembers.sublist (List.sublist_append_left ..)
  obtain ⟨hnext, hend⟩ := h.chain.next_last
  refine ⟨_, ?_, h.chain.cut hnodup, hnodup⟩
  rw [remove, h.chain.before_last hmembers hturns, Option.map_some]
  simp only [hnext, hend]

end Slist
