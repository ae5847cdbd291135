import Mathlib.Logic.Function.Basic
import Mathlib.Data.List.Nodup

/-!
# Circular doubly linked lists

A list is a head that is a node itself: from the head each node leads to the
next, the last one back to the head, and each knows the one it is reached from.
Its loops take a bound on their turns and give nothing when it runs out, so
that their ending is part of what is proved. Addresses are any type.
-/

namespace Dlist

variable {α : Type*}

structure Links (α : Type*) where
  next : α → α
  prev : α → α

/-- The nodes after the node reached, till the head comes again. -/
def len (next : α → α) [DecidableEq α] (list : α) : Nat → α → Option Nat
  | 0, _ => none
  | turns + 1, node =>
    if next node = list then some 0 else (len next list turns (next node)).map (· + 1)

/-- The first node from here on that passes the test, if one does before the head comes. -/
def find (next : α → α) [DecidableEq α] (list : α) (test : α → Bool) :
    Nat → α → Option (Option α)
  | 0, _ => none
  | turns + 1, node =>
    if node = list then some none
    else if test node then some (some node)
    else find next list test turns (next node)

section
variable [DecidableEq α]

def init (list : α) (links : Links α) : Links α where
  next := Function.update links.next list list
  prev := Function.update links.prev list list

def insertAfter (list node : α) (links : Links α) : Links α where
  next := Function.update (Function.update links.next node (links.next list)) list node
  prev := Function.update (Function.update links.prev (links.next list) node) node list

/-- The two neighbours are joined and the node is left linked to itself. -/
def remove (node : α) (links : Links α) : Links α where
  next := Function.update (Function.update links.next (links.prev node) (links.next node)) node node
  prev := Function.update (Function.update links.prev (links.next node) (links.prev node)) node node

end

variable {links links' : Links α} {list start stop node : α}

-- ---------------------------------------------------------------------------
-- Paths
-- ---------------------------------------------------------------------------

/-- From one node over exactly these to another, linked both ways. -/
def Path (links : Links α) : α → List α → α → Prop
  | start, [], stop => links.next start = stop ∧ links.prev stop = start
  | start, node :: rest, stop =>
    links.next start = node ∧ links.prev node = start ∧ Path links node rest stop

/-- A closed path that meets no node twice. -/
structure Ring (links : Links α) (list : α) (members : List α) : Prop where
  path : Path links list members list
  nodup : (list :: members).Nodup

theorem path_append :
    Path links start (first ++ node :: second) stop ↔
      Path links start first node ∧ Path links node second stop := by
  induction first generalizing start with
  | nil => exact and_assoc.symm
  | cons other rest ih => simp only [List.cons_append, Path, ih, and_assoc]

/-- Changes elsewhere leave a path. -/
theorem Path.congr (h : Path links start nodes stop)
    (hnext : ∀ other ∈ start :: nodes, links'.next other = links.next other)
    (hprev : ∀ other ∈ nodes ++ [stop], links'.prev other = links.prev other) :
    Path links' start nodes stop := by
  induction nodes generalizing start with
  | nil =>
    obtain ⟨hn, hp⟩ := h
    exact ⟨(hnext start List.mem_cons_self).trans hn, (hprev stop List.mem_cons_self).trans hp⟩
  | cons other rest ih =>
    obtain ⟨hn, hp, hrest⟩ := h
    refine ⟨(hnext start List.mem_cons_self).trans hn,
      (hprev other List.mem_cons_self).trans hp, ?_⟩
    exact ih hrest (fun _ ho => hnext _ (List.mem_cons_of_mem _ ho))
      fun _ ho => hprev _ (List.mem_cons_of_mem _ ho)

/-- The last node before the end knows and is known by it. -/
theorem Path.ends (h : Path links start nodes stop) :
    links.prev stop = nodes.getLastD start ∧ links.next (nodes.getLastD start) = stop := by
  induction nodes generalizing start with
  | nil => exact ⟨h.2, h.1⟩
  | cons other rest ih =>
    rw [List.getLastD_cons]
    exact ih h.2.2

-- ---------------------------------------------------------------------------
-- Loops
-- ---------------------------------------------------------------------------

variable [DecidableEq α]

theorem Path.len_eq (h : Path links start nodes list) (hnodes : list ∉ nodes)
    (hturns : nodes.length < turns) :
    len links.next list turns start = some nodes.length := by
  induction nodes generalizing start turns with
  | nil =>
    obtain _ | turns := turns
    · exact absurd hturns (Nat.not_lt_zero _)
    · rw [len, if_pos h.1]
      rfl
  | cons node rest ih =>
    obtain _ | turns := turns
    · exact absurd hturns (Nat.not_lt_zero _)
    · obtain ⟨hnode, hrest⟩ := not_or.mp (mt List.mem_cons.mpr hnodes)
      rw [len, h.1, if_neg (Ne.symm hnode), ih h.2.2 hrest (Nat.lt_of_succ_lt_succ hturns)]
      rfl

theorem Ring.len_eq (h : Ring links list members) (hturns : members.length < turns) :
    len links.next list turns list = some members.length :=
  h.path.len_eq (List.nodup_cons.mp h.nodup).1 hturns

theorem Path.find_eq (h : Path links start nodes list) (hnodes : list ∉ nodes)
    (test : α → Bool) (hturns : nodes.length < turns) :
    find links.next list test turns (links.next start) = some (nodes.find? test) := by
  induction nodes generalizing start turns with
  | nil =>
    obtain _ | turns := turns
    · exact absurd hturns (Nat.not_lt_zero _)
    · rw [find, if_pos h.1]
      rfl
  | cons node rest ih =>
    obtain _ | turns := turns
    · exact absurd hturns (Nat.not_lt_zero _)
    · obtain ⟨hnode, hrest⟩ := not_or.mp (mt List.mem_cons.mpr hnodes)
      rw [find, h.1, if_neg (Ne.symm hnode), List.find?_cons]
      cases test node with
      | true => rfl
      | false => exact ih h.2.2 hrest (Nat.lt_of_succ_lt_succ hturns)

/-- The loop over a list finds the first of its nodes that passes the test. -/
theorem Ring.find_eq (h : Ring links list members) (test : α → Bool)
    (hturns : members.length < turns) :
    find links.next list test turns (links.next list) = some (members.find? test) :=
  h.path.find_eq (List.nodup_cons.mp h.nodup).1 test hturns

-- ---------------------------------------------------------------------------
-- Insertion and removal
-- ---------------------------------------------------------------------------

theorem ring_init : Ring (init list links) list [] :=
  ⟨⟨Function.update_self .., Function.update_self ..⟩, List.nodup_singleton _⟩

theorem Ring.insertAfter (h : Ring links list members) (hnode : node ∉ list :: members) :
    Ring (insertAfter list node links) list (node :: members) := by
  have hne : node ≠ list := fun heq => hnode (heq ▸ List.mem_cons_self)
  have hout : node ∉ members := fun hm => hnode (List.mem_cons_of_mem _ hm)
  obtain ⟨hlist, hmembers⟩ := List.nodup_cons.mp h.nodup
  refine ⟨⟨by simp [Dlist.insertAfter], by simp [Dlist.insertAfter], ?_⟩, ?_⟩
  · have hpath := h.path
    cases members with
    | nil =>
      obtain ⟨hn, -⟩ := hpath
      exact ⟨by simp [Dlist.insertAfter, hne, hn], by simp [Dlist.insertAfter, hne.symm, hn]⟩
    | cons first rest =>
      obtain ⟨hn, hp, hrest⟩ := hpath
      obtain ⟨hfirst, hrest'⟩ := List.nodup_cons.mp hmembers
      have hfn : first ≠ node := fun heq => hout (heq ▸ List.mem_cons_self)
      refine ⟨by simp [Dlist.insertAfter, hne, hn], by simp [Dlist.insertAfter, hfn, hn], ?_⟩
      refine hrest.congr (fun other ho => ?_) fun other ho => ?_
      · have hol : other ≠ list := fun heq => hlist (heq ▸ ho)
        have hon : other ≠ node := fun heq => hout (heq ▸ ho)
        simp [Dlist.insertAfter, hol, hon]
      · have hof : other ≠ first := by
          rintro rfl
          rcases List.mem_append.mp ho with ho | ho
          · exact hfirst ho
          · exact hlist (List.mem_singleton.mp ho ▸ List.mem_cons_self)
        have hon : other ≠ node := by
          rintro rfl
          rcases List.mem_append.mp ho with ho | ho
          · exact hout (List.mem_cons_of_mem _ ho)
          · exact hne (List.mem_singleton.mp ho)
        simp [Dlist.insertAfter, hn, hof, hon]
  · refine List.nodup_cons.mpr ⟨?_, List.nodup_cons.mpr ⟨hout, hmembers⟩⟩
    rw [List.mem_cons, not_or]
    exact ⟨hne.symm, hlist⟩

/-- A path whose last link is turned to another end. -/
theorem Path.redirect (h : Path links start nodes stop) (hnodup : (start :: nodes).Nodup)
    (hnode : node ∉ nodes) :
    Path ⟨Function.update links.next (links.prev stop) node,
      Function.update links.prev node (links.prev stop)⟩ start nodes node := by
  induction nodes generalizing start with
  | nil =>
    obtain ⟨-, hp⟩ := h
    exact ⟨by simp [hp], by simp [hp]⟩
  | cons other rest ih =>
    obtain ⟨hstart, hrest⟩ := List.nodup_cons.mp hnodup
    obtain ⟨hother, hnode'⟩ := not_or.mp (mt List.mem_cons.mpr hnode)
    have hlast : start ≠ links.prev stop := by
      rw [h.2.2.ends.1]
      intro heq
      exact hstart (heq ▸ List.getLastD_mem_cons)
    refine ⟨?_, ?_, ih h.2.2 hrest hnode'⟩
    · exact (Function.update_of_ne hlast ..).trans h.1
    · exact (Function.update_of_ne (Ne.symm hother) ..).trans h.2.1

/-- Taking out a node joins what is before it to what is after it. -/
theorem Path.join (h : Path links start (first ++ node :: second) stop)
    (hnodup : (start :: first ++ node :: second).Nodup) (hstop : stop ∉ first ++ node :: second) :
    Path ⟨Function.update links.next (links.prev node) (links.next node),
      Function.update links.prev (links.next node) (links.prev node)⟩ start (first ++ second)
      stop := by
  obtain ⟨hbefore, hafter⟩ := path_append.mp h
  have hfirst : (start :: first).Nodup := hnodup.sublist (List.sublist_append_left ..)
  have hsecond : (node :: second).Nodup := hnodup.sublist (List.sublist_append_right ..)
  have hapart : ∀ other ∈ start :: first, other ∉ node :: second := fun other ho hs =>
    (List.nodup_append.mp hnodup).2.2 other ho other hs rfl
  have hstop' : stop ∉ first := fun hm => hstop (List.mem_append_left _ hm)
  cases second with
  | nil =>
    rw [List.append_nil, hafter.1]
    exact hbefore.redirect hfirst hstop'
  | cons after rest =>
    obtain ⟨hn, hp, hrest⟩ := hafter
    have hafter' : after ∉ first := fun hm =>
      hapart after (List.mem_cons_of_mem _ hm) (List.mem_cons_of_mem _ List.mem_cons_self)
    rw [hn]
    refine path_append.mpr ⟨hbefore.redirect hfirst hafter', hrest.congr ?_ ?_⟩
    · intro other ho
      have hne : other ≠ links.prev node := by
        rw [hbefore.ends.1]
        rintro rfl
        exact hapart _ List.getLastD_mem_cons (List.mem_cons_of_mem _ ho)
      exact Function.update_of_ne hne ..
    · intro other ho
      have hne : other ≠ after := by
        rintro rfl
        rcases List.mem_append.mp ho with ho | ho
        · exact (List.nodup_cons.mp (List.nodup_cons.mp hsecond).2).1 ho
        · refine hstop (List.mem_append_right _ (List.mem_cons_of_mem _ ?_))
          exact List.mem_singleton.mp ho ▸ List.mem_cons_self
      exact Function.update_of_ne hne ..

theorem Ring.remove (h : Ring links list (first ++ node :: second)) :
    Ring (remove node links) list (first ++ second) := by
  have hnodup := h.nodup
  obtain ⟨hlist, hmembers⟩ := List.nodup_cons.mp h.nodup
  have hsub : (first ++ second).Sublist (first ++ node :: second) :=
    (List.sublist_cons_self ..).append_left _
  have hout : node ∉ first ++ second := (List.nodup_cons.mp (List.nodup_middle.mp hmembers)).1
  have hne : list ≠ node := by
    rintro rfl
    exact hlist (List.mem_append_right _ List.mem_cons_self)
  refine ⟨(h.path.join h.nodup hlist).congr (fun other ho => ?_) fun other ho => ?_, ?_⟩
  · refine Function.update_of_ne ?_ ..
    rintro rfl
    rcases List.mem_cons.mp ho with heq | ho
    · exact hne heq.symm
    · exact hout ho
  · refine Function.update_of_ne ?_ ..
    rintro rfl
    rcases List.mem_append.mp ho with ho | ho
    · exact hout ho
    · exact hne (List.mem_singleton.mp ho).symm
  · exact hnodup.sublist (hsub.cons_cons _)

end Dlist
