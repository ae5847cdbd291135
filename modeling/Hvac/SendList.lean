import Hvac.Communicate
import Hvac.Lib.Machine

/-!
# Runs of the send list

Additions and sends in any order. As a bag the list is exact: what it accepted
it has sent or still holds. As a queue it is not: messages go in and out at the
same end.
-/

namespace Hvac

open Machine (Within)

inductive ListEvent
  | add (calloc : Bool) (data : List U8)
  | send

def listStep : ListEvent → List Msg → List Msg
  | .add calloc data, list => queue calloc data list
  | .send, list => (sendMsgHandle list).1

/-- The message an addition returns `RT_EOK` for. -/
def listAccepts : ListEvent → List Msg → Option (List U8)
  | .add calloc data, list => if (addToSendMsgList calloc data list).2 then some data else none
  | .send, _ => none

def listSends : ListEvent → List Msg → Option (List U8)
  | .add _ _, _ => none
  | .send, list => (sendMsgHandle list).2

/-- Callers add messages with at least one byte. -/
def AddsBytes : ListEvent → List Msg → Prop
  | .add _ data, _ => 1 ≤ data.length
  | .send, _ => True

instance : (e : ListEvent) → (list : List Msg) → Decidable (AddsBytes e list)
  | .add _ data, _ => inferInstanceAs (Decidable (1 ≤ data.length))
  | .send, _ => inferInstanceAs (Decidable True)

-- ---------------------------------------------------------------------------
-- What a step does
-- ---------------------------------------------------------------------------

/-- A step does nothing, or accepts a message in front, or sends the one in front. -/
theorem listStep_cases (e : ListEvent) (list : List Msg) :
    (listStep e list = list ∧ listAccepts e list = none ∧ listSends e list = none ∧
      (e = .send → ∀ first ∈ list.head?, first.len = 0)) ∨
    (∃ calloc data, ∃ hfits : data.length ≤ msgSize, e = .add calloc data ∧
      listStep e list = ⟨data, hfits⟩ :: list ∧ listAccepts e list = some data ∧
      listSends e list = none ∧ list.length < msgListMax ∧
      ∀ older ∈ list, older.data.take data.length ≠ data) ∨
    ∃ first rest, e = .send ∧ list = first :: rest ∧ first.len ≠ 0 ∧ listStep e list = rest ∧
      listAccepts e list = none ∧ listSends e list = some first.body := by
  cases e with
  | add calloc data =>
    rcases addToSendMsgList_cases calloc data list with hadd | ⟨hfits, -, hroom, hnew, hadd⟩
    · exact .inl (by simp [listStep, listAccepts, listSends, queue, hadd])
    · refine .inr (.inl ⟨calloc, data, hfits, rfl, ?_, ?_, rfl, hroom, hnew⟩)
      · simp [listStep, queue, hadd]
      · simp [listAccepts, hadd]
  | send =>
    cases list with
    | nil => exact .inl ⟨rfl, rfl, rfl, by simp⟩
    | cons first rest =>
      by_cases hlen : first.len = 0
      · exact .inl (by simp [listStep, listAccepts, listSends, sendMsgHandle, hlen])
      · refine .inr (.inr ⟨first, rest, rfl, rfl, hlen, ?_, rfl, ?_⟩)
        · simp [listStep, sendMsgHandle_cons hlen]
        · simp [listSends, sendMsgHandle_cons hlen]

-- ---------------------------------------------------------------------------
-- A bag
-- ---------------------------------------------------------------------------

theorem listStep_length (e : ListEvent) (h : list.length ≤ msgListMax) :
    (listStep e list).length ≤ msgListMax := by
  rcases listStep_cases e list with
    ⟨hs, -⟩ | ⟨_, _, _, -, hs, -, -, hroom, -⟩ | ⟨_, _, -, rfl, -, hs, -⟩ <;> rw [hs]
  · exact h
  · exact hroom
  · exact Nat.le_of_succ_le h

theorem listStep_len (hg : AddsBytes e list) (h : ∀ msg ∈ list, msg.len ≠ 0) :
    ∀ msg ∈ listStep e list, msg.len ≠ 0 := by
  intro msg hmsg
  rcases listStep_cases e list with
    ⟨hs, -⟩ | ⟨_, data, _, rfl, hs, -⟩ | ⟨_, _, -, rfl, -, hs, -⟩ <;> rw [hs] at hmsg
  · exact h msg hmsg
  · rcases List.mem_cons.mp hmsg with rfl | hmsg
    · exact Nat.ne_of_gt hg
    · exact h msg hmsg
  · exact h msg (List.mem_cons_of_mem _ hmsg)

/-- What was held and what is accepted is what is sent and what is held then. -/
theorem listStep_perm (e : ListEvent) (list : List Msg) :
    (list.map Msg.body ++ (listAccepts e list).toList).Perm
      ((listSends e list).toList ++ (listStep e list).map Msg.body) := by
  rcases listStep_cases e list with
    ⟨hs, ha, ho, -⟩ | ⟨_, _, _, -, hs, ha, ho, -⟩ | ⟨_, _, -, rfl, -, hs, ha, ho⟩ <;>
      rw [hs, ha, ho]
  · simp
  · exact List.perm_append_singleton ..
  · simp

theorem run_send_eq_drop (h : ∀ msg ∈ list, msg.len ≠ 0) (n : Nat) :
    Machine.run listStep (List.replicate n .send) list = list.drop n := by
  induction n generalizing list with
  | zero => rfl
  | succ n ih =>
    rw [List.replicate_succ, Machine.run_cons]
    cases list with
    | nil => exact (ih h).trans List.drop_nil
    | cons first rest =>
      rw [listStep, sendMsgHandle_cons (h first List.mem_cons_self)]
      exact ih fun msg hmsg => h msg (List.mem_cons_of_mem _ hmsg)

/-- After any run of additions and sends: the list has room for what it holds,
what was accepted has been sent, once and as it was, or is held, nothing else
was sent, a refusal changes nothing, and twenty sends empty the list. -/
theorem send_list_exact (h : Within listStep AddsBytes events []) :
    (Machine.run listStep events []).length ≤ msgListMax ∧
    (Machine.trace listStep listAccepts events []).Perm
      (Machine.trace listStep listSends events [] ++
        (Machine.run listStep events []).map Msg.body) ∧
    (∀ calloc data, (addToSendMsgList calloc data (Machine.run listStep events [])).2 = false →
      listStep (.add calloc data) (Machine.run listStep events []) =
        Machine.run listStep events []) ∧
    Machine.run listStep (List.replicate msgListMax .send) (Machine.run listStep events []) =
      [] := by
  have hroom : (Machine.run listStep events []).length ≤ msgListMax :=
    Machine.run_preserves (P := fun list : List Msg => list.length ≤ msgListMax)
      (fun e _ => listStep_length e) (Nat.zero_le _)
  refine ⟨hroom, ?_, ?_, ?_⟩
  · exact Machine.trace_perm (s := []) listStep_perm
  · intro calloc data hrefused
    rcases addToSendMsgList_cases calloc data (Machine.run listStep events []) with
      hadd | ⟨_, -, -, -, hadd⟩
    · rw [listStep, queue, hadd]
    · rw [hadd] at hrefused
      cases hrefused
  · have hlen := h.preserves (P := fun list : List Msg => ∀ msg ∈ list, msg.len ≠ 0)
      (fun _ _ => listStep_len) (fun msg hmsg => absurd hmsg List.not_mem_nil)
    rw [run_send_eq_drop hlen]
    exact List.drop_eq_nil_of_le hroom

/-- The second of three messages has left; one more of them is refused, and the two
that are held leave. -/
theorem send_list_exact_two :
    let events : List ListEvent := [.add true [0x01], .add true [0x02], .send, .add true [0x03]]
    [[0x01], [0x02], [0x03]].Perm ([[0x02]] ++ (Machine.run listStep events []).map Msg.body) ∧
      listStep (.add true [0x03]) (Machine.run listStep events []) =
        Machine.run listStep events [] ∧
      Machine.run listStep (List.replicate msgListMax .send) (Machine.run listStep events []) =
        [] := by
  intro events
  have hsent : Machine.trace listStep listSends events [] = [[0x02]] := by decide
  obtain ⟨-, hperm, hrefused, hempty⟩ :=
    send_list_exact (show Within listStep AddsBytes events [] by decide)
  rw [hsent] at hperm
  exact ⟨hperm, hrefused true [0x03] (by decide), hempty⟩

-- ---------------------------------------------------------------------------
-- Not a queue
-- ---------------------------------------------------------------------------

/-- Every send finds at most one message. -/
def FindsOne : ListEvent → List Msg → Prop
  | .add _ _, _ => True
  | .send, list => list.length ≤ 1

/-- No message is a prefix of one that was queued before it. -/
def Spaced (list : List Msg) : Prop :=
  list.Pairwise fun newer older => older.data.take newer.len ≠ newer.body

theorem Spaced.body_ne (h : Spaced (newer :: rest)) (hmem : older ∈ rest) :
    newer.body ≠ older.body := by
  intro heq
  have hne := List.rel_of_pairwise_cons h hmem
  rw [Msg.len, heq] at hne
  exact hne older.take_len_data

theorem Spaced.len_ne_zero (h : Spaced (newer :: rest)) (hmem : older ∈ rest) :
    newer.len ≠ 0 := by
  intro hlen
  have hne := List.rel_of_pairwise_cons h hmem
  rw [hlen, List.take_zero] at hne
  exact hne (List.eq_nil_of_length_eq_zero hlen).symm

theorem listStep_spaced (e : ListEvent) (h : Spaced list) : Spaced (listStep e list) := by
  rcases listStep_cases e list with
    ⟨hs, -⟩ | ⟨_, _, _, -, hs, -, -, -, hnew⟩ | ⟨_, _, -, rfl, -, hs, -⟩ <;> rw [hs]
  · exact h
  · exact List.pairwise_cons.mpr ⟨hnew, h⟩
  · exact h.of_cons

/-- From a list whose messages were queued one after the other, the oldest last:
they and what is accepted then leave in order exactly when no send has a choice. -/
theorem sends_prefix_iff (h : Spaced list) :
    Machine.trace listStep listSends events list <+:
        (list.map Msg.body).reverse ++ Machine.trace listStep listAccepts events list ↔
      Within listStep FindsOne events list := by
  induction events generalizing list with
  | nil => exact iff_of_true List.nil_prefix trivial
  | cons e rest ih =>
    have hrest := ih (listStep_spaced e h)
    rw [Machine.trace_cons, Machine.trace_cons, Machine.within_cons]
    rcases listStep_cases e list with
      ⟨hs, ha, ho, hidle⟩ | ⟨_, _, _, rfl, hs, ha, ho, -⟩ | ⟨newest, older, rfl, rfl, hlen, hs, ha, ho⟩ <;>
        rw [hs] at hrest ⊢ <;> rw [ha, ho]
    · -- a list whose newest message is empty has no other
      have hone : FindsOne e list := by
        cases e with
        | add => trivial
        | send =>
          match list, hidle rfl, h with
          | [], _, _ => exact Nat.zero_le 1
          | [_], _, _ => exact Nat.le_refl 1
          | newest :: next :: _, hempty, h =>
            exact absurd (hempty newest rfl) (h.len_ne_zero List.mem_cons_self)
      simpa [hone] using hrest
    · simpa [FindsOne] using hrest
    · cases older with
      | nil => simpa [FindsOne] using hrest
      | cons next older =>
        -- the oldest, another message, was to leave
        refine iff_of_false (fun hprefix => ?_) fun hone => absurd hone.1 (by simp [FindsOne])
        obtain ⟨oldest, between, hsplit⟩ :=
          List.exists_cons_of_ne_nil (l := ((next :: older).map Msg.body).reverse) (by simp)
        have hmem : oldest ∈ ((next :: older).map Msg.body).reverse :=
          hsplit ▸ List.mem_cons_self
        obtain ⟨msg, hmsg, rfl⟩ := List.mem_map.mp (List.mem_reverse.mp hmem)
        rw [List.map_cons, List.reverse_cons, hsplit] at hprefix
        exact h.body_ne hmsg (List.cons_prefix_cons.mp hprefix).1

/-- In any run the accepted messages leave in the order in which they were added
exactly when every send finds at most one of them in the list. -/
theorem sends_in_order (events : List ListEvent) :
    Machine.trace listStep listSends events [] <+:
        Machine.trace listStep listAccepts events [] ↔
      Within listStep FindsOne events [] :=
  sends_prefix_iff List.Pairwise.nil

theorem sends_in_order_fails :
    ¬∀ events, Machine.trace listStep listSends events [] <+:
      Machine.trace listStep listAccepts events [] := by
  intro h
  exact absurd (h [.add true [0x01], .add true [0x02], .send]) (by decide)

end Hvac
