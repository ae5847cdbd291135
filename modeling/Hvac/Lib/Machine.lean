import Mathlib.Logic.Basic
import Mathlib.Data.List.Basic

/-!
# Event machines

A machine is a total step function from an event and a state to a state. This
file has its runs, what is observed along a run, the runs whose every step
meets a guard, and the induction rules the invariants are proved with. It
names no system: `σ` is any state, `ε` any event.
-/

namespace Machine

variable {σ ε β : Type*}

def run (step : ε → σ → σ) : List ε → σ → σ
  | [], s => s
  | e :: rest, s => run step rest (step e s)

/-- What the events of a run show, in order. An event may show nothing. -/
def trace (step : ε → σ → σ) (out : ε → σ → Option β) : List ε → σ → List β
  | [], _ => []
  | e :: rest, s => (out e s).toList ++ trace step out rest (step e s)

/-- Every step of the run meets the guard, at the state it is taken from. -/
def Within (step : ε → σ → σ) (guard : ε → σ → Prop) : List ε → σ → Prop
  | [], _ => True
  | e :: rest, s => guard e s ∧ Within step guard rest (step e s)

instance (step : ε → σ → σ) (guard : ε → σ → Prop) [∀ e s, Decidable (guard e s)] :
    (events : List ε) → (s : σ) → Decidable (Within step guard events s)
  | [], _ => inferInstanceAs (Decidable True)
  | e :: rest, s =>
    have := instDecidableWithin step guard rest (step e s)
    inferInstanceAs (Decidable (guard e s ∧ Within step guard rest (step e s)))

def Reachable (step : ε → σ → σ) (init : σ → Prop) (s : σ) : Prop :=
  ∃ s₀ events, init s₀ ∧ run step events s₀ = s

variable {step : ε → σ → σ} {guard : ε → σ → Prop} {out : ε → σ → Option β}

@[simp] theorem run_nil : run step [] s = s := rfl
@[simp] theorem run_cons : run step (e :: rest) s = run step rest (step e s) := rfl

@[simp] theorem run_append : run step (first ++ second) s = run step second (run step first s) := by
  induction first generalizing s with
  | nil => rfl
  | cons e rest ih => exact ih

@[simp] theorem trace_nil : trace step out [] s = [] := rfl
@[simp] theorem trace_cons :
    trace step out (e :: rest) s = (out e s).toList ++ trace step out rest (step e s) := rfl

theorem trace_append :
    trace step out (first ++ second) s =
      trace step out first s ++ trace step out second (run step first s) := by
  induction first generalizing s with
  | nil => rfl
  | cons e rest ih => simp [ih]

@[simp] theorem within_nil : Within step guard [] s := trivial
@[simp] theorem within_cons :
    Within step guard (e :: rest) s ↔ guard e s ∧ Within step guard rest (step e s) := Iff.rfl

theorem Within.mono {weaker : ε → σ → Prop} (hg : ∀ e s, guard e s → weaker e s)
    (h : Within step guard events s) : Within step weaker events s := by
  induction events generalizing s with
  | nil => trivial
  | cons e rest ih => exact ⟨hg _ _ h.1, ih h.2⟩

theorem Within.left (h : Within step guard (first ++ second) s) : Within step guard first s := by
  induction first generalizing s with
  | nil => trivial
  | cons e rest ih => exact ⟨h.1, ih h.2⟩

theorem within_append : Within step guard (first ++ second) s ↔
    Within step guard first s ∧ Within step guard second (run step first s) := by
  induction first generalizing s with
  | nil => simp
  | cons e rest ih => simp [ih, and_assoc]

/-- A guarded run is one in which every step meets the guard where it is taken. -/
theorem within_iff_forall_append :
    Within step guard events s ↔
      ∀ before e after, events = before ++ e :: after → guard e (run step before s) := by
  constructor
  · rintro h before e after rfl
    induction before generalizing s with
    | nil => exact h.1
    | cons first before ih => exact ih h.2
  · intro h
    induction events generalizing s with
    | nil => trivial
    | cons e rest ih =>
      refine ⟨h [] e rest rfl, ih fun before e' after heq => ?_⟩
      exact h (e :: before) e' after (by rw [heq]; rfl)

/-- Guards that agree where an invariant holds admit the same runs. -/
theorem within_congr {guard' : ε → σ → Prop} {P : σ → Prop}
    (hstep : ∀ e ∈ events, ∀ s, P s → P (step e s))
    (hiff : ∀ e ∈ events, ∀ s, P s → (guard e s ↔ guard' e s)) (hs : P s) :
    Within step guard events s ↔ Within step guard' events s := by
  induction events generalizing s with
  | nil => exact Iff.rfl
  | cons e rest ih =>
    have hrest := ih (fun e he => hstep e (List.mem_cons_of_mem _ he))
      (fun e he => hiff e (List.mem_cons_of_mem _ he)) (hstep e List.mem_cons_self s hs)
    rw [within_cons, within_cons, hiff e List.mem_cons_self s hs, hrest]

/-- A property every guarded step preserves holds after a guarded run. -/
theorem Within.preserves {P : σ → Prop} (h : Within step guard events s)
    (hstep : ∀ e s, guard e s → P s → P (step e s)) (hs : P s) : P (run step events s) := by
  induction events generalizing s with
  | nil => exact hs
  | cons e rest ih => exact ih h.2 (hstep e s h.1 hs)

/-- What a guarded run shows has a property that every step shows under an
invariant of the guarded steps. -/
theorem Within.mem_trace {P : σ → Prop} {Q : β → Prop} (h : Within step guard events s)
    (hstep : ∀ e s, guard e s → P s → P (step e s))
    (hout : ∀ e s b, P s → out e s = some b → Q b) (hs : P s) :
    ∀ b ∈ trace step out events s, Q b := by
  induction events generalizing s with
  | nil => exact fun b hb => nomatch hb
  | cons e rest ih =>
    intro b hb
    rcases List.mem_append.mp hb with hhead | htail
    · exact hout e s b hs (Option.mem_toList.mp hhead)
    · exact ih h.2 (hstep e s h.1 hs) b htail

/-- What a run shows has a property that every step shows under an invariant. -/
theorem mem_trace {P : σ → Prop} {Q : β → Prop} (hstep : ∀ e s, P s → P (step e s))
    (hout : ∀ e s b, P s → out e s = some b → Q b) (hs : P s) :
    ∀ b ∈ trace step out events s, Q b := by
  induction events generalizing s with
  | nil => exact fun b hb => nomatch hb
  | cons e rest ih =>
    intro b hb
    rcases List.mem_append.mp hb with hhead | htail
    · exact hout e s b hs (Option.mem_toList.mp hhead)
    · exact ih (hstep e s hs) b htail

theorem run_preserves {P : σ → Prop} (hstep : ∀ e s, P s → P (step e s)) (hs : P s) :
    P (run step events s) := by
  induction events generalizing s with
  | nil => exact hs
  | cons e rest ih => exact ih (hstep e s hs)

theorem Reachable.invariant {init P : σ → Prop} (h : Reachable step init s)
    (hinit : ∀ s, init s → P s) (hstep : ∀ e s, P s → P (step e s)) : P s := by
  obtain ⟨s₀, events, hs₀, rfl⟩ := h
  exact run_preserves hstep (hinit s₀ hs₀)

/-- Two observations agree along a guarded run when every step keeps what has
been shown of the first equal to what has been shown of the second, followed
by what the state still holds back. -/
theorem Within.trace_eq {left right : ε → σ → Option β} {held : σ → List β}
    (h : Within step guard events s)
    (hstep : ∀ e s, guard e s →
      held s ++ (left e s).toList = (right e s).toList ++ held (step e s)) :
    held s ++ trace step left events s =
      trace step right events s ++ held (run step events s) := by
  induction events generalizing s with
  | nil => simp
  | cons e rest ih =>
    have hhead := hstep e s h.1
    have htail := ih h.2
    simp only [trace_cons, run_cons]
    rw [← List.append_assoc, hhead, List.append_assoc, htail, List.append_assoc]

/-- The same with bags: what comes in leaves in some order, or is still held. -/
theorem trace_perm {left right : ε → σ → Option β} {held : σ → List β}
    (hstep : ∀ e s, (held s ++ (left e s).toList).Perm ((right e s).toList ++ held (step e s))) :
    (held s ++ trace step left events s).Perm
      (trace step right events s ++ held (run step events s)) := by
  induction events generalizing s with
  | nil => simp
  | cons e rest ih =>
    have hhead := (hstep e s).append_right (trace step left rest (step e s))
    have htail := (ih (s := step e s)).append_left (right e s).toList
    simp only [List.append_assoc] at hhead htail
    simp only [trace_cons, run_cons, List.append_assoc]
    exact hhead.trans htail

/-- A part of the state that every step changes by itself runs by itself. -/
theorem run_component {ε' σ' : Type*} {step' : ε' → σ' → σ'} {view : ε → ε'} {p : σ → σ'}
    {I : σ → Prop} (hkeep : ∀ e s, I s → I (step e s))
    (hp : ∀ e s, I s → p (step e s) = step' (view e) (p s)) (hs : I s) :
    p (run step events s) = run step' (events.map view) (p s) := by
  induction events generalizing s with
  | nil => rfl
  | cons e rest ih =>
    have hrest := ih (hkeep e s hs)
    rw [hp e s hs] at hrest
    exact hrest

theorem trace_component {ε' σ' : Type*} {step' : ε' → σ' → σ'} {out' : ε' → σ' → Option β}
    {view : ε → ε'} {p : σ → σ'} {I : σ → Prop} (hkeep : ∀ e s, I s → I (step e s))
    (hp : ∀ e s, I s → p (step e s) = step' (view e) (p s))
    (hout : ∀ e s, I s → out e s = out' (view e) (p s)) (hs : I s) :
    trace step out events s = trace step' out' (events.map view) (p s) := by
  induction events generalizing s with
  | nil => rfl
  | cons e rest ih =>
    have hrest := ih (hkeep e s hs)
    rw [hp e s hs] at hrest
    rw [trace_cons, hout e s hs, hrest]
    rfl

/-- Some state of the run has the property, its first and its last included. -/
def Visits (step : ε → σ → σ) (P : σ → Prop) : List ε → σ → Prop
  | [], s => P s
  | e :: rest, s => P s ∨ Visits step P rest (step e s)

instance (step : ε → σ → σ) (P : σ → Prop) [∀ s, Decidable (P s)] :
    (events : List ε) → (s : σ) → Decidable (Visits step P events s)
  | [], s => inferInstanceAs (Decidable (P s))
  | e :: rest, s =>
    have := instDecidableVisits step P rest (step e s)
    inferInstanceAs (Decidable (P s ∨ Visits step P rest (step e s)))

theorem not_visits {P : σ → Prop} (hstep : ∀ e ∈ events, ∀ s, P (step e s) → P s) (hs : ¬P s) :
    ¬Visits step P events s := by
  induction events generalizing s with
  | nil => exact hs
  | cons e rest ih =>
    rintro (h | h)
    · exact hs h
    · exact ih (fun e he => hstep e (List.mem_cons_of_mem _ he))
        (mt (hstep e List.mem_cons_self s) hs) h

/-- The last observation of a run, or the one before the run. -/
def latest (step : ε → σ → σ) (out : ε → σ → Option β) (events : List ε) (s : σ) (b : β) : β :=
  (trace step out events s).getLastD b

@[simp] theorem latest_nil (b : β) : latest step out [] s b = b := rfl

@[simp] theorem latest_cons (b : β) :
    latest step out (e :: rest) s b = latest step out rest (step e s) ((out e s).getD b) := by
  unfold latest
  rw [trace_cons]
  cases out e s with
  | none => rfl
  | some b' => exact List.getLastD_cons ..

theorem latest_append (b : β) :
    latest step out (first ++ second) s b =
      latest step out second (run step first s) (latest step out first s b) := by
  induction first generalizing s b with
  | nil => rfl
  | cons e rest ih =>
    rw [List.cons_append, latest_cons, latest_cons, run_cons]
    exact ih _

/-- A relation of the state to the last observation that every guarded step keeps. -/
theorem Within.latest {R : σ → β → Prop} (h : Within step guard events s)
    (hstep : ∀ e s b, guard e s → R s b → R (step e s) ((out e s).getD b)) (hs : R s b) :
    R (run step events s) (latest step out events s b) := by
  induction events generalizing s b with
  | nil => exact hs
  | cons e rest ih =>
    rw [latest_cons]
    exact ih h.2 (hstep e s b h.1 hs)

/-- A relation of the state to the last observation that every step keeps. -/
theorem run_latest {R : σ → β → Prop} (hstep : ∀ e s b, R s b → R (step e s) ((out e s).getD b))
    (hs : R s b) : R (run step events s) (latest step out events s b) := by
  induction events generalizing s b with
  | nil => exact hs
  | cons e rest ih =>
    rw [latest_cons]
    exact ih (hstep e s b hs)

-- ---------------------------------------------------------------------------
-- Refinement
-- ---------------------------------------------------------------------------

section
variable {ε' σ' : Type*} {step' : ε' → σ' → σ'} {view : ε → σ → List ε'} {R : σ → σ' → Prop}

/-- The events of another machine that the steps of a run stand for. -/
def expand (step : ε → σ → σ) (view : ε → σ → List ε') : List ε → σ → List ε'
  | [], _ => []
  | e :: rest, s => view e s ++ expand step view rest (step e s)

/-- When every step is for the other machine the run it stands for, so is every run. -/
theorem run_expand (hstep : ∀ e s s', R s s' → R (step e s) (run step' (view e s) s'))
    (h : R s s') : R (run step events s) (run step' (expand step view events s) s') := by
  induction events generalizing s s' with
  | nil => exact h
  | cons e rest ih =>
    rw [expand, run_append]
    exact ih (hstep e s s' h)

/-- And when every step shows what its run shows, so does every run. -/
theorem trace_expand {out' : ε' → σ' → Option β}
    (hstep : ∀ e s s', R s s' → R (step e s) (run step' (view e s) s'))
    (hout : ∀ e s s', R s s' → (out e s).toList = trace step' out' (view e s) s') (h : R s s') :
    trace step out events s = trace step' out' (expand step view events s) s' := by
  induction events generalizing s s' with
  | nil => rfl
  | cons e rest ih =>
    rw [expand, trace_cons, trace_append, hout e s s' h, ih (hstep e s s' h)]

/-- The same when what the run shows comes later: it is held back between the two. -/
theorem Within.trace_expand_held {out' : ε' → σ' → Option β} (view : ε → σ → List ε')
    (R : σ → σ' → List β → Prop) (h : Within step guard events s)
    (hstep : ∀ e s s' held, guard e s → R s s' held → ∃ held',
      R (step e s) (run step' (view e s) s') held' ∧
        held ++ trace step' out' (view e s) s' = (out e s).toList ++ held')
    (hs : R s s' held) : ∃ held',
      R (run step events s) (run step' (expand step view events s) s') held' ∧
        held ++ trace step' out' (expand step view events s) s' =
          trace step out events s ++ held' := by
  induction events generalizing s s' held with
  | nil => exact ⟨held, hs, by simp [expand]⟩
  | cons e rest ih =>
    obtain ⟨held₁, hnext, hnow⟩ := hstep e s s' held h.1 hs
    obtain ⟨held₂, hlast, hlater⟩ := ih h.2 hnext
    refine ⟨held₂, ?_, ?_⟩
    · rw [expand, run_append]
      exact hlast
    · rw [expand, trace_append, ← List.append_assoc, hnow, List.append_assoc, hlater, trace_cons,
        List.append_assoc]

end

end Machine
