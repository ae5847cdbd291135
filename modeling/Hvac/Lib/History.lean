import Mathlib.Data.List.Induction
import Hvac.Lib.Machine

/-!
# Histories

What has been observed of a run so far, oldest first: properties an observation
has in view of those before it, spells that last until now, and the induction
rule for a guarded run together with its history.
-/

namespace Machine

variable {σ ε β : Type*} {step : ε → σ → σ} {guard : ε → σ → Prop} {out : ε → σ → Option β}

/-- Each observation has the property in view of those before it. -/
def EachAfter (P : List β → β → Prop) (history : List β) : Prop :=
  ∀ before b after, history = before ++ b :: after → P before b

@[simp] theorem eachAfter_nil {P : List β → β → Prop} : EachAfter P [] := by
  rintro before b after h
  simp at h

@[simp] theorem eachAfter_concat {P : List β → β → Prop} :
    EachAfter P (history ++ [b]) ↔ EachAfter P history ∧ P history b := by
  constructor
  · intro h
    refine ⟨?_, h history b [] rfl⟩
    rintro before b' after rfl
    exact h before b' (after ++ [b]) (by simp)
  · rintro ⟨h, hb⟩ before b' after heq
    cases after using List.reverseRecOn with
    | nil =>
      obtain ⟨rfl, hlast⟩ := List.append_inj' heq rfl
      cases hlast
      exact hb
    | append_singleton after last =>
      rw [← List.cons_append, ← List.append_assoc] at heq
      obtain ⟨rfl, -⟩ := List.append_inj' heq rfl
      exact h before b' after rfl

/-- The property has held at every observation from `first` to the last. -/
def Since (P : β → Prop) (first : β) (history : List β) : Prop :=
  ∃ early spell, history = early ++ first :: spell ∧ P first ∧ ∀ b ∈ spell, P b

theorem Since.start {P : β → Prop} (h : P b) (history : List β) : Since P b (history ++ [b]) :=
  ⟨history, [], rfl, h, by simp⟩

theorem Since.extend {P : β → Prop} (h : Since P first history) (hb : P b) :
    Since P first (history ++ [b]) := by
  obtain ⟨early, spell, rfl, hfirst, hspell⟩ := h
  refine ⟨early, spell ++ [b], by simp, hfirst, ?_⟩
  intro b' hmem
  obtain hmem | hmem := List.mem_append.mp hmem
  · exact hspell b' hmem
  · rw [List.mem_singleton.mp hmem]
    exact hb

theorem Since.last {P : β → Prop} (h : Since P first (history ++ [b])) : P b := by
  obtain ⟨early, spell, heq, hfirst, hspell⟩ := h
  cases spell using List.reverseRecOn with
  | nil =>
    obtain ⟨-, hlast⟩ := List.append_inj' heq rfl
    cases hlast
    exact hfirst
  | append_singleton spell last =>
    rw [← List.cons_append, ← List.append_assoc] at heq
    obtain ⟨-, hlast⟩ := List.append_inj' heq rfl
    cases hlast
    exact hspell b (by simp)

theorem Since.before {P : β → Prop} (h : Since P first (history ++ [b])) (hne : first ≠ b) :
    Since P first history := by
  obtain ⟨early, spell, heq, hfirst, hspell⟩ := h
  cases spell using List.reverseRecOn with
  | nil =>
    obtain ⟨-, hlast⟩ := List.append_inj' heq rfl
    cases hlast
    exact absurd rfl hne
  | append_singleton spell last =>
    rw [← List.cons_append, ← List.append_assoc] at heq
    obtain ⟨rfl, -⟩ := List.append_inj' heq rfl
    exact ⟨early, spell, rfl, hfirst, fun b' hmem => hspell b' (List.mem_append_left _ hmem)⟩

theorem Within.history {R : σ → List β → Prop} (h : Within step guard events s)
    (hstep : ∀ e s past, guard e s → R s past → R (step e s) (past ++ (out e s).toList))
    (hs : R s past) : R (run step events s) (past ++ trace step out events s) := by
  induction events generalizing s past with
  | nil => simpa using hs
  | cons e rest ih =>
    have hrest := ih h.2 (hstep e s past h.1 hs)
    rw [List.append_assoc] at hrest
    exact hrest

end Machine
