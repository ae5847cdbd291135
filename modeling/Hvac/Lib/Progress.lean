import Hvac.Lib.Machine

/-!
# Progress

What a run of an event machine reaches once enough of its steps have been of a
kind that counts, whatever other steps come in between: a rank that no step
raises and every counted one lowers gives the bound.
-/

namespace Machine

variable {σ ε β : Type*} {step : ε → σ → σ} {guard : ε → σ → Prop} {out : ε → σ → Option β}
  {counts : ε → σ → Bool}

/-- How many steps of a run count. -/
def counted (step : ε → σ → σ) (counts : ε → σ → Bool) : List ε → σ → Nat
  | [], _ => 0
  | e :: rest, s => (counts e s).toNat + counted step counts rest (step e s)

@[simp] theorem counted_nil : counted step counts [] s = 0 := rfl

@[simp] theorem counted_cons :
    counted step counts (e :: rest) s = (counts e s).toNat + counted step counts rest (step e s) :=
  rfl

/-- What every step of a guarded run keeps or shows, the run keeps or shows. -/
theorem Within.kept_or_shown {P : σ → Prop} {Q : β → Prop} (h : Within step guard events s)
    (hstep : ∀ e s, guard e s → P s → P (step e s) ∨ ∃ b, out e s = some b ∧ Q b) (hs : P s) :
    P (run step events s) ∨ ∃ b ∈ trace step out events s, Q b := by
  induction events generalizing s with
  | nil => exact .inl hs
  | cons e rest ih =>
    obtain hnext | ⟨b, hshown, hb⟩ := hstep e s h.1 hs
    · obtain hlast | ⟨b, hmem, hb⟩ := ih h.2 hnext
      · exact .inl hlast
      · exact .inr ⟨b, List.mem_append_right _ hmem, hb⟩
    · exact .inr ⟨b, List.mem_append_left _ (Option.mem_toList.mpr hshown), hb⟩

/-- A guarded run with more counted steps than the rank reaches the goal and stays
there, or shows what was to be shown. -/
theorem Within.reaches (out : ε → σ → Option β) (P goal : σ → Prop) (Q : β → Prop)
    (rank : σ → Nat) (h : Within step guard events s)
    (hgoal : ∀ e s, guard e s → goal s → goal (step e s) ∨ ∃ b, out e s = some b ∧ Q b)
    (hstep : ∀ e s, guard e s → P s → goal (step e s) ∨ (∃ b, out e s = some b ∧ Q b) ∨
      P (step e s) ∧ rank (step e s) + (counts e s).toNat ≤ rank s)
    (hs : P s) (hcount : rank s < counted step counts events s) :
    goal (run step events s) ∨ ∃ b ∈ trace step out events s, Q b := by
  induction events generalizing s with
  | nil => exact absurd hcount (Nat.not_lt_zero _)
  | cons e rest ih =>
    obtain hreached | ⟨b, hshown, hb⟩ | ⟨hnext, hrank⟩ := hstep e s h.1 hs
    · obtain hlast | ⟨b, hmem, hb⟩ := Within.kept_or_shown h.2 hgoal hreached
      · exact .inl hlast
      · exact .inr ⟨b, List.mem_append_right _ hmem, hb⟩
    · exact .inr ⟨b, List.mem_append_left _ (Option.mem_toList.mpr hshown), hb⟩
    · rw [counted_cons] at hcount
      obtain hlast | ⟨b, hmem, hb⟩ := ih h.2 hnext (by omega)
      · exact .inl hlast
      · exact .inr ⟨b, List.mem_append_right _ hmem, hb⟩

end Machine
