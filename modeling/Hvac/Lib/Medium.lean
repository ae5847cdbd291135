import Hvac.Lib.Machine
import Mathlib.Logic.Function.Basic

/-!
# A shared lossy medium

Parties of one kind on one medium, with an outside speaker. A frame that was
ever put on the medium may reach each party at any time, any number of times,
or never. `σ` is the state of a party, `ε` a step of its own, `φ` a frame.
-/

namespace Medium

open Machine (Within run)

variable {ι σ ε φ : Type*}

/-- What one party does: by itself, on a frame, and what a step of its own sends. -/
structure Device (ι σ ε φ : Type*) where
  act : ε → σ → σ
  receive : φ → σ → σ
  sends : ι → ε → σ → Option φ

structure World (ι σ φ : Type*) where
  parties : ι → σ
  wire : List φ

inductive Action (ι ε φ : Type*)
  | speak (frame : φ)
  | deliver (i : ι) (frame : φ)
  | act (i : ι) (e : ε)

variable [DecidableEq ι]

def step (d : Device ι σ ε φ) : Action ι ε φ → World ι σ φ → World ι σ φ
  | .speak frame, w => { w with wire := frame :: w.wire }
  | .deliver i frame, w =>
    { w with parties := Function.update w.parties i (d.receive frame (w.parties i)) }
  | .act i e, w =>
    { parties := Function.update w.parties i (d.act e (w.parties i))
      wire := (d.sends i e (w.parties i)).toList ++ w.wire }

/-- What the speaker may say, and which steps a party may take. -/
structure Rules (ι σ ε φ : Type*) where
  speaks : φ → Prop
  acts : ι → ε → σ → Prop

/-- Only what is on the medium is delivered; the rest is up to the rules. -/
def Rules.Allows (rules : Rules ι σ ε φ) : Action ι ε φ → World ι σ φ → Prop
  | .speak frame, _ => rules.speaks frame
  | .deliver _ frame, w => frame ∈ w.wire
  | .act i e, w => rules.acts i e (w.parties i)

instance (rules : Rules ι σ ε φ) [DecidableEq φ] [∀ frame, Decidable (rules.speaks frame)]
    [∀ i e s, Decidable (rules.acts i e s)] :
    (a : Action ι ε φ) → (w : World ι σ φ) → Decidable (rules.Allows a w)
  | .speak frame, _ => inferInstanceAs (Decidable (rules.speaks frame))
  | .deliver _ frame, w => inferInstanceAs (Decidable (frame ∈ w.wire))
  | .act i e, w => inferInstanceAs (Decidable (rules.acts i e (w.parties i)))

structure Holds (P : ι → σ → Prop) (W : φ → Prop) (w : World ι σ φ) : Prop where
  parties : ∀ i, P i (w.parties i)
  wire : ∀ frame ∈ w.wire, W frame

/-- What has to be shown of one party and one frame for an invariant of all. -/
structure Inductive (d : Device ι σ ε φ) (rules : Rules ι σ ε φ) (P : ι → σ → Prop)
    (W : φ → Prop) : Prop where
  speaks : ∀ frame, rules.speaks frame → W frame
  receive : ∀ i frame s, W frame → P i s → P i (d.receive frame s)
  act : ∀ i e s, rules.acts i e s → P i s → P i (d.act e s)
  sends : ∀ i e s frame, rules.acts i e s → P i s → d.sends i e s = some frame → W frame

variable {d : Device ι σ ε φ} {rules : Rules ι σ ε φ} {P : ι → σ → Prop} {W : φ → Prop}
  {w : World ι σ φ}

theorem Inductive.step (h : Inductive d rules P W) (hallows : rules.Allows a w)
    (hw : Holds P W w) : Holds P W (step d a w) := by
  have hupdate (i : ι) (s : σ) (hs : P i s) (j : ι) : P j (Function.update w.parties i s j) := by
    by_cases hj : j = i
    · subst hj
      rwa [Function.update_self]
    · rw [Function.update_of_ne hj]
      exact hw.parties j
  cases a with
  | speak frame =>
    refine ⟨hw.parties, fun other hother => ?_⟩
    rcases List.mem_cons.mp hother with rfl | hold
    · exact h.speaks _ hallows
    · exact hw.wire _ hold
  | deliver i frame =>
    exact ⟨hupdate i _ (h.receive i frame _ (hw.wire frame hallows) (hw.parties i)), hw.wire⟩
  | act i e =>
    refine ⟨hupdate i _ (h.act i e _ hallows (hw.parties i)), fun other hother => ?_⟩
    rcases List.mem_append.mp hother with hsent | hold
    · exact h.sends i e _ _ hallows (hw.parties i) (Option.mem_toList.mp hsent)
    · exact hw.wire _ hold

theorem Inductive.run (h : Inductive d rules P W)
    (hallows : Within (Medium.step d) rules.Allows actions w) (hw : Holds P W w) :
    Holds P W (Machine.run (Medium.step d) actions w) :=
  hallows.preserves (fun _ _ => h.step) hw

end Medium
