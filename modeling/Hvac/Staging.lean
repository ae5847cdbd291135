import Hvac.Lib.History
import Hvac.Thermostat
import Hvac.Ticks

/-!
# The second stage

The second stage is meant for a unit that has been driven in one direction for
five minutes. The statics that count this are only kept up to date by a call
that compares the temperature: one that ends before leaves them as they are,
and one that the lost connection stops has already counted.
-/

namespace Hvac

open Machine (EachAfter Since Within)

structure TickRecord where
  time : Nat
  mode : U8
  stage : U8
  deriving DecidableEq, Repr

def tickRecord (t : Tick) (m : Module) : TickRecord :=
  let after := tickStep t m
  ⟨after.timeRun, after.info.coolOrHeat, after.control.stage⟩

def tickHistory (ticks : List Tick) (m : Module) : List TickRecord :=
  Machine.trace tickStep (fun t m => some (tickRecord t m)) ticks m

theorem tickHistory_concat (ticks : List Tick) (t : Tick) (m : Module) :
    tickHistory (ticks ++ [t]) m =
      tickHistory ticks m ++ [tickRecord t (Machine.run tickStep ticks m)] :=
  Machine.trace_append

/-- If it is the second stage, the unit has been driven in this mode at every
tick since one more than five minutes ago. -/
def Earned (before : List TickRecord) (r : TickRecord) : Prop :=
  r.mode ≠ norun → r.stage = 2 →
    ∃ first, first.time + 300 < r.time ∧ Since (fun x => x.mode = r.mode) first (before ++ [r])

-- ---------------------------------------------------------------------------
-- The statics as a count
-- ---------------------------------------------------------------------------

theorem next_coolOrHeat (s : ControlStatics) (now : Nat) (t : Int) (c : U8) :
    (s.next now t c).coolOrHeat = c := by
  unfold ControlStatics.next
  split
  · rfl
  · rename_i hsame
    rw [Decidable.not_not] at hsame
    split <;> exact hsame

variable {s : ControlStatics}

theorem next_changed (h : s.coolOrHeat ≠ c) : s.next now t c = ⟨now, t, 1, c⟩ := if_pos h

theorem next_same (h : s.coolOrHeat = c) (now : Nat) (t : Int) :
    (s.next now t c).lastTime = s.lastTime ∧
      ((s.next now t c).stage = 2 → s.stage = 2 ∨ s.lastTime + 300 < now) := by
  unfold ControlStatics.next
  rw [if_neg (not_not_intro h)]
  split
  · rename_i hlate
    exact ⟨rfl, fun _ => .inr hlate.1⟩
  · exact ⟨rfl, .inl⟩

/-- The direction in the statics is that of every tick since the time in the
statics, and the second stage is five minutes later. -/
def Counts (m : Module) (past : List TickRecord) : Prop :=
  m.control.coolOrHeat ≠ norun →
    (∃ first, first.time = m.control.lastTime ∧
      Since (fun x => x.mode = m.control.coolOrHeat) first past) ∧
    (m.control.stage = 2 → m.control.lastTime + 300 < m.timeRun)

/-- The call leaves no direction in the statics that it does not drive: it does
not end early while there is one, and the lost connection does not stop it. -/
def KeepsCount (t : Tick) (m : Module) : Prop :=
  (EndsEarly t.adc (t.finds m) → m.control.coolOrHeat = norun) ∧
    (¬EndsEarly t.adc (t.finds m) → GatedOff (t.finds m) → Satisfied t.adc (t.finds m))

instance (t : Tick) (m : Module) : Decidable (KeepsCount t m) :=
  inferInstanceAs (Decidable (_ ∧ _))

theorem Counts.of_norun (h : m.control.coolOrHeat = norun) : Counts m past :=
  fun hc => absurd h hc

theorem Earned.of_norun (h : r.mode = norun) : Earned past r := fun hmode => absurd h hmode

/-- A tick that drives a direction records it and passes it to the statics. -/
theorem tickStep_drives (hends : ¬EndsEarly t.adc (t.finds m))
    (hband : ¬Satisfied t.adc (t.finds m)) (hopen : ¬GatedOff (t.finds m)) :
    ∃ c, c ≠ norun ∧ (tickRecord t m).mode = c ∧ (tickStep t m).control =
      m.control.next (tickStep t m).timeRun (temperatureOf t.adc (t.finds m)) c := by
  have hcontrol := controlProgram_control hends
  have hmode := controlProgram_demand (fun hr => hends (.inl hr)) hopen
  refine ⟨_, mt demand_norun.mp hband, hmode, ?_⟩
  rw [tickStep_timeRun]
  exact hcontrol

/-- The direction goes on: the spell is one tick longer. -/
theorem counts_extend (hactive : c ≠ norun) (hsame : m.control.coolOrHeat = c)
    (hmode : (tickRecord t m).mode = c)
    (hcontrol : (tickStep t m).control = m.control.next (tickStep t m).timeRun temperature c)
    (h : Counts m past) :
    Counts (tickStep t m) (past ++ [tickRecord t m]) ∧ Earned past (tickRecord t m) := by
  obtain ⟨hlast, hstage⟩ := next_same hsame (tickStep t m).timeRun temperature
  obtain ⟨⟨first, hfirst, hsince⟩, hcount⟩ := h (hsame ▸ hactive)
  rw [← hcontrol] at hlast hstage
  have hlate : (tickStep t m).control.stage = 2 →
      m.control.lastTime + 300 < (tickStep t m).timeRun := by
    intro h₂
    obtain h₂ | h₂ := hstage h₂
    · rw [tickStep_timeRun]
      exact Nat.lt_succ_of_lt (hcount h₂)
    · exact h₂
  rw [hsame] at hsince
  have hextended := hsince.extend hmode
  refine ⟨fun _ => ⟨⟨first, ?_, ?_⟩, ?_⟩, fun _ h₂ => ⟨first, ?_, ?_⟩⟩
  · exact hfirst.trans hlast.symm
  · rw [hcontrol, next_coolOrHeat]
    exact hextended
  · rw [hlast]
    exact hlate
  · rw [hfirst]
    exact hlate h₂
  · rw [hmode]
    exact hextended

/-- The direction is new: the count starts over, at the first stage. -/
theorem counts_start (hchange : m.control.coolOrHeat ≠ c) (hmode : (tickRecord t m).mode = c)
    (hcontrol : (tickStep t m).control = m.control.next (tickStep t m).timeRun temperature c) :
    Counts (tickStep t m) (past ++ [tickRecord t m]) ∧ Earned past (tickRecord t m) := by
  rw [next_changed hchange] at hcontrol
  have hsince : Since (fun x => x.mode = c) (tickRecord t m) (past ++ [tickRecord t m]) :=
    Since.start (P := fun x : TickRecord => x.mode = c) hmode past
  have hfirst : (tickStep t m).control.stage ≠ 2 := by
    rw [hcontrol]
    exact (by decide : (1 : U8) ≠ 2)
  refine ⟨fun _ => ⟨⟨tickRecord t m, ?_, ?_⟩, fun h₂ => absurd h₂ hfirst⟩,
    fun _ h₂ => absurd h₂ hfirst⟩
  · rw [hcontrol]
    rfl
  · rw [hcontrol]
    exact hsince

theorem tickStep_counts (hkeeps : KeepsCount t m) (h : Counts m past) :
    Counts (tickStep t m) (past ++ [tickRecord t m]) ∧ Earned past (tickRecord t m) := by
  obtain ⟨hearly, hgate⟩ := hkeeps
  cases Decidable.em (EndsEarly t.adc (t.finds m)) with
  | inl hends =>
    -- stopped, and nothing was being counted
    have hstep : tickStep t m = stop (takeSamples t.adc (t.finds m)) :=
      controlProgram_endsEarly hends
    refine ⟨.of_norun ?_, .of_norun ?_⟩
    · rw [hstep]
      exact hearly hends
    · simp only [tickRecord, hstep]
      rfl
  | inr hends =>
    cases Decidable.em (Satisfied t.adc (t.finds m)) with
    | inl hband =>
      have hcontrol := controlProgram_control hends
      rw [demand_inDeadband hband] at hcontrol
      refine ⟨.of_norun ?_, .of_norun (controlProgram_quiet (.inr (.inr hband))).1⟩
      rw [tickStep, hcontrol]
      exact next_coolOrHeat ..
    | inr hband =>
      obtain ⟨c, hactive, hmode, hcontrol⟩ :=
        tickStep_drives hends hband fun hg => hband (hgate hends hg)
      cases Decidable.em (m.control.coolOrHeat = c) with
      | inl hsame => exact counts_extend hactive hsame hmode hcontrol h
      | inr hchange => exact counts_start hchange hmode hcontrol

def CountsSoFar (m : Module) (past : List TickRecord) : Prop :=
  Counts m past ∧ EachAfter Earned past

/-- From boot, in every run whose ticks keep the count, every second stage is
earned. -/
theorem second_stage_earned (hstart : m.control = {}) (ticks : List Tick)
    (h : Within tickStep KeepsCount ticks m) : EachAfter Earned (tickHistory ticks m) := by
  have hrun : CountsSoFar (Machine.run tickStep ticks m) ([] ++ tickHistory ticks m) := by
    refine h.history (R := CountsSoFar) ?_ ⟨?_, Machine.eachAfter_nil⟩
    · rintro t m past hkeeps ⟨hcounts, hearned⟩
      obtain ⟨hcounts', hearned'⟩ := tickStep_counts hkeeps hcounts
      exact ⟨hcounts', Machine.eachAfter_concat.mpr ⟨hearned, hearned'⟩⟩
    · intro hc
      rw [hstart] at hc
      exact absurd rfl hc
  exact hrun.2

/-- The master sends 40.0 degrees and tells it to follow its schedule. -/
def coolingSecond : Tick :=
  secondAfter [[0x00, 0x06, 0xF0, 0x02, 0x01, 0x90], [0x01, 0x06, 0x04, 0x01, 0x85, 0x00]]

def stoppedSecond : Tick :=
  secondAfter [[0x00, 0x06, 0xF0, 0x02, 0x01, 0x90], [0x01, 0x06, 0x04, 0x01, 0x86, 0x00]]

theorem second_stage_earned_cooling :
    EachAfter Earned (tickHistory (List.replicate 303 coolingSecond) blank) :=
  second_stage_earned (by decide +kernel) _ (by decide +kernel)

/-- Cooling for a second, then five minutes off: the next second cools at the
second stage. -/
theorem second_stage_earned_fails :
    ¬∀ m ticks, m.control = {} → EachAfter Earned (tickHistory ticks m) := by
  intro h
  have hall := h blank (coolingSecond :: List.replicate 300 stoppedSecond ++ [stoppedSecond] ++
    [coolingSecond]) (by decide +kernel)
  rw [tickHistory_concat, tickHistory_concat, Machine.eachAfter_concat] at hall
  obtain ⟨first, htime, hsince⟩ := hall.2 (by decide +kernel) (by decide +kernel)
  have hother := (hsince.before fun heq => ?_).last
  · exact absurd hother (by decide +kernel)
  · rw [heq] at htime
    exact absurd htime (Nat.not_lt.mpr (Nat.le_add_right ..))

end Hvac
