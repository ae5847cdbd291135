import Hvac.Invariants

/-!
# Relay interlocks

The second stages of heating and cooling never run together, and nothing runs
without the fan. A pattern either drives all five pins, and then it respects
this, or drives none; so what is left of an older pattern respects it as well.
-/

namespace Hvac

structure Relays.Interlocked (relays : Relays) : Prop where
  stages : ¬(relays.w2 = true ∧ relays.y2 = true)
  fan : relays.w = true ∨ relays.y = true ∨ relays.w2 = true ∨ relays.y2 = true → relays.g = true

instance (relays : Relays) : Decidable relays.Interlocked :=
  decidable_of_iff
    (¬(relays.w2 = true ∧ relays.y2 = true) ∧
      (relays.w = true ∨ relays.y = true ∨ relays.w2 = true ∨ relays.y2 = true → relays.g = true))
    ⟨fun h => ⟨h.1, h.2⟩, fun h => ⟨h.stages, h.fan⟩⟩

theorem Relays.off_interlocked : Relays.off.Interlocked := by decide

/-- Nothing is written, or what is written is interlocked and leaves nothing of
the outputs before it. -/
def AllPinsOrNone (writes : List (Relay × Bool)) : Prop :=
  writes = [] ∨ (Relays.off.writeAll writes).Interlocked ∧
    ∀ relays : Relays, relays.writeAll writes = Relays.off.writeAll writes

theorem ctrlRelayWrites_allPinsOrNone (c s en mode : U8) :
    AllPinsOrNone (ctrlRelayWrites c s en mode) := by
  unfold ctrlRelayWrites
  repeat' split
  all_goals
    first
    | exact .inl rfl
    | exact .inr ⟨by decide, fun _ => rfl⟩

theorem Relays.Interlocked.writeAll {relays : Relays} (h : relays.Interlocked) (c s en mode : U8) :
    (relays.writeAll (ctrlRelayWrites c s en mode)).Interlocked := by
  obtain hnone | ⟨hpattern, hall⟩ := ctrlRelayWrites_allPinsOrNone c s en mode
  · rw [hnone]
    exact h
  · rw [hall]
    exact hpattern

/-- A call of the control program, or anything between two calls: register
writes, menu edits, readings, the clock. All but the outputs may change. -/
inductive ControlEvent
  | controlProgram (adc : Adc)
  | between (after : Module)

def controlStep : ControlEvent → Module → Module
  | .controlProgram adc, m => controlProgram adc m
  | .between after, m => { after with relays := m.relays }

theorem controlProgram_interlocked (adc : Adc) (h : m.relays.Interlocked) :
    (controlProgram adc m).relays.Interlocked := by
  refine controlProgram_preserves (P := fun m => m.relays.Interlocked) adc ?_ ?_ ?_ ?_ ?_ ?_ h
  · exact fun _ h => h
  · exact fun _ h => h.writeAll ..
  · exact fun _ _ h => h
  · exact fun _ _ h => h
  · exact fun _ h => h
  · exact fun _ _ _ h => h.writeAll ..

theorem controlStep_interlocked (e : ControlEvent) (h : m.relays.Interlocked) :
    (controlStep e m).relays.Interlocked := by
  cases e with
  | controlProgram adc => exact controlProgram_interlocked adc h
  | between after => exact h

/-- From all relays off, after every call of the control program, whatever
happens between the calls. -/
theorem relays_interlocked (m : Module) (h : m.relays = .off) (events : List ControlEvent)
    (adc : Adc) :
    (controlProgram adc (Machine.run controlStep events m)).relays.Interlocked := by
  apply controlProgram_interlocked
  refine Machine.run_preserves (P := fun m : Module => m.relays.Interlocked)
    (fun e _ => controlStep_interlocked e) ?_
  rw [h]
  exact Relays.off_interlocked

theorem relays_interlocked_otherMode :
    (controlProgram ⟨⟨true, 0, true, true⟩, ⟨true, 0, true, true⟩⟩
      (Machine.run controlStep
        [.between { blank with sensor.temp := 100 },
          .controlProgram ⟨⟨true, 0, true, true⟩, ⟨true, 0, true, true⟩⟩,
          .between { blank with sensor.temp := 100, info.mode := 7 }] blank)).relays.Interlocked :=
  relays_interlocked blank rfl _ _

/-- Only the control program and a boot touch the outputs. -/
theorem step_cases_relays (e : Event) (m : Module) :
    (∃ adc, e = .controlProgram adc) ∨ e = .reboot ∨ (step e m).relays = m.relays := by
  cases e with
  | controlProgram adc => exact .inl ⟨adc, rfl⟩
  | reboot => exact .inr (.inl rfl)
  | poll alloc =>
    refine .inr (.inr ?_)
    rw [step]
    by_cases h : m.Pending
    · rw [uartPoll_pending h]
      exact (uart1Analysis_undisturbed alloc m.rx.data m.handedLen (uart1CleanRecvFlag m)).relays
    · rw [uartPoll_idle h]
  | _ => exact .inr (.inr ((step_unpolled (by simp) (by simp)).relays (by simp)))

/-- A step of the module that is no boot is a call or lies between two calls. -/
theorem step_controlStep (h : e ≠ .reboot) : ∃ e', step e m = controlStep e' m := by
  rcases step_cases_relays e m with ⟨adc, rfl⟩ | he | hrelays
  · exact ⟨.controlProgram adc, rfl⟩
  · exact absurd he h
  · refine ⟨.between (step e m), ?_⟩
    rw [controlStep, ← hrelays]

theorem Reachable.interlocked (h : Reachable m) : m.relays.Interlocked := by
  refine Machine.Reachable.invariant (P := fun m => m.relays.Interlocked) h ?_ fun e m hm => ?_
  · rintro _ ⟨flash, rtc, uniqueId, rfl⟩
    exact Relays.off_interlocked
  · by_cases hboot : e = .reboot
    · subst hboot
      exact Relays.off_interlocked
    · obtain ⟨e', he⟩ := step_controlStep (m := m) hboot
      rw [he]
      exact controlStep_interlocked e' hm

end Hvac
