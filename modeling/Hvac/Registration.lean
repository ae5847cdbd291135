import Hvac.Invariants

/-!
# A fresh registration

An answer to the registration makes a module registered and notes the time. The
watch over the connection respects this for as long as the timeout, unless the
time noted is zero, which it takes for never.
-/

namespace Hvac

open Machine (Within)

def MainLoop : Event → Prop
  | .timeRunning | .controlProgram _ | .monitorConnectedState => True
  | _ => False

/-- A step of the main loop that does not leave the timeout of a contact at `t`. -/
def WithinTimeout (t : Nat) (e : Event) (m : Module) : Prop :=
  MainLoop e ∧ (step e m).timeRun ≤ t + timeout

structure Fresh (t : Nat) (m : Module) : Prop where
  registered : m.info.registerState = yes
  heard : m.lastConnectTime = t
  recent : m.timeRun ≤ t + timeout

theorem Fresh.not_lost (h : Fresh t m) (ht : t ≠ 0) : ¬m.Lost := by
  obtain ⟨-, rfl, hrecent⟩ := h
  rintro (hzero | hlate)
  · exact ht hzero
  · exact Nat.not_lt_of_le hrecent hlate

theorem monitorConnectedState_fresh (h : Fresh t m) (ht : t ≠ 0) :
    monitorConnectedState m = { m with info.connected := yes } := if_neg (h.not_lost ht)

theorem Fresh.step (h : Fresh t m) (ht : t ≠ 0) (hg : WithinTimeout t e m) : Fresh t (step e m) := by
  obtain ⟨hloop, hrecent⟩ := hg
  cases e with
  | timeRunning => exact ⟨h.registered, h.heard, hrecent⟩
  | controlProgram adc =>
    have hkept := (controlProgram_thermostatOnly adc m).bystander
    exact ⟨hkept.registerState.trans h.registered, hkept.lastConnectTime.trans h.heard, hrecent⟩
  | monitorConnectedState =>
    rw [Hvac.step, monitorConnectedState_fresh h ht]
    exact ⟨h.registered, h.heard, h.recent⟩
  | _ => exact hloop.elim

theorem connected_step (h : Fresh t m) (ht : t ≠ 0) (hg : WithinTimeout t e m)
    (hconnected : m.info.connected = yes ∨ e = .monitorConnectedState) :
    (step e m).info.connected = yes := by
  obtain ⟨hloop, -⟩ := hg
  cases e with
  | timeRunning => exact hconnected.resolve_right (by simp)
  | controlProgram adc =>
    exact (controlProgram_thermostatOnly adc m).bystander.connected.trans
      (hconnected.resolve_right (by simp))
  | monitorConnectedState => rw [step, monitorConnectedState_fresh h ht]
  | _ => exact hloop.elim

theorem Fresh.run (h : Fresh t m) (ht : t ≠ 0) (hg : Within Hvac.step (WithinTimeout t) events m) :
    Fresh t (run events m) :=
  hg.preserves (fun _ _ hg h => h.step ht hg) h

theorem Fresh.connected (h : Fresh t m) (ht : t ≠ 0)
    (hg : Within Hvac.step (WithinTimeout t) events m) (hmem : .monitorConnectedState ∈ events) :
    (Hvac.run events m).info.connected = yes := by
  obtain ⟨before, after, rfl⟩ := List.append_of_mem hmem
  obtain ⟨hbefore, hmonitor, hafter⟩ := Machine.within_append.mp hg
  have hstart := h.run ht hbefore
  have hfirst := connected_step hstart ht hmonitor (.inr rfl)
  rw [Hvac.run, Machine.run_append, Machine.run_cons]
  have hboth := hafter.preserves
    (P := fun m => Fresh t m ∧ m.info.connected = yes)
    (fun _ _ hg h => ⟨h.1.step ht hg, connected_step h.1 ht hg (.inl h.2)⟩)
    ⟨hstart.step ht hmonitor, hfirst⟩
  exact hboth.2

structure OwnAnswer (data : Nat → U8) (len : U8) (m : Module) : Prop where
  ok : FrameOk data len
  answers : Answers data m

instance (data : Nat → U8) (len : U8) (m : Module) : Decidable (OwnAnswer data len m) :=
  decidable_of_iff (FrameOk data len ∧ Answers data m) ⟨fun h => ⟨h.1, h.2⟩, fun h => ⟨h.ok, h.answers⟩⟩

theorem uart1Analysis_ownAnswer (h : OwnAnswer data len m) :
    (uart1Analysis alloc data len m).module =
      { m with
        info.registerState := yes
        info.addr := data 7
        lastConnectTime := m.timeRun } := by
  obtain ⟨hok, hcode, hanswer⟩ := h
  rw [uart1Analysis_register hok hcode, register, if_pos hanswer]
  rfl

/-- After the answer, the main loop leaves the module registered, and finds it
connected, for as long as the timeout, exactly when the answer did not come in
the first second. -/
theorem registration_holds (alloc : Alloc) (h : OwnAnswer data len m) :
    (∀ events, Within step (WithinTimeout m.timeRun) events (uart1Analysis alloc data len m).module →
      (run events (uart1Analysis alloc data len m).module).info.registerState = yes ∧
        (.monitorConnectedState ∈ events →
          (run events (uart1Analysis alloc data len m).module).info.connected = yes)) ↔
      m.timeRun ≠ 0 := by
  rw [uart1Analysis_ownAnswer h]
  constructor
  · intro hall ht
    -- the first thing the watch does is to forget the registration
    have hrecent : m.timeRun ≤ m.timeRun + timeout := Nat.le_add_right ..
    obtain ⟨hregistered, -⟩ := hall [.monitorConnectedState] ⟨⟨trivial, by
      simp only [step, monitorConnectedState]
      split <;> exact hrecent⟩, trivial⟩
    simp [run, step, monitorConnectedState, Module.Lost, ht, no, yes] at hregistered
  · intro ht events hg
    have hfresh : Fresh m.timeRun { m with
        info.registerState := yes
        info.addr := data 7
        lastConnectTime := m.timeRun } := ⟨rfl, rfl, Nat.le_add_right ..⟩
    exact ⟨(hfresh.run ht hg).registered, hfresh.connected ht hg⟩

def ownAnswer : Nat → U8 :=
  Buffer.store (sealFrame [0xFA, 0x80, 0x7B, 0xD5, 0xC6, 0x6F, 0x00, 0x01]) fun _ => 0

/-- A new module after `t` seconds, and after it was answered then. -/
def bootedFor (t : Nat) : Module := { blank with timeRun := t }

def answeredAt (t : Nat) : Module :=
  (uart1Analysis ⟨true, true⟩ ownAnswer 10 (bootedFor t)).module

def oneSecond : List Event :=
  [.timeRunning, .controlProgram ⟨⟨true, 0, true, true⟩, ⟨true, 0, true, true⟩⟩,
    .monitorConnectedState]

theorem registration_holds_later :
    (run oneSecond (answeredAt 5)).info.registerState = yes ∧
      (.monitorConnectedState ∈ oneSecond →
        (run oneSecond (answeredAt 5)).info.connected = yes) := by
  have hown : OwnAnswer ownAnswer 10 (bootedFor 5) := by decide +kernel
  have hall := (registration_holds ⟨true, true⟩ hown).mpr (by decide +kernel) oneSecond
  rw [← answeredAt] at hall
  exact hall
    ⟨⟨trivial, by decide +kernel⟩, ⟨trivial, by decide +kernel⟩, ⟨trivial, by decide +kernel⟩, trivial⟩

/-- Answered in the first second, the module is not registered in the next. -/
theorem registration_holds_fails :
    ¬∀ t, OwnAnswer ownAnswer 10 (bootedFor t) →
      ∀ events, Within step (WithinTimeout t) events (answeredAt t) →
        (run events (answeredAt t)).info.registerState = yes := by
  intro h
  have hregistered := h 0 (by decide +kernel) oneSecond
    ⟨⟨trivial, by decide +kernel⟩, ⟨trivial, by decide +kernel⟩, ⟨trivial, by decide +kernel⟩, trivial⟩
  exact absurd hregistered (by decide +kernel)

end Hvac
