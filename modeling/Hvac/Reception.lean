import Hvac.Invariants

/-!
# Reception

The receive callback and the loop share one slot. What the callback accepts is
handed to the analysis once, in order and unchanged, as long as no chunk of any
kind arrives while a frame waits and no frame is longer than the eight bits of
the analysis's length.
-/

namespace Hvac

open Buffer (window)
open Machine (Within)

variable {m m' : Module}

def accepted : Event → Module → Option (List U8)
  | .input chunk, m => if Accepts m chunk then some chunk else none
  | _, _ => none

/-- The bytes a call of `Uart1Analysis` is given: as many as its length says. -/
def AnalysisCall.bytes (call : AnalysisCall) : List U8 := window call.data call.len.toNat

/-- What the call a poll makes, if it makes one, is given. -/
def handed : Event → Module → Option (List U8)
  | .poll _, m => (analysisCall m).map AnalysisCall.bytes
  | _, _ => none

/-- The frame that a poll would hand over. -/
def Module.waiting (m : Module) : List (List U8) :=
  ((analysisCall m).map AnalysisCall.bytes).toList

/-- Nothing arrives and no boot happens while a frame waits, and an accepted frame's
length fits a byte. -/
def SlotKept : Event → Module → Prop
  | .input chunk, m => ¬m.Pending ∧ (Accepts m chunk → chunk.length < 256)
  | .reboot, m => ¬m.Pending
  | _, _ => True

instance : (e : Event) → (m : Module) → Decidable (SlotKept e m)
  | .input chunk, m => by unfold SlotKept; infer_instance
  | .reboot, m => by unfold SlotKept; infer_instance
  | .poll _, _ | .every10s _ _, _ | .timeRunning, _ | .controlProgram _, _
  | .monitorConnectedState, _ | .homePage _, _ | .settingPage _, _ | .rtcTick _, _ =>
    inferInstanceAs (Decidable True)

theorem Module.waiting_pending (h : m.Pending) :
    m.waiting = [window m.rx.data m.handedLen.toNat] := by
  rw [Module.waiting, analysisCall, if_pos h]
  rfl

theorem Module.waiting_idle (h : ¬m.Pending) : m.waiting = [] := by
  rw [Module.waiting, analysisCall, if_neg h]
  rfl

theorem waiting_congr (h : m'.rx = m.rx) : m'.waiting = m.waiting := by
  have hpending : m'.Pending ↔ m.Pending := by rw [Module.Pending, Module.Pending, h]
  by_cases hp : m.Pending
  · rw [Module.waiting_pending hp, Module.waiting_pending (hpending.mpr hp), Module.handedLen,
      Module.handedLen, h]
  · rw [Module.waiting_idle hp, Module.waiting_idle (mt hpending.mp hp)]

theorem not_pending_powerUp : ¬(powerUp flash rtc uniqueId).Pending := fun h => nomatch h

theorem waiting_uart1Input (h : Accepts m chunk) (hlen : chunk.length < 256) :
    (uart1Input chunk m).waiting = [chunk] := by
  have hp : (uart1Input chunk m).Pending := if_pos h
  rw [Module.waiting_pending hp]
  have hhanded : (uart1Input chunk m).handedLen.toNat = chunk.length := by
    simp only [Module.handedLen, uart1Input, BitVec.toNat_ofNat]
    exact Nat.mod_eq_of_lt hlen
  rw [hhanded]
  exact congrArg (fun frame => [frame]) (Buffer.window_store chunk m.rx.data)

theorem waiting_uart1Input_refused (h : ¬Accepts m chunk) (hp : ¬m.Pending) :
    (uart1Input chunk m).waiting = [] := by
  apply Module.waiting_idle
  intro hp'
  simp only [Module.Pending, uart1Input, if_neg h] at hp'
  exact hp hp'

theorem waiting_uartPoll (alloc : Alloc) (m : Module) : (uartPoll alloc m).waiting = [] := by
  apply Module.waiting_idle
  by_cases hp : m.Pending
  · rw [uartPoll_pending hp]
    have hrx := (uart1Analysis_undisturbed alloc m.rx.data m.handedLen (uart1CleanRecvFlag m)).rx
    rw [Module.Pending, hrx]
    intro h
    cases h
  · rw [uartPoll_idle hp]
    exact hp

theorem step_rx (e : Event) (m : Module) (hinput : ∀ chunk, e ≠ .input chunk)
    (hpoll : ∀ alloc, e ≠ .poll alloc) (hreboot : e ≠ .reboot) : (step e m).rx = m.rx :=
  (step_unpolled hpoll hreboot).rx hinput

/-- In each step, what waited and what is accepted is what is handed over and
what waits then. -/
theorem step_slot (h : SlotKept e m) :
    m.waiting ++ (accepted e m).toList = (handed e m).toList ++ (step e m).waiting := by
  cases e with
  | input chunk =>
    obtain ⟨hp, hlen⟩ := h
    rw [Module.waiting_idle hp]
    by_cases ha : Accepts m chunk
    · simp only [accepted, if_pos ha, handed, step, waiting_uart1Input ha (hlen ha)]
      rfl
    · simp only [accepted, if_neg ha, handed, step, waiting_uart1Input_refused ha hp]
      rfl
  | poll alloc =>
    simp only [step, waiting_uartPoll, handed, accepted]
    rfl
  | reboot =>
    rw [Module.waiting_idle h, step, reboot, Module.waiting_idle not_pending_powerUp]
    rfl
  | _ =>
    rw [waiting_congr (step_rx _ m ?_ ?_ ?_)]
    · simp [accepted, handed]
    · intro _ h
      cases h
    · intro _ h
      cases h
    · intro h
      cases h

/-- Along any run from power-up that keeps the slot, one more turn of the loop has
handed over exactly the accepted frames, each once and as it was accepted. -/
theorem accepted_handed_once (alloc : Alloc)
    (h : Within step SlotKept events (powerUp flash rtc uniqueId)) :
    Machine.trace step accepted events (powerUp flash rtc uniqueId) =
      Machine.trace step handed (events ++ [.poll alloc]) (powerUp flash rtc uniqueId) := by
  have hslot := h.trace_eq fun _ _ => step_slot
  rw [Module.waiting_idle not_pending_powerUp, List.nil_append] at hslot
  rw [hslot, Machine.trace_append, Machine.trace_cons, Machine.trace_nil, List.append_nil]
  -- what waits at the end is what the last turn hands over
  rfl

/-- The answer to the registration, then a write of the day set point, each
polled, with a chunk for somebody else between. -/
def twoFrames : List Event :=
  registered ++ [.input (sealFrame [0x05, 0x06, 0x04, 0x07, 0x00, 0xC8]), .poll ⟨true, true⟩,
    .input (sealFrame [0x01, 0x06, 0x04, 0x07, 0x00, 0xFA]), .poll ⟨true, true⟩]

theorem accepted_handed_once_twoFrames :
    Machine.trace step handed (twoFrames ++ [.poll ⟨true, true⟩]) (powerUp [] {} fun _ => 0) =
      [sealFrame [0xFA, 0x80, 0x7B, 0xD5, 0xC6, 0x6F, 0x00, 0x01],
        sealFrame [0x01, 0x06, 0x04, 0x07, 0x00, 0xFA]] := by
  rw [← accepted_handed_once ⟨true, true⟩ (by decide +kernel)]
  decide +kernel

/-- Two broadcasts arrive between two turns of the loop. -/
def backToBack : List Event :=
  [.input (sealFrame [0x00, 0x06, 0xF0, 0x02, 0x00, 0xFA]),
    .input (sealFrame [0x00, 0x06, 0xF0, 0x01, 0x00, 0x2D])]

/-- Both are accepted, the first is never analysed. -/
theorem accepted_handed_once_fails :
    Machine.trace step accepted backToBack (powerUp [] {} fun _ => 0) =
        [sealFrame [0x00, 0x06, 0xF0, 0x02, 0x00, 0xFA],
          sealFrame [0x00, 0x06, 0xF0, 0x01, 0x00, 0x2D]] ∧
      Machine.trace step handed (backToBack ++ [.poll ⟨true, true⟩]) (powerUp [] {} fun _ => 0) =
        [sealFrame [0x00, 0x06, 0xF0, 0x01, 0x00, 0x2D]] := by
  decide +kernel

end Hvac
