import Hvac.Requests
import Hvac.Transactions

/-!
# The time to an answer

The first round of `UartEntry` after a request carries it out, the second sends the
answer, in any order of the threads' turns and of the ten-second part between them.
-/

namespace Hvac

open Machine (Within)

-- ---------------------------------------------------------------------------
-- The polls to an answer
-- ---------------------------------------------------------------------------

def Event.isPoll : Event → Bool
  | .poll _ => true
  | _ => false

/-- How many polls the answer that is waited for is away. -/
def Exchange.pollsLeft (s : Exchange) : Nat :=
  if s.waiting then if s.module.Pending then 2 else 1 else 0

theorem Exchange.pollsLeft_le (s : Exchange) : s.pollsLeft ≤ 2 := by
  unfold pollsLeft
  split
  · split <;> decide
  · decide

section
variable {addr : U8} {s : Exchange} (hcode : addr ≠ registerCode) (hzero : addr ≠ 0)

include hcode hzero in
theorem Underway.pollsLeft_poll (h : Underway addr s file held) :
    (exchangeStep addr (.other (.poll ⟨true, true⟩)) s).pollsLeft ≤ s.pollsLeft - 1 := by
  obtain ⟨henrolled, hserving⟩ := h
  cases hserving with
  | idle hpending hlist =>
    simp [exchangeStep, Exchange.pollsLeft]
  | @asked r m m₀ hwell haddr hrx hlist =>
    have hpending : m.Pending := by
      rw [Module.Pending, hrx]
      exact (toModule_request hwell haddr).frameOk.2
    obtain ⟨-, hdone, -⟩ := poll_request hwell hcode hzero henrolled haddr hrx hlist
    have hnone : Hvac.sends (.poll ⟨true, true⟩) m = none := if_pos hpending
    have hafter : ¬(Hvac.step (.poll ⟨true, true⟩) m).Pending := hdone
    simp [exchangeStep, Exchange.pollsLeft, hnone, hpending, hafter]
  | @answered m msg hpending hlist hhead =>
    have hlen : msg.len ≠ 0 := by
      intro hlen
      rw [List.length_eq_zero_iff.mp hlen] at hhead
      cases hhead
    have hsent : Hvac.sends (.poll ⟨true, true⟩) m = some msg.body := by
      rw [Hvac.sends, if_neg hpending, hlist, sendMsgHandle_cons hlen]
    simp [exchangeStep, Exchange.pollsLeft, hsent, hpending]

include hcode hzero in
/-- What a step of the module makes of a request that is under way. -/
theorem Underway.calm (h : Underway addr ⟨m, waiting⟩ file held) (hcalm : Calm e m)
    (hinput : ∀ chunk, e ≠ .input chunk) : ∃ waiting' held',
      Underway addr ⟨Hvac.step e m, waiting'⟩ file held' ∧
        held = (Hvac.sends e m).toList ++ held' ∧
        Exchange.pollsLeft ⟨Hvac.step e m, waiting'⟩ ≤
          Exchange.pollsLeft ⟨m, waiting⟩ - e.isPoll.toNat := by
  have hwaits : Waits (.other e) ⟨m, waiting⟩ := by
    cases e with
    | input chunk => exact absurd rfl (hinput chunk)
    | _ => exact hcalm
  obtain ⟨held', hnext, heq⟩ := h.step (e := .other e) hcode hzero hwaits
  refine ⟨_, held', hnext, (List.append_nil held).symm.trans heq, ?_⟩
  cases hpoll : e.isPoll with
  | true =>
    cases e with
    | poll alloc =>
      obtain rfl : alloc = ⟨true, true⟩ := hcalm
      exact h.pollsLeft_poll hcode hzero
    | _ => cases hpoll
  | false =>
    have hother : ∀ alloc, e ≠ .poll alloc := by
      rintro alloc rfl
      cases hpoll
    have hpending : (Hvac.step e m).Pending ↔ m.Pending := by
      rw [Module.Pending, Module.Pending, (step_steady hcalm h.1.state hinput hother).rx]
    have hnone := sends_unpolled hother m
    simp [Exchange.pollsLeft, hpending, hnone]

end

-- ---------------------------------------------------------------------------
-- The rounds of the thread
-- ---------------------------------------------------------------------------

/-- A round of the loop of `UartEntry`, its ten-second part apart. -/
def FirmwareEvent.isRound (e : FirmwareEvent) (s : Firmware) : Bool :=
  e.isUart && decide (s.uartAt = .round)

def uartRounds : List FirmwareEvent → Firmware → Nat :=
  Machine.counted firmwareStep FirmwareEvent.isRound

/-- The master and the others on the bus are silent, and every event a thread causes is one
a master can rely on. -/
def Attends (e : FirmwareEvent) (s : Firmware) : Prop :=
  ∀ e' ∈ firmwareView e s, Calm e' s.module ∧ ∀ chunk, e' ≠ .input chunk

theorem calm_withLocation (e : Event) (flag : Bool) (m : Module) :
    Calm e (m.withLocation flag) ↔ Calm e m := by
  cases e <;> rfl

theorem firmwareView_polls (e : FirmwareEvent) (s : Firmware) :
    (firmwareView e s).countP Event.isPoll = (e.isRound s).toNat := by
  cases e with
  | main adc => cases hat : s.mainAt <;> simp only [firmwareView, hat] <;> rfl
  | uart alloc ops =>
    cases hat : s.uartAt <;>
      simp [firmwareView, FirmwareEvent.isRound, FirmwareEvent.isUart, hat, Event.isPoll]
  | oled adc =>
    unfold firmwareView moduleEvents
    dsimp only
    repeat' split
    all_goals rfl
  | _ => rfl

/-- A request is under way in the module that the firmware's is but for the location flag. -/
def InFirmware (addr : U8) (s : Firmware) (x : Exchange) (file : U16 → U16)
    (held : List (List U8)) : Prop :=
  Tracked s.display x.module ∧ Underway addr x file held

section
variable {addr : U8} (hcode : addr ≠ registerCode) (hzero : addr ≠ 0)

theorem Attends.not_reboot (h : Attends e s) : e ≠ .reboot := by
  rintro rfl
  exact (h .reboot (List.mem_singleton_self _)).1

include hcode hzero in
theorem InFirmware.step (h : InFirmware addr s x file held) (hg : Attends e s) : ∃ x' held',
    InFirmware addr (firmwareStep e s) x' file held' ∧
      held = (firmwareSends e s).toList ++ held' ∧
      x'.pollsLeft ≤ x.pollsLeft - (e.isRound s).toNat := by
  obtain ⟨htracked, hunderway⟩ := h
  have hnext := firmwareStep_tracked e s x.module htracked
  have hsends := firmwareSends_eq e s x.module htracked
  have hpolls := firmwareView_polls e s
  obtain ⟨flag, hm⟩ : ∃ flag, s.module = x.module.withLocation flag := htracked.module
  obtain hview | ⟨e', hview, -⟩ := firmwareView_single hg.not_reboot s
  · rw [hview] at hnext hsends hpolls
    refine ⟨x, held, ⟨hnext, hunderway⟩, by rw [hsends]; rfl, ?_⟩
    rw [← hpolls]
    exact Nat.le_refl _
  · rw [hview] at hnext hsends hpolls
    obtain ⟨hcalm, hinput⟩ := hg e' (by rw [hview]; exact List.mem_singleton_self e')
    rw [hm, calm_withLocation] at hcalm
    obtain ⟨waiting', held', hunderway', heq, hleft⟩ := hunderway.calm hcode hzero hcalm hinput
    refine ⟨⟨Hvac.step e' x.module, waiting'⟩, held', ⟨hnext, hunderway'⟩, ?_, ?_⟩
    · rw [hsends, heq]
      simp
    · have hone : [e'].countP Event.isPoll = e'.isPoll.toNat := by
        cases hpoll : e'.isPoll <;> simp [hpoll]
      rw [← hpolls, hone]
      exact hleft

include hcode hzero in
theorem InFirmware.run (h : InFirmware addr s x file held)
    (hg : Within firmwareStep Attends events s) : ∃ x' held',
      InFirmware addr (firmwareRun events s) x' file held' ∧
        held = Machine.trace firmwareStep firmwareSends events s ++ held' ∧
        x'.pollsLeft ≤ x.pollsLeft - uartRounds events s := by
  induction events generalizing s x held with
  | nil => exact ⟨x, held, h, rfl, Nat.le_refl _⟩
  | cons e rest ih =>
    obtain ⟨x', held', hnext, heq, hleft⟩ := h.step hcode hzero hg.1
    obtain ⟨x'', held'', hlast, heq', hleft'⟩ := ih hnext hg.2
    refine ⟨x'', held'', hlast, ?_, ?_⟩
    · rw [heq, heq', Machine.trace_cons, List.append_assoc]
    · have hrounds : uartRounds (e :: rest) s =
        (e.isRound s).toNat + uartRounds rest (firmwareStep e s) := rfl
      omega

end

/-- From any reachable state of a registered module with nothing to send: a request, reading
at most seven registers, on a bus that is silent then is answered once, when the loop of
`UartEntry` has gone round twice, in any order of the threads' turns in which no edit is
made on the menu, the memory does not run out, `MonitorConnectedState` does not find the
master lost and the power stays on. The answer is that of the store, and the store is as
the request leaves it. -/
theorem request_answered (s : Firmware) (events : List FirmwareEvent)
    (hreach : FirmwareReachable s) (hcode : addr ≠ registerCode) (hzero : addr ≠ 0)
    (henrolled : Enrolled addr s.module) (hlist : s.module.sendMsgList = []) (hwell : r.WellFormed)
    (h : Within firmwareStep Attends events (firmwareStep (.input (r.frame addr)) s))
    (hrounds : 2 ≤ uartRounds events (firmwareStep (.input (r.frame addr)) s)) :
    let requested := .input (r.frame addr) :: events
    Machine.trace firmwareStep firmwareSends requested s = [answer addr r s.module.settings] ∧
      (firmwareRun requested s).module.settings = serve r s.module.settings := by
  intro requested
  obtain ⟨m, -, htracked⟩ := hreach.tracked
  obtain ⟨flag, hm⟩ : ∃ flag, s.module = m.withLocation flag := htracked.module
  rw [hm] at henrolled hlist ⊢
  have hasked : InFirmware addr (firmwareStep (.input (r.frame addr)) s)
      ⟨step (.input (r.frame addr)) m, true⟩ (serve r m.settings) [answer addr r m.settings] :=
    ⟨firmwareStep_tracked (.input (r.frame addr)) s m htracked, ⟨henrolled.1, henrolled.2⟩,
      .asked (m := uart1Input (r.frame addr) m) hwell henrolled.2 rfl hlist⟩
  obtain ⟨⟨m', waiting⟩, held', ⟨htracked', hunderway⟩, heq, hleft⟩ := hasked.run hcode hzero h
  have hmost := Exchange.pollsLeft_le ⟨step (.input (r.frame addr)) m, true⟩
  have hdone : waiting = false := by
    have hzero : Exchange.pollsLeft ⟨m', waiting⟩ = 0 := by omega
    cases waiting with
    | false => rfl
    | true =>
      simp only [Exchange.pollsLeft, if_true] at hzero
      split at hzero <;> cases hzero
  subst hdone
  obtain ⟨flag', hm'⟩ : ∃ flag, (firmwareRun requested s).module = m'.withLocation flag :=
    htracked'.module
  rw [hunderway.free, List.append_nil] at heq
  refine ⟨heq.symm, ?_⟩
  rw [hm']
  exact hunderway.settings

theorem attends_uart (ops : FlashOps) (s : Firmware) : Attends (.uart ⟨true, true⟩ ops) s := by
  intro e' he'
  cases hat : s.uartAt with
  | round =>
    simp only [firmwareView, hat, List.mem_singleton] at he'
    rw [he']
    exact ⟨rfl, by simp⟩
  | every10s =>
    simp only [firmwareView, hat, List.mem_singleton] at he'
    rw [he']
    exact ⟨trivial, by simp⟩

/-- It has got the answer to its registration. -/
def firstRegistered : Firmware :=
  firmwareRun (.input (sealFrame [0xFA, 0x80, 0x7B, 0xD5, 0xC6, 0x6F, 0x00, 0x01]) :: aloneTurns 1)
    firstPower

theorem request_answered_setPoint :
    Machine.trace firmwareStep firmwareSends
        (.input (Request.frame 0x01 (.readMuti 0x0407 2)) :: aloneTurns 2) firstRegistered =
      [answer 0x01 (.readMuti 0x0407 2) firstRegistered.module.settings] := by
  have hreach : FirmwareReachable firstRegistered := ⟨firstPower, _, ⟨_, _, _, rfl⟩, rfl⟩
  have henrolled : Enrolled 0x01 firstRegistered.module := ⟨by decide +kernel, by decide +kernel⟩
  exact (request_answered firstRegistered (aloneTurns 2) hreach (by decide) (by decide) henrolled
    (by decide +kernel) (by decide) ⟨attends_uart _ _, attends_uart _ _, trivial⟩
    (by decide +kernel)).1

end Hvac
