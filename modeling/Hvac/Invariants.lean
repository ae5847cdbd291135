import Hvac.Answers
import Hvac.Decision
import Hvac.SendList

/-!
# What a step keeps

A received frame is one of three things: a registration frame, a command that
is carried out, or nothing. What the analysis keeps follows by these cases, and
what a step keeps follows from it, field by field.
-/

namespace Hvac

-- ---------------------------------------------------------------------------
-- A received frame
-- ---------------------------------------------------------------------------

theorem uart1Analysis_cases (alloc : Alloc) (data : Nat → U8) (len : U8) (m : Module) :
    (FrameOk data len ∧ data 0 = registerCode ∧
      uart1Analysis alloc data len m =
        { module := setLastConnectTime (register data m), reply := none }) ∨
    (Dispatches data len m ∧
      uart1Analysis alloc data len m =
        { module := setLastConnectTime (modbusCommandAnalysis alloc data m).module
          reply := (modbusCommandAnalysis alloc data m).reply }) ∨
    (¬(FrameOk data len ∧ data 0 = registerCode) ∧ ¬Dispatches data len m ∧
      uart1Analysis alloc data len m = { module := m, reply := none }) := by
  by_cases hreg : FrameOk data len ∧ data 0 = registerCode
  · exact .inl ⟨hreg.1, hreg.2, uart1Analysis_register hreg.1 hreg.2⟩
  by_cases hcmd : Dispatches data len m
  · exact .inr (.inl ⟨hcmd, uart1Analysis_dispatch hcmd⟩)
  · exact .inr (.inr ⟨hreg, hcmd, uart1Analysis_ignored hreg hcmd⟩)

/-- What no received frame reaches. -/
structure Undisturbed (m m' : Module) : Prop where
  connected : m'.info.connected = m.info.connected
  timeRun : m'.timeRun = m.timeRun
  control : m'.control = m.control
  relays : m'.relays = m.relays
  rx : m'.rx = m.rx
  uniqueId : m'.uniqueId = m.uniqueId

theorem register_cases (data : Nat → U8) (m : Module) :
    (data 1 = registerAnser ∧ readId data = m.id ∧
      register data m = { m with info.registerState := yes, info.addr := data 7 }) ∨
    (¬(data 1 = registerAnser ∧ readId data = m.id) ∧ register data m = m) := by
  by_cases h : data 1 = registerAnser ∧ readId data = m.id
  · exact .inl ⟨h.1, h.2, if_pos h⟩
  · exact .inr ⟨h, if_neg h⟩

theorem modbusCommandAnalysis_kept (alloc : Alloc) (data : Nat → U8) (m : Module) :
    Kept m (modbusCommandAnalysis alloc data m).module := by
  have h := afterCommand_kept data alloc m
  rw [modbusCommandAnalysis_module]
  exact ⟨h.1, h.2, h.3, h.4, h.5, h.6, h.7, h.8, h.9⟩

theorem uart1Analysis_undisturbed (alloc : Alloc) (data : Nat → U8) (len : U8) (m : Module) :
    Undisturbed m (uart1Analysis alloc data len m).module := by
  rcases uart1Analysis_cases alloc data len m with ⟨-, -, h⟩ | ⟨-, h⟩ | ⟨-, -, h⟩ <;> rw [h]
  · rcases register_cases data m with ⟨-, -, hr⟩ | ⟨-, hr⟩
    · rw [hr]
      exact ⟨rfl, rfl, rfl, rfl, rfl, rfl⟩
    · rw [hr]
      exact ⟨rfl, rfl, rfl, rfl, rfl, rfl⟩
  · have hk := modbusCommandAnalysis_kept alloc data m
    exact ⟨hk.connected, hk.timeRun, hk.control, hk.relays, hk.rx, hk.uniqueId⟩
  · exact ⟨rfl, rfl, rfl, rfl, rfl, rfl⟩

-- ---------------------------------------------------------------------------
-- The other steps
-- ---------------------------------------------------------------------------

/-- What the steps other than reception, clock, watch and boot keep. -/
structure Bystander (m m' : Module) : Prop where
  registerState : m'.info.registerState = m.info.registerState
  addr : m'.info.addr = m.info.addr
  connected : m'.info.connected = m.info.connected
  timeRun : m'.timeRun = m.timeRun
  lastConnectTime : m'.lastConnectTime = m.lastConnectTime
  rx : m'.rx = m.rx
  uniqueId : m'.uniqueId = m.uniqueId

theorem Bystander.refl (m : Module) : Bystander m m := ⟨rfl, rfl, rfl, rfl, rfl, rfl, rfl⟩

theorem Bystander.trans (h : Bystander m₁ m₂) (h' : Bystander m₂ m₃) : Bystander m₁ m₃ :=
  ⟨h'.1.trans h.1, h'.2.trans h.2, h'.3.trans h.3, h'.4.trans h.4, h'.5.trans h.5,
    h'.6.trans h.6, h'.7.trans h.7⟩

theorem MenuOnly.bystander (h : MenuOnly m m') : Bystander m m' := by
  obtain ⟨⟨info, rtc, menu, rfl⟩, hr, ha, hc, -, -⟩ := h
  exact ⟨hr, ha, hc, rfl, rfl, rfl, rfl⟩

theorem saveGlobalInfo_bystander (ops : FlashOps) (m : Module) :
    Bystander m (saveGlobalInfo ops m) := by
  unfold saveGlobalInfo
  dsimp only
  split
  · exact ⟨rfl, rfl, rfl, rfl, rfl, rfl, rfl⟩
  · exact .refl m

theorem uartEvery10s_bystander (calloc : Bool) (ops : FlashOps) (m : Module) :
    Bystander m (uartEvery10s calloc ops m) := by
  unfold uartEvery10s
  dsimp only
  split
  · have hqueue (list : List Msg) : Bystander m { m with sendMsgList := list } :=
      ⟨rfl, rfl, rfl, rfl, rfl, rfl, rfl⟩
    exact (hqueue _).trans (saveGlobalInfo_bystander ops _)
  · exact saveGlobalInfo_bystander ops m

/-- Nothing but the decision, the thermostat's statics, the outputs and the
samples differs. -/
def ThermostatOnly (m m' : Module) : Prop :=
  ∃ coolOrHeat control relays ntcList,
    m' = { m with info.coolOrHeat := coolOrHeat, control, relays, ntcList }

theorem ThermostatOnly.refl (m : Module) : ThermostatOnly m m := ⟨_, _, _, _, rfl⟩

theorem ThermostatOnly.trans (h : ThermostatOnly m₁ m₂) (h' : ThermostatOnly m₂ m₃) :
    ThermostatOnly m₁ m₃ := by
  obtain ⟨_, _, _, _, rfl⟩ := h
  obtain ⟨_, _, _, _, rfl⟩ := h'
  exact ⟨_, _, _, _, rfl⟩

theorem ThermostatOnly.bystander (h : ThermostatOnly m m') : Bystander m m' := by
  obtain ⟨_, _, _, _, rfl⟩ := h
  exact ⟨rfl, rfl, rfl, rfl, rfl, rfl, rfl⟩

theorem controlProgram_thermostatOnly (adc : Adc) (m : Module) :
    ThermostatOnly m (controlProgram adc m) := by
  refine controlProgram_preserves (P := ThermostatOnly m) adc ?_ ?_ ?_ ?_ ?_ ?_ (.refl m)
  · exact fun _ h => h.trans ⟨_, _, _, _, rfl⟩
  · exact fun _ h => h.trans ⟨_, _, _, _, rfl⟩
  · exact fun _ _ h => h.trans ⟨_, _, _, _, rfl⟩
  · exact fun _ _ h => h.trans ⟨_, _, _, _, rfl⟩
  · exact fun _ h => h.trans ⟨_, _, _, _, rfl⟩
  · exact fun _ _ _ h => h.trans ⟨_, _, _, _, rfl⟩

-- ---------------------------------------------------------------------------
-- Every step
-- ---------------------------------------------------------------------------

theorem uartPoll_pending (h : m.Pending) :
    uartPoll alloc m =
      (uart1Analysis alloc m.rx.data m.handedLen (uart1CleanRecvFlag m)).module := by
  rw [uartPoll, analysisCall, if_pos h]

theorem uartPoll_idle (h : ¬m.Pending) :
    uartPoll alloc m = { m with sendMsgList := (sendMsgHandle m.sendMsgList).1 } := by
  rw [uartPoll, analysisCall, if_neg h]

theorem uartPoll_undisturbed (alloc : Alloc) (m : Module) :
    (uartPoll alloc m).info.connected = m.info.connected ∧
      (uartPoll alloc m).timeRun = m.timeRun ∧ (uartPoll alloc m).control = m.control ∧
      (uartPoll alloc m).uniqueId = m.uniqueId := by
  by_cases h : m.Pending
  · rw [uartPoll_pending h]
    have hu := uart1Analysis_undisturbed alloc m.rx.data m.handedLen (uart1CleanRecvFlag m)
    exact ⟨hu.connected, hu.timeRun, hu.control, hu.uniqueId⟩
  · rw [uartPoll_idle h]
    exact ⟨rfl, rfl, rfl, rfl⟩

/-- What each thing a poll may do preserves, a poll preserves. -/
theorem uartPoll_preserves {P : Module → Prop} (alloc : Alloc)
    (hslot : ∀ m, P m → P (uart1CleanRecvFlag m))
    (hregister : ∀ addr m, P m → P { m with info.registerState := yes, info.addr := addr })
    (hwrite : ∀ reg v m, P m → P (writeRegister reg v m))
    (hlocate : ∀ m, P m → P { m with locationFlag := true })
    (hlist : ∀ list m, P m → P { m with sendMsgList := list })
    (hheard : ∀ m, P m → P (setLastConnectTime m)) (h : P m) : P (uartPoll alloc m) := by
  by_cases hp : m.Pending
  · have hclean := hslot m h
    rw [uartPoll_pending hp]
    obtain ⟨-, -, he⟩ | ⟨-, he⟩ | ⟨-, -, he⟩ :=
      uart1Analysis_cases alloc m.rx.data m.handedLen (uart1CleanRecvFlag m) <;> rw [he]
    · refine hheard _ ?_
      obtain ⟨-, -, hr⟩ | ⟨-, hr⟩ := register_cases m.rx.data (uart1CleanRecvFlag m) <;> rw [hr]
      · exact hregister _ _ hclean
      · exact hclean
    · have hloop (n : Nat) : P (writeMutiLoop (startReg m.rx.data) m.rx.data
          (uart1CleanRecvFlag m) n) := by
        induction n with
        | zero => exact hclean
        | succ n ih => exact hwrite _ _ _ ih
      rw [modbusCommandAnalysis_module]
      refine hheard _ (hlist _ _ ?_)
      unfold afterCommand afterReads
      repeat' split
      · exact hlocate _ hclean
      · exact hclean
      · exact hclean
      · exact hwrite _ _ _ hclean
      · exact hloop _
      · exact hclean
    · exact hclean
  · rw [uartPoll_idle hp]
    exact hlist _ m h

/-- What a step keeps that is neither a poll nor a boot. Some fields have one event
that changes them. -/
structure Unpolled (e : Event) (m m' : Module) : Prop where
  sensor : m'.sensor = m.sensor
  timeCorrect : m'.timeCorrect = m.timeCorrect
  action : m'.action = m.action
  ctrl : m'.info.ctrl = m.info.ctrl
  uniqueId : m'.uniqueId = m.uniqueId
  rx : (∀ chunk, e ≠ .input chunk) → m'.rx = m.rx
  control : (∀ adc, e ≠ .controlProgram adc) → m'.control = m.control
  relays : (∀ adc, e ≠ .controlProgram adc) → m'.relays = m.relays
  sendMsgList : (∀ calloc ops, e ≠ .every10s calloc ops) → m'.sendMsgList = m.sendMsgList
  flash : (∀ calloc ops, e ≠ .every10s calloc ops) → m'.flash = m.flash
  lastCrc : (∀ calloc ops, e ≠ .every10s calloc ops) → m'.lastCrc = m.lastCrc

theorem step_unpolled (hpoll : ∀ alloc, e ≠ .poll alloc) (hreboot : e ≠ .reboot) :
    Unpolled e m (step e m) := by
  cases e with
  | poll alloc => exact absurd rfl (hpoll alloc)
  | reboot => exact absurd rfl hreboot
  | input chunk =>
    exact ⟨rfl, rfl, rfl, rfl, rfl, fun h => absurd rfl (h chunk), fun _ => rfl, fun _ => rfl,
      fun _ => rfl, fun _ => rfl, fun _ => rfl⟩
  | every10s calloc ops =>
    simp only [step, uartEvery10s, saveGlobalInfo]
    split <;> split <;>
      exact ⟨rfl, rfl, rfl, rfl, rfl, fun _ => rfl, fun _ => rfl, fun _ => rfl,
        fun h => absurd rfl (h calloc ops), fun h => absurd rfl (h calloc ops),
        fun h => absurd rfl (h calloc ops)⟩
  | controlProgram adc =>
    obtain ⟨_, _, _, _, hm⟩ := controlProgram_thermostatOnly adc m
    rw [step, hm]
    exact ⟨rfl, rfl, rfl, rfl, rfl, fun _ => rfl, fun h => absurd rfl (h adc),
      fun h => absurd rfl (h adc), fun _ => rfl, fun _ => rfl, fun _ => rfl⟩
  | settingPage page =>
    have hmenu := settingPage_menuOnly page m
    obtain ⟨info, rtc, menu, hm⟩ := hmenu.shape
    have hctrl := hmenu.ctrl
    rw [hm] at hctrl
    rw [step, hm]
    exact ⟨rfl, rfl, rfl, hctrl, rfl, fun _ => rfl, fun _ => rfl, fun _ => rfl, fun _ => rfl,
      fun _ => rfl, fun _ => rfl⟩
  | monitorConnectedState =>
    rw [step, monitorConnectedState]
    split <;> exact ⟨rfl, rfl, rfl, rfl, rfl, fun _ => rfl, fun _ => rfl, fun _ => rfl,
      fun _ => rfl, fun _ => rfl, fun _ => rfl⟩
  | _ =>
    exact ⟨rfl, rfl, rfl, rfl, rfl, fun _ => rfl, fun _ => rfl, fun _ => rfl, fun _ => rfl,
      fun _ => rfl, fun _ => rfl⟩

/-- What only a poll, a pass of the settings page or a boot changes. -/
structure Untouched (m m' : Module) : Prop where
  menu : m'.menu = m.menu
  locationFlag : m'.locationFlag = m.locationFlag
  daySetPoint : m'.info.daySetPoint = m.info.daySetPoint
  nightSetPoint : m'.info.nightSetPoint = m.info.nightSetPoint

theorem step_untouched (hpoll : ∀ alloc, e ≠ .poll alloc) (hpage : ∀ page, e ≠ .settingPage page)
    (hboot : e ≠ .reboot) (m : Module) : Untouched m (step e m) := by
  cases e with
  | poll alloc => exact absurd rfl (hpoll alloc)
  | settingPage page => exact absurd rfl (hpage page)
  | reboot => exact absurd rfl hboot
  | every10s calloc ops =>
    simp only [step, uartEvery10s, saveGlobalInfo]
    split <;> split <;> exact ⟨rfl, rfl, rfl, rfl⟩
  | controlProgram adc =>
    obtain ⟨_, _, _, _, hm⟩ := controlProgram_thermostatOnly adc m
    rw [step, hm]
    exact ⟨rfl, rfl, rfl, rfl⟩
  | monitorConnectedState =>
    rw [step, monitorConnectedState]
    split <;> exact ⟨rfl, rfl, rfl, rfl⟩
  | _ => exact ⟨rfl, rfl, rfl, rfl⟩

/-- A module keeps its identity for life. -/
theorem step_uniqueId (e : Event) (m : Module) : (step e m).uniqueId = m.uniqueId := by
  cases e with
  | poll alloc => exact (uartPoll_undisturbed alloc m).2.2.2
  | reboot => rfl
  | _ => exact (step_unpolled (by simp) (by simp)).uniqueId

theorem step_id (e : Event) (m : Module) : (step e m).id = m.id := by
  unfold Module.id
  rw [step_uniqueId]

-- ---------------------------------------------------------------------------
-- The send list
-- ---------------------------------------------------------------------------

theorem mem_queue (h : msg ∈ queue calloc body list) :
    msg ∈ list ∨ (calloc = true ∧ msg.body = body) := by
  rcases queue_cases calloc body list with hq | ⟨hfits, hcalloc, hq⟩ <;> rw [hq] at h
  · exact .inl h
  · rcases List.mem_cons.mp h with rfl | h
    · exact .inr ⟨hcalloc, rfl⟩
    · exact .inl h

theorem mem_uart1Analysis (h : msg ∈ (uart1Analysis alloc data len m).module.sendMsgList) :
    msg ∈ m.sendMsgList ∨
      (Dispatches data len m ∧ alloc.calloc = true ∧ answerOf alloc data m = some msg.body) := by
  rcases uart1Analysis_cases alloc data len m with ⟨-, -, he⟩ | ⟨hd, he⟩ | ⟨-, -, he⟩ <;> rw [he] at h
  · rcases register_cases data m with ⟨-, -, hr⟩ | ⟨-, hr⟩ <;> rw [hr] at h
    · exact .inl h
    · exact .inl h
  · rw [modbusCommandAnalysis_module] at h
    cases ha : answerOf alloc data m with
    | none =>
      rw [ha] at h
      exact .inl h
    | some body =>
      rw [ha] at h
      rcases mem_queue h with h | ⟨hcalloc, h⟩
      · exact .inl h
      · exact .inr ⟨hd, hcalloc, by rw [h]⟩
  · exact .inl h

/-- The three places a message in the send list comes from. -/
theorem mem_step_sendMsgList (h : msg ∈ (step e m).sendMsgList) :
    msg ∈ m.sendMsgList ∨ msg.body = generateRegisterData m ∨
      ∃ alloc, e = .poll alloc ∧ m.Pending ∧ Dispatches m.rx.data m.handedLen m ∧
        alloc.calloc = true ∧
        answerOf alloc m.rx.data (uart1CleanRecvFlag m) = some msg.body := by
  cases e with
  | poll alloc =>
    by_cases hp : m.Pending
    · rw [step, uartPoll_pending hp] at h
      rcases mem_uart1Analysis h with h | ⟨hd, hcalloc, ha⟩
      · exact .inl h
      · exact .inr (.inr ⟨alloc, rfl, hp, hd, hcalloc, ha⟩)
    · rw [step, uartPoll_idle hp] at h
      rcases sendMsgHandle_cases m.sendMsgList with hs | ⟨first, rest, hl, hs⟩ <;> rw [hs] at h
      · exact .inl h
      · rw [hl]
        exact .inl (List.mem_cons_of_mem _ h)
  | every10s calloc ops =>
    rw [step, uartEvery10s, saveGlobalInfo_sendMsgList] at h
    split at h
    · rcases mem_queue h with h | ⟨-, h⟩
      · exact .inl h
      · exact .inr (.inl h)
    · exact .inl h
  | reboot => cases h
  | _ =>
    rw [(step_unpolled (by simp) (by simp)).sendMsgList (by simp)] at h
    exact .inl h

theorem sends_eq_some (h : sends e m = some body) : ∃ msg ∈ m.sendMsgList, msg.body = body := by
  cases e with
  | poll alloc =>
    simp only [sends] at h
    split at h
    · cases h
    · rcases sendMsgHandle_cases m.sendMsgList with hs | ⟨first, rest, hl, hs⟩ <;> rw [hs] at h
      · cases h
      · cases h
        exact ⟨first, by simp [hl], rfl⟩
  | _ => cases h

theorem uart1Analysis_sendMsgList (alloc : Alloc) (data : Nat → U8) (len : U8) (m : Module) :
    (uart1Analysis alloc data len m).module.sendMsgList = m.sendMsgList ∨
      ∃ body, body ≠ [] ∧ (uart1Analysis alloc data len m).module.sendMsgList =
        queue alloc.calloc body m.sendMsgList := by
  rcases uart1Analysis_cases alloc data len m with ⟨-, -, he⟩ | ⟨-, he⟩ | ⟨-, -, he⟩ <;> rw [he]
  · rcases register_cases data m with ⟨-, -, hr⟩ | ⟨-, hr⟩ <;> rw [hr] <;> exact .inl rfl
  · rw [modbusCommandAnalysis_module]
    cases ha : answerOf alloc data m with
    | none => exact .inl rfl
    | some body =>
      refine .inr ⟨body, ?_, rfl⟩
      rintro rfl
      cases answerOf_head ha
  · exact .inl rfl

/-- What a step does to the send list: nothing, or one operation, whose message is
never empty, or a boot clears it. -/
theorem step_sendMsgList (e : Event) (m : Module) :
    (step e m).sendMsgList = m.sendMsgList ∨
      (∃ op, AddsBytes op m.sendMsgList ∧
        (step e m).sendMsgList = listStep op m.sendMsgList) ∨
      (step e m).sendMsgList = [] := by
  cases e with
  | poll alloc =>
    by_cases hp : m.Pending
    · rw [step, uartPoll_pending hp]
      obtain h | ⟨body, hbody, h⟩ :=
        uart1Analysis_sendMsgList alloc m.rx.data m.handedLen (uart1CleanRecvFlag m)
      · exact .inl h
      · exact .inr (.inl ⟨.add alloc.calloc body, List.length_pos_iff.mpr hbody, h⟩)
    · rw [step, uartPoll_idle hp]
      exact .inr (.inl ⟨.send, trivial, rfl⟩)
  | every10s calloc ops =>
    rw [step, uartEvery10s, saveGlobalInfo_sendMsgList]
    split
    · refine .inr (.inl ⟨.add calloc (generateRegisterData m), ?_, rfl⟩)
      simp [AddsBytes, generateRegisterData]
    · exact .inl rfl
  | reboot => exact .inr (.inr rfl)
  | _ => exact .inl ((step_unpolled (by simp) (by simp)).sendMsgList (by simp))

theorem Reachable.sendMsgList_length (h : Reachable m) : m.sendMsgList.length ≤ msgListMax := by
  refine Machine.Reachable.invariant (P := fun m => m.sendMsgList.length ≤ msgListMax) h ?_ ?_
  · rintro _ ⟨flash, rtc, uniqueId, rfl⟩
    exact Nat.zero_le _
  · intro e m hm
    obtain hs | ⟨op, -, hs⟩ | hs := step_sendMsgList e m <;> rw [hs]
    · exact hm
    · exact listStep_length op hm
    · exact Nat.zero_le _

-- ---------------------------------------------------------------------------
-- The stage
-- ---------------------------------------------------------------------------

def Module.Staged (m : Module) : Prop := m.control.stage = 1 ∨ m.control.stage = 2

theorem controlProgram_staged (adc : Adc) (h : m.Staged) : (controlProgram adc m).Staged := by
  refine controlProgram_preserves (P := Module.Staged) adc ?_ ?_ ?_ ?_ ?_ ?_ h
  · exact fun _ h => h
  · exact fun _ h => h
  · exact fun _ _ h => h
  · exact fun _ _ _ => .inl rfl
  · exact fun _ _ => .inr rfl
  · exact fun _ _ _ h => h

theorem step_staged (e : Event) (h : m.Staged) : (step e m).Staged := by
  cases e with
  | controlProgram adc => exact controlProgram_staged adc h
  | reboot => exact .inl rfl
  | poll alloc =>
    unfold Module.Staged
    rw [step, (uartPoll_undisturbed alloc m).2.2.1]
    exact h
  | _ =>
    unfold Module.Staged
    rw [(step_unpolled (by simp) (by simp)).control (by simp)]
    exact h

theorem Reachable.staged (h : Reachable m) : m.Staged := by
  refine Machine.Reachable.invariant h ?_ fun e _ => step_staged e
  rintro _ ⟨flash, rtc, uniqueId, rfl⟩
  exact .inl rfl

end Hvac
