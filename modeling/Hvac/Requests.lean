import Hvac.Firmware
import Hvac.Lib.Progress

/-!
# Registration requests

A module that nobody has registered puts its request into the send list in the
ten-second part of `UartEntry`. It is sent when a later turn of the thread finds
nothing waiting, and until then no second one is put in.
-/

namespace Hvac

open Machine (Within)

-- ---------------------------------------------------------------------------
-- The type of the module
-- ---------------------------------------------------------------------------

theorem settingField_type (hadd : ∀ s, (add s).module.info.type = s.module.info.type)
    (hsub : ∀ s, (sub s).module.info.type = s.module.info.type) (s : SettingPass) :
    (settingField cusor add sub s).module.info.type = s.module.info.type := by
  unfold settingField
  dsimp only
  repeat' split
  all_goals simp only [hadd, hsub]

theorem settingRow_type (i : Int) (s : SettingPass) :
    (settingRow i s).module.info.type = s.module.info.type := by
  have info (f : TypeInfo → TypeInfo) (hf : ∀ info, (f info).type = info.type) (s : SettingPass) :
      (onInfo f s).module.info.type = s.module.info.type := hf _
  have date (f : SysTime → SysTime) (s : SettingPass) :
      (onDate f s).module.info.type = s.module.info.type := rfl
  have time (f : SysTime → SysTime) (s : SettingPass) :
      (onTime f s).module.info.type = s.module.info.type := rfl
  unfold settingRow
  split <;> simp only [settingField_type, info, date, time, implies_true]

theorem settingPage_type (page : TypePage) (m : Module) :
    (settingPage page m).2.info.type = m.info.type := by
  have hrows (rows : List Int) (s : SettingPass) :
      (rows.foldl (fun s i => settingRow i s) s).module.info.type = s.module.info.type := by
    induction rows generalizing s with
    | nil => rfl
    | cons i rest ih => exact (ih _).trans (settingRow_type i s)
  exact hrows _ _

-- ---------------------------------------------------------------------------
-- The steps of an unregistered module
-- ---------------------------------------------------------------------------

/-- A frame that does not register the module is not carried out either. -/
theorem uartPoll_unregistered (hbefore : m.info.registerState = no)
    (hafter : (uartPoll alloc m).info.registerState = no) :
    (uartPoll alloc m).info = m.info ∧ (uartPoll alloc m).sendMsgList =
      if m.Pending then m.sendMsgList else (sendMsgHandle m.sendMsgList).1 := by
  by_cases hp : m.Pending
  · rw [uartPoll_pending hp] at hafter ⊢
    rw [if_pos hp]
    obtain ⟨-, -, he⟩ | ⟨hd, -⟩ | ⟨-, -, he⟩ :=
      uart1Analysis_cases alloc m.rx.data m.handedLen (uart1CleanRecvFlag m)
    · rw [he] at hafter ⊢
      obtain ⟨-, -, hr⟩ | ⟨-, hr⟩ := register_cases m.rx.data (uart1CleanRecvFlag m)
      · rw [hr] at hafter
        exact absurd hafter (show yes ≠ no by decide)
      · rw [hr]
        exact ⟨rfl, rfl⟩
    · exact absurd hbefore hd.2.2.1
    · rw [he]
      exact ⟨rfl, rfl⟩
  · rw [uartPoll_idle hp, if_neg hp]
    exact ⟨rfl, rfl⟩

/-- What a step makes of the send list of a module that is not registered. -/
def unregisteredList (request : List U8) (m : Module) : Event → List Msg
  | .poll _ => if m.Pending then m.sendMsgList else (sendMsgHandle m.sendMsgList).1
  | .every10s calloc _ => queue calloc request m.sendMsgList
  | _ => m.sendMsgList

/-- The request is the same as long as the module is not registered, and there is
nothing else to send. -/
theorem step_unregistered (hbefore : m.info.registerState = no)
    (hafter : (step e m).info.registerState = no) (hboot : e ≠ .reboot) :
    generateRegisterData (step e m) = generateRegisterData m ∧
      (step e m).sendMsgList = unregisteredList (generateRegisterData m) m e := by
  have hrequest (h : (step e m).info.addr = m.info.addr) (h' : (step e m).info.type = m.info.type) :
      generateRegisterData (step e m) = generateRegisterData m := by
    rw [generateRegisterData, generateRegisterData, step_id, h, h']
  cases e with
  | reboot => exact absurd rfl hboot
  | poll alloc =>
    obtain ⟨hinfo, hlist⟩ := uartPoll_unregistered hbefore hafter
    exact ⟨hrequest (congrArg TypeInfo.addr hinfo) (congrArg TypeInfo.type hinfo), hlist⟩
  | every10s calloc ops =>
    have hkept := uartEvery10s_bystander calloc ops m
    refine ⟨hrequest hkept.addr ?_, ?_⟩
    · simp only [step, uartEvery10s, saveGlobalInfo]
      split <;> split <;> rfl
    · rw [step, uartEvery10s, saveGlobalInfo_sendMsgList, if_pos hbefore]
      rfl
  | settingPage page =>
    have hkept := (settingPage_menuOnly page m).bystander
    exact ⟨hrequest hkept.addr (settingPage_type page m),
      (step_unpolled (by simp) hboot).sendMsgList (by simp)⟩
  | controlProgram adc =>
    obtain ⟨_, _, _, _, hm⟩ := controlProgram_thermostatOnly adc m
    refine ⟨hrequest ?_ ?_, (step_unpolled (by simp) hboot).sendMsgList (by simp)⟩ <;>
      rw [step, hm]
  | monitorConnectedState =>
    refine ⟨hrequest ?_ ?_, (step_unpolled (by simp) hboot).sendMsgList (by simp)⟩ <;>
      rw [step, monitorConnectedState] <;> split <;> rfl
  | _ => exact ⟨rfl, rfl⟩

-- ---------------------------------------------------------------------------
-- The request in the list
-- ---------------------------------------------------------------------------

/-- No message is empty, and those that start like a request are as long as one. -/
def Orderly (list : List Msg) : Prop :=
  ∀ msg ∈ list, msg.body ≠ [] ∧ (msg.body.head? = some registerCode → msg.body.length = 15)

@[simp] theorem head?_generateRegisterData (m : Module) :
    (generateRegisterData m).head? = some registerCode := rfl

@[simp] theorem length_generateRegisterData (m : Module) :
    (generateRegisterData m).length = 15 := rfl

theorem Reachable.orderly (h : Reachable m) : Orderly m.sendMsgList := by
  refine Machine.Reachable.invariant (P := fun m => Orderly m.sendMsgList) h ?_ ?_
  · rintro _ ⟨flash, rtc, uniqueId, rfl⟩ msg hmsg
    cases hmsg
  · intro e m hm msg hmsg
    obtain hold | hbody | ⟨alloc, -, -, hd, -, hanswer⟩ := mem_step_sendMsgList hmsg
    · exact hm msg hold
    · rw [hbody]
      exact ⟨List.length_pos_iff.mp (by simp), fun _ => rfl⟩
    · have hhead := answerOf_head hanswer
      refine ⟨fun hempty => ?_, fun hcode => ?_⟩
      · rw [hempty] at hhead
        cases hhead
      · exact absurd (Option.some.inj (hhead.symm.trans hcode)) hd.2.1

/-- The request is in the list. -/
def Queued (request : List U8) (list : List Msg) : Prop := ∃ msg ∈ list, msg.body = request

theorem take_data_of_body {msg : Msg} (h : msg.body = request) :
    msg.data.take request.length = request := by
  rw [← h]
  exact msg.take_len_data

/-- In an orderly list only the request itself is taken for its duplicate. -/
theorem Orderly.eq_of_take (h : Orderly list) (hmsg : msg ∈ list)
    (htake : msg.data.take 15 = generateRegisterData m) : msg.body = generateRegisterData m := by
  obtain ⟨hne, hlength⟩ := h msg hmsg
  obtain ⟨first, rest, hbody⟩ := List.exists_cons_of_ne_nil hne
  have hhead : msg.body.head? = some registerCode := by
    have hdata : (msg.data.take 15).head? = some first := by simp [Msg.data, hbody]
    rw [htake] at hdata
    rw [hbody]
    exact hdata.symm
  have hfifteen := hlength hhead
  rw [← htake, ← hfifteen]
  exact msg.take_len_data.symm

/-- A request that is in the list is not put in again. -/
theorem Queued.queue (h : Queued request list) (calloc : Bool) :
    queue calloc request list = list := by
  obtain ⟨msg, hmsg, hbody⟩ := h
  have hany : list.any (fun temp => temp.data.take request.length == request) = true :=
    List.any_eq_true.mpr ⟨msg, hmsg, beq_iff_eq.mpr (take_data_of_body hbody)⟩
  unfold Hvac.queue addToSendMsgList
  repeat' split
  all_goals rfl

theorem Orderly.queued_queue (h : Orderly list) (hroom : list.length < msgListMax) (m : Module) :
    Queued (generateRegisterData m) (queue true (generateRegisterData m) list) := by
  by_cases hany : list.any (fun temp => temp.data.take 15 == generateRegisterData m) = true
  · obtain ⟨msg, hmsg, htake⟩ := List.any_eq_true.mp hany
    have hqueued : Queued (generateRegisterData m) list :=
      ⟨msg, hmsg, h.eq_of_take hmsg (beq_iff_eq.mp htake)⟩
    rw [hqueued.queue]
    exact hqueued
  · have hadd : queue true (generateRegisterData m) list =
        ⟨generateRegisterData m, by simp [msgSize]⟩ :: list := by
      simp [queue, addToSendMsgList, msgSize, Nat.not_le.mpr hroom, hany]
    rw [hadd]
    exact ⟨_, List.mem_cons_self, rfl⟩

-- ---------------------------------------------------------------------------
-- The turns of the thread
-- ---------------------------------------------------------------------------

/-- The turns between two ten-second parts, the second of them included. -/
def requestPeriod : Nat := 502

/-- How far the thread is in its ten seconds. -/
def Firmware.uartPosition (s : Firmware) : Nat :=
  match s.uartAt with
  | .round => s.uartTime10S.toNat
  | .every10s => 501

/-- The timer is within its limit, and has just been due before a ten-second part. -/
structure UartTimed (s : Firmware) : Prop where
  limit : s.uartTime10S.toNat ≤ 500
  due : s.uartAt = .every10s → s.uartTime10S = 0

def FirmwareEvent.isUart : FirmwareEvent → Bool
  | .uart _ _ => true
  | _ => false

def uartTurns : List FirmwareEvent → Firmware → Nat :=
  Machine.counted firmwareStep fun e _ => e.isUart

theorem UartTimed.position_lt (h : UartTimed s) : s.uartPosition < requestPeriod := by
  unfold Firmware.uartPosition requestPeriod
  split
  · exact Nat.lt_of_le_of_lt h.limit (by decide)
  · decide

theorem mainTurn_uart (adc : Adc) (s : Firmware) :
    (s.mainTurn adc).uartTime10S = s.uartTime10S ∧ (s.mainTurn adc).uartAt = s.uartAt := by
  unfold Firmware.mainTurn
  split <;> exact ⟨rfl, rfl⟩

theorem UartTimed.uartTurn (h : UartTimed s) (alloc : Alloc) (ops : FlashOps) :
    UartTimed (s.uartTurn alloc ops) ∧
      (s.uartTurn alloc ops).uartPosition =
        if s.uartAt = .every10s then 0 else s.uartPosition + 1 := by
  obtain ⟨hlimit, hdue⟩ := h
  cases hat : s.uartAt with
  | every10s =>
    have hzero : s.uartTime10S.toNat = 0 := congrArg BitVec.toNat (hdue hat)
    simp only [Firmware.uartTurn, Firmware.uartPosition, hat, if_true]
    exact ⟨⟨hlimit, fun hround => absurd hround (by simp)⟩, hzero⟩
  | round =>
    obtain ⟨hcount, hflag⟩ := timerTask_eq_call s.uartTime10S (10000 / 20)
    have hperiod : (10000 / 20 : U16).toNat = 500 := by decide
    rw [hperiod, Prescaler.call] at hcount hflag
    simp only [Firmware.uartTurn, Firmware.uartPosition, hat, reduceCtorEq, if_false]
    split at hcount <;> rename_i hlt
    · have hquiet : ¬(timerTask s.uartTime10S (10000 / 20)).2 = yes := by
        rw [hflag, if_pos hlt]
        exact Bool.false_ne_true
      rw [if_neg hquiet]
      exact ⟨⟨hcount.trans_le hlt, fun hround => absurd hround (by simp)⟩, hcount⟩
    · have hnow : (timerTask s.uartTime10S (10000 / 20)).2 = yes := by
        rw [hflag, if_neg hlt]
      rw [if_pos hnow]
      have hlast : 501 = s.uartTime10S.toNat + 1 := by omega
      exact ⟨⟨hcount.trans_le (Nat.zero_le _), fun _ => BitVec.eq_of_toNat_eq hcount⟩, hlast⟩

/-- Only the thread itself moves. -/
theorem UartTimed.step (h : UartTimed s) (e : FirmwareEvent) (hboot : e ≠ .reboot) :
    UartTimed (firmwareStep e s) ∧ (firmwareStep e s).uartPosition =
      if e.isUart then if s.uartAt = .every10s then 0 else s.uartPosition + 1
      else s.uartPosition := by
  cases e with
  | uart alloc ops => exact h.uartTurn alloc ops
  | reboot => exact absurd rfl hboot
  | main adc =>
    obtain ⟨htime, hat⟩ := mainTurn_uart adc s
    refine ⟨⟨?_, ?_⟩, ?_⟩ <;> simp only [firmwareStep, Firmware.uartPosition, htime, hat]
    · exact h.limit
    · exact h.due
    · rfl
  | _ => exact ⟨⟨h.limit, h.due⟩, rfl⟩

/-- But in the ten-second part a turn of the thread is one position. -/
theorem UartTimed.step_round (h : UartTimed s) (hboot : e ≠ .reboot)
    (hround : ¬(e.isUart = true ∧ s.uartAt = .every10s)) :
    (firmwareStep e s).uartPosition = s.uartPosition + e.isUart.toNat := by
  rw [(h.step e hboot).2]
  cases hu : e.isUart with
  | false => rfl
  | true => exact (if_pos rfl).trans (if_neg fun hat => hround ⟨hu, hat⟩)

theorem FirmwareReachable.step (h : FirmwareReachable s) (e : FirmwareEvent) :
    FirmwareReachable (firmwareStep e s) := by
  obtain ⟨start, events, hstart, rfl⟩ := h
  exact ⟨start, events ++ [e], hstart, Machine.run_append⟩

theorem FirmwareReachable.run (h : FirmwareReachable s) (events : List FirmwareEvent) :
    FirmwareReachable (firmwareRun events s) := by
  obtain ⟨start, before, hstart, rfl⟩ := h
  exact ⟨start, before ++ events, hstart, Machine.run_append⟩

theorem FirmwareReachable.uartTimed (h : FirmwareReachable s) : UartTimed s := by
  refine Machine.Reachable.invariant h ?_ fun e s hs => ?_
  · rintro _ ⟨flash, rtc, uniqueId, rfl⟩
    exact ⟨Nat.zero_le _, fun hround => nomatch hround⟩
  · by_cases hboot : e = .reboot
    · subst hboot
      exact ⟨Nat.zero_le _, fun hround => nomatch hround⟩
    · exact (hs.step e hboot).1

theorem FirmwareReachable.orderly (h : FirmwareReachable s) : Orderly s.module.sendMsgList := by
  obtain ⟨m, hm, ⟨⟨flag, hsame⟩, -, -⟩⟩ := h.tracked
  rw [show s.module = m.withLocation flag from hsame]
  exact hm.orderly

-- ---------------------------------------------------------------------------
-- Nobody answers
-- ---------------------------------------------------------------------------

/-- There is memory for a message, and the power stays on. -/
def FirmwareEvent.Supplied : FirmwareEvent → Prop
  | .uart alloc _ => alloc.calloc = true
  | .reboot => False
  | _ => True

/-- The module is not registered, neither before nor by this event. -/
def Unanswered (e : FirmwareEvent) (s : Firmware) : Prop :=
  e.Supplied ∧ s.module.info.registerState = no ∧
    (firmwareStep e s).module.info.registerState = no

instance decidableSupplied : (e : FirmwareEvent) → Decidable e.Supplied
  | .uart alloc _ => inferInstanceAs (Decidable (alloc.calloc = true))
  | .reboot => inferInstanceAs (Decidable False)
  | .input _ | .rtcTick _ | .main _ | .oled _ | .button _ => inferInstanceAs (Decidable True)

instance decidableUnanswered (e : FirmwareEvent) (s : Firmware) : Decidable (Unanswered e s) :=
  inferInstanceAs (Decidable (_ ∧ _ ∧ _))

/-- A turn of the thread that finds nothing waiting. -/
def idleTurn (e : FirmwareEvent) (s : Firmware) : Bool :=
  e.isUart && decide (s.uartAt = .round ∧ ¬s.module.Pending)

theorem ButLocation.request (h : ButLocation m m') :
    generateRegisterData m' = generateRegisterData m := by
  obtain ⟨flag, rfl⟩ := h
  rfl

/-- What becomes of the send list in an event nobody answers in. -/
def unansweredList (s : Firmware) (e : FirmwareEvent) : List Msg :=
  if e.isUart then
    match s.uartAt with
    | .round => if s.module.Pending then s.module.sendMsgList
      else (sendMsgHandle s.module.sendMsgList).1
    | .every10s => queue true (generateRegisterData s.module) s.module.sendMsgList
  else s.module.sendMsgList

theorem run_view_unregistered {s : Firmware} (h : ButLocation m s.module)
    (hstep : ButLocation (step e m) m') (hbefore : s.module.info.registerState = no)
    (hafter : m'.info.registerState = no) (hboot : e ≠ .reboot) :
    generateRegisterData m' = generateRegisterData s.module ∧
      m'.sendMsgList = unregisteredList (generateRegisterData s.module) s.module e := by
  obtain ⟨flag, hs⟩ := h
  obtain ⟨flag', rfl⟩ := hstep
  rw [hs] at hbefore ⊢
  obtain ⟨hrequest, hlist⟩ := step_unregistered (e := e) (m := m) hbefore hafter hboot
  refine ⟨hrequest, hlist.trans ?_⟩
  cases e <;> rfl

theorem run_view_nil {s : Firmware} (h : ButLocation m s.module) (hsame : ButLocation m m') :
    generateRegisterData m' = generateRegisterData s.module ∧
      m'.sendMsgList = s.module.sendMsgList := by
  refine ⟨hsame.request.trans h.request.symm, ?_⟩
  obtain ⟨flag, hs⟩ := h
  obtain ⟨flag', rfl⟩ := hsame
  rw [hs]
  rfl

/-- The request stays the same, and only the thread itself touches the list. -/
theorem FirmwareReachable.unanswered (h : FirmwareReachable s) (hg : Unanswered e s) :
    generateRegisterData (firmwareStep e s).module = generateRegisterData s.module ∧
      (firmwareStep e s).module.sendMsgList = unansweredList s e := by
  obtain ⟨m, -, htracked⟩ := h.tracked
  obtain ⟨hsupplied, hbefore, hafter⟩ := hg
  have hnext := (firmwareStep_tracked e s m htracked).module
  have hone {a : Event} (hview : firmwareView e s = [a]) (hboot : a ≠ .reboot) :
      generateRegisterData (firmwareStep e s).module = generateRegisterData s.module ∧
        (firmwareStep e s).module.sendMsgList =
          unregisteredList (generateRegisterData s.module) s.module a := by
    rw [hview] at hnext
    exact run_view_unregistered htracked.module hnext hbefore hafter hboot
  have hnone (hview : firmwareView e s = []) :
      generateRegisterData (firmwareStep e s).module = generateRegisterData s.module ∧
        (firmwareStep e s).module.sendMsgList = s.module.sendMsgList := by
    rw [hview] at hnext
    exact run_view_nil htracked.module hnext
  cases e with
  | input chunk => exact hone (a := .input chunk) rfl (by simp)
  | rtcTick rtc => exact hone (a := .rtcTick rtc) rfl (by simp)
  | button reads => exact hnone rfl
  | reboot => exact hsupplied.elim
  | oled adc =>
    cases hd : drawnNow s.display with
    | none => exact hnone (by simp only [firmwareView, moduleEvents, hd])
    | some drawn =>
      obtain ⟨page, drawn⟩ := drawn
      by_cases hpage : page = settingPageNumber
      · exact hone (a := .settingPage (atSettingPage drawn).oled.pageSelect.toTypePage)
          (by simp only [firmwareView, moduleEvents, hd, if_pos hpage]) (by simp)
      · exact hone (a := .homePage adc)
          (by simp only [firmwareView, moduleEvents, hd, if_neg hpage]) (by simp)
  | main adc =>
    cases hat : s.mainAt with
    | round => exact hnone (by simp only [firmwareView, hat])
    | timeRunning => exact hone (a := .timeRunning) (by simp only [firmwareView, hat]) (by simp)
    | controlProgram =>
      exact hone (a := .controlProgram adc) (by simp only [firmwareView, hat]) (by simp)
    | monitorConnectedState =>
      exact hone (a := .monitorConnectedState) (by simp only [firmwareView, hat]) (by simp)
  | uart alloc ops =>
    cases hat : s.uartAt with
    | round =>
      obtain ⟨hrequest, hlist⟩ :=
        hone (a := .poll alloc) (by simp only [firmwareView, hat]) (by simp)
      refine ⟨hrequest, hlist.trans ?_⟩
      simp only [unansweredList, unregisteredList, FirmwareEvent.isUart, hat, if_true]
    | every10s =>
      obtain ⟨hrequest, hlist⟩ :=
        hone (a := .every10s alloc.calloc ops) (by simp only [firmwareView, hat]) (by simp)
      refine ⟨hrequest, hlist.trans ?_⟩
      simp only [unansweredList, unregisteredList, FirmwareEvent.isUart, hat, if_true]
      rw [show alloc.calloc = true from hsupplied]

/-- What a turn that finds nothing waiting takes off the list, it sends. -/
theorem firmwareSends_idle (h : idleTurn e s = true) :
    firmwareSends e s = (sendMsgHandle s.module.sendMsgList).2 ∧
      unansweredList s e = (sendMsgHandle s.module.sendMsgList).1 := by
  cases e with
  | uart alloc ops =>
    obtain ⟨hat, hidle⟩ : s.uartAt = .round ∧ ¬s.module.Pending := by
      simpa [idleTurn, FirmwareEvent.isUart] using h
    simp only [firmwareSends, unansweredList, FirmwareEvent.isUart, hat, sends, if_true,
      if_neg hidle, and_self]
  | _ => cases h

theorem unansweredList_busy (h : idleTurn e s = false) :
    unansweredList s e = if e.isUart = true ∧ s.uartAt = .every10s then
      queue true (generateRegisterData s.module) s.module.sendMsgList
    else s.module.sendMsgList := by
  cases hu : e.isUart with
  | false => simp [unansweredList, hu]
  | true =>
    cases hat : s.uartAt with
    | every10s => simp [unansweredList, hu, hat]
    | round =>
      have hpending : s.module.Pending := by simpa [idleTurn, hu, hat] using h
      simp [unansweredList, hu, hat, hpending]

-- ---------------------------------------------------------------------------
-- The request is sent
-- ---------------------------------------------------------------------------

/-- A module with this request has room in its list, or has the request there. -/
structure Roomy (request : List U8) (s : Firmware) : Prop where
  reachable : FirmwareReachable s
  own : generateRegisterData s.module = request
  room : s.module.sendMsgList.length < msgListMax

structure Asking (request : List U8) (s : Firmware) : Prop where
  reachable : FirmwareReachable s
  own : generateRegisterData s.module = request
  queued : Queued request s.module.sendMsgList

/-- A message that is taken off the list is the request, or leaves it there. -/
theorem Queued.handle (h : Queued request list) (horderly : Orderly list) :
    (sendMsgHandle list).2 = some request ∨ Queued request (sendMsgHandle list).1 := by
  obtain ⟨msg, hmsg, hbody⟩ := h
  obtain ⟨first, rest, rfl⟩ := List.exists_cons_of_ne_nil (List.ne_nil_of_mem hmsg)
  have hne : first.len ≠ 0 := mt List.length_eq_zero_iff.mp (horderly first List.mem_cons_self).1
  rw [sendMsgHandle_cons hne]
  obtain rfl | hrest := List.mem_cons.mp hmsg
  · exact .inl (congrArg some hbody)
  · exact .inr ⟨msg, hrest, hbody⟩

theorem length_sendMsgHandle (list : List Msg) :
    (sendMsgHandle list).1.length ≤ list.length := by
  obtain h | ⟨first, rest, hlist, h⟩ := sendMsgHandle_cases list
  · rw [h]
  · rw [h, hlist]
    exact Nat.le_succ _

theorem Asking.step (h : Asking request s) (hg : Unanswered e s) :
    Asking request (firmwareStep e s) ∨ ∃ b, firmwareSends e s = some b ∧ b = request := by
  obtain ⟨hreach, rfl, hqueued⟩ := h
  obtain ⟨hrequest, hlist⟩ := hreach.unanswered hg
  cases hidle : idleTurn e s with
  | true =>
    obtain ⟨hsends, hhandle⟩ := firmwareSends_idle hidle
    obtain hsent | hkept := hqueued.handle hreach.orderly
    · exact .inr ⟨_, hsends.trans hsent, rfl⟩
    · exact .inl ⟨hreach.step e, hrequest, by rwa [hlist, hhandle]⟩
  | false =>
    refine .inl ⟨hreach.step e, hrequest, ?_⟩
    rw [hlist, unansweredList_busy hidle, hqueued.queue, ite_self]
    exact hqueued

/-- Towards the ten-second part. -/
theorem Roomy.step (h : Roomy request s) (hg : Unanswered e s) :
    Asking request (firmwareStep e s) ∨
      Roomy request (firmwareStep e s) ∧
        501 - (firmwareStep e s).uartPosition + (e.isUart).toNat ≤ 501 - s.uartPosition := by
  obtain ⟨hreach, rfl, hroom⟩ := h
  obtain ⟨hrequest, hlist⟩ := hreach.unanswered hg
  have hboot : e ≠ .reboot := by
    rintro rfl
    exact hg.1
  obtain ⟨-, hposition⟩ := hreach.uartTimed.step e hboot
  have hle := (hreach.step e).uartTimed.position_lt
  by_cases hdue : e.isUart = true ∧ s.uartAt = .every10s
  · have hbusy : idleTurn e s = false := by simp [idleTurn, hdue.2]
    refine .inl ⟨hreach.step e, hrequest, ?_⟩
    rw [hlist, unansweredList_busy hbusy, if_pos hdue]
    exact hreach.orderly.queued_queue hroom s.module
  · refine .inr ⟨⟨hreach.step e, hrequest, ?_⟩, ?_⟩
    · rw [hlist]
      cases hidle : idleTurn e s with
      | true =>
        rw [(firmwareSends_idle hidle).2]
        exact Nat.lt_of_le_of_lt (length_sendMsgHandle _) hroom
      | false => rwa [unansweredList_busy hidle, if_neg hdue]
    · rw [hposition] at hle ⊢
      unfold requestPeriod at hle
      cases hu : e.isUart with
      | false => simp
      | true =>
        have hround : s.uartAt ≠ .every10s := fun hat => hdue ⟨hu, hat⟩
        simp only [hu, hround, if_true, if_false, Bool.toNat_true] at hle ⊢
        omega

/-- With every idle turn the list gets shorter. -/
theorem Asking.idle (h : Asking request s) (hg : Unanswered e s) :
    (∃ b, firmwareSends e s = some b ∧ b = request) ∨
      Asking request (firmwareStep e s) ∧
        (firmwareStep e s).module.sendMsgList.length - 1 + (idleTurn e s).toNat ≤
          s.module.sendMsgList.length - 1 := by
  obtain hasking | hsent := h.step hg
  · refine .inr ⟨hasking, ?_⟩
    obtain ⟨hreach, rfl, hqueued⟩ := h
    obtain ⟨-, hlist⟩ := hreach.unanswered hg
    have hnext : 0 < (firmwareStep e s).module.sendMsgList.length := by
      obtain ⟨msg, hmsg, -⟩ := hasking.queued
      exact List.length_pos_of_mem hmsg
    cases hidle : idleTurn e s with
    | true =>
      rw [(firmwareSends_idle hidle).2] at hlist
      obtain ⟨msg, hmsg, -⟩ := hqueued
      obtain ⟨first, rest, heq⟩ := List.exists_cons_of_ne_nil (List.ne_nil_of_mem hmsg)
      have hne : first.len ≠ 0 := mt List.length_eq_zero_iff.mp
        (hreach.orderly first (by rw [heq]; exact List.mem_cons_self)).1
      rw [heq, sendMsgHandle_cons hne] at hlist
      rw [hlist] at hnext ⊢
      rw [heq]
      have hpos : 0 < rest.length := hnext
      show rest.length - 1 + 1 ≤ rest.length + 1 - 1
      omega
    | false =>
      rw [hlist, unansweredList_busy hidle, hqueued.queue, ite_self]
      exact Nat.le_refl _
  · exact .inl hsent

def idleTurns : List FirmwareEvent → Firmware → Nat := Machine.counted firmwareStep idleTurn

/-- From any reachable state with room in the send list: a module that stays
unregistered, has memory for a message in every turn of the thread and is not powered
off sends its request in every 502 turns of the thread and as many turns that find
nothing waiting as there are messages in the list then. The other threads and what is
received, an answer excepted, are free. -/
theorem registration_requested (s : Firmware) (window after : List FirmwareEvent)
    (hreach : FirmwareReachable s) (hroom : s.module.sendMsgList.length < msgListMax)
    (h : Within firmwareStep Unanswered (window ++ after) s)
    (hturns : requestPeriod ≤ uartTurns window s)
    (hidle : (firmwareRun window s).module.sendMsgList.length ≤
      idleTurns after (firmwareRun window s)) :
    generateRegisterData s.module ∈
      Machine.trace firmwareStep firmwareSends (window ++ after) s := by
  let request := generateRegisterData s.module
  obtain ⟨hwindow, hafter⟩ := Machine.within_append.mp h
  rw [Machine.trace_append]
  have hfirst := Machine.Within.reaches firmwareSends (Roomy request) (Asking request)
    (· = request) (fun s => 501 - s.uartPosition) hwindow
    (fun _ _ hg hasking => hasking.step hg)
    (fun _ _ hg hroomy => (hroomy.step hg).imp_right .inr) ⟨hreach, rfl, hroom⟩
    (Nat.lt_of_lt_of_le (Nat.lt_of_le_of_lt (Nat.sub_le ..) (by decide)) hturns)
  obtain hasking | ⟨b, hmem, rfl⟩ := hfirst
  · obtain ⟨msg, hmsg, -⟩ := hasking.queued
    have hpos := List.length_pos_of_mem hmsg
    have hsecond := Machine.Within.reaches firmwareSends (Asking request) (fun _ => False)
      (· = request)
      (fun s => s.module.sendMsgList.length - 1) hafter
      (fun _ _ _ hfalse => hfalse.elim) (fun _ _ hg hasking => .inr (hasking.idle hg)) hasking
      (Nat.lt_of_lt_of_le (Nat.sub_one_lt_of_lt hpos) hidle)
    obtain hfalse | ⟨b, hmem, rfl⟩ := hsecond
    · exact hfalse.elim
    · exact List.mem_append_right _ hmem
  · exact List.mem_append_left _ hmem

def firstPower : Firmware := .start [] {} fun _ => 0

/-- Turns of the thread of a module alone. -/
def aloneTurns (n : Nat) : List FirmwareEvent :=
  List.replicate n (.uart ⟨true, true⟩ ⟨true, fun _ => true⟩)

theorem registration_requested_alone :
    generateRegisterData firstPower.module ∈
      Machine.trace firmwareStep firmwareSends (aloneTurns 502 ++ aloneTurns 1) firstPower :=
  registration_requested firstPower (aloneTurns 502) (aloneTurns 1)
    ⟨firstPower, [], ⟨_, _, _, rfl⟩, rfl⟩ (by decide) (by decide +kernel) (by decide +kernel)
    (by decide +kernel)

-- ---------------------------------------------------------------------------
-- And nothing else
-- ---------------------------------------------------------------------------

/-- There is nothing in the list but the request, if that. -/
structure OnlyRequest (request : List U8) (s : Firmware) : Prop where
  reachable : FirmwareReachable s
  own : generateRegisterData s.module = request
  list : s.module.sendMsgList = [] ∨
    ∃ msg : Msg, s.module.sendMsgList = [msg] ∧ msg.body = request

/-- The turns that have gone into what is in the list, and into the next request. -/
def turnsSpent (s : Firmware) : Nat :=
  s.module.sendMsgList.length * requestPeriod + s.uartPosition

/-- The list is empty but right after the ten-second part. -/
def Prompt (s : Firmware) : Prop := s.module.sendMsgList = [] ∨ s.uartPosition = 0

theorem firmwareSends_busy {s : Firmware} (h : idleTurn e s = false) :
    firmwareSends e s = none := by
  cases e with
  | uart alloc ops =>
    by_cases hat : s.uartAt = .round
    · have hpending : s.module.Pending := by
        simpa [idleTurn, FirmwareEvent.isUart, hat] using h
      simp only [firmwareSends, sends, hat, hpending, if_true]
    · simp only [firmwareSends, hat, if_false]
  | _ => rfl

/-- What an event sends, and the turns spent before and after it. -/
structure RequestStep (request : List U8) (e : FirmwareEvent) (s : Firmware) (sent : Nat) :
    Prop where
  shown : (firmwareSends e s).toList = List.replicate sent request
  next : OnlyRequest request (firmwareStep e s)
  spent : sent * requestPeriod + turnsSpent (firmwareStep e s) ≤ turnsSpent s + e.isUart.toNat
  prompt : ¬s.module.Pending → Prompt s → Prompt (firmwareStep e s) ∧
    sent * requestPeriod + turnsSpent (firmwareStep e s) = turnsSpent s + e.isUart.toNat

theorem idleTurn_eq_true {s : Firmware} (h : idleTurn e s = true) :
    e.isUart = true ∧ s.uartAt = .round ∧ ¬s.module.Pending := by
  simpa [idleTurn] using h

/-- A turn that finds nothing waiting empties the list. -/
theorem OnlyRequest.idle (h : OnlyRequest request s) (hg : Unanswered e s)
    (hidle : idleTurn e s = true) : ∃ sent, RequestStep request e s sent := by
  obtain ⟨hreach, hown, hl⟩ := h
  obtain ⟨hrequest, hlist⟩ := hreach.unanswered hg
  obtain ⟨hu, hat, -⟩ := idleTurn_eq_true hidle
  obtain ⟨hsends, hhandle⟩ := firmwareSends_idle hidle
  have hposition : (firmwareStep e s).uartPosition = s.uartPosition + 1 := by
    rw [(hreach.uartTimed.step e (by rintro rfl; exact hg.1)).2, if_pos hu, if_neg (by simp [hat])]
  rw [hhandle] at hlist
  obtain hnil | ⟨msg, hone, hbody⟩ := hl
  · rw [hnil] at hsends hlist
    have hspent : turnsSpent (firmwareStep e s) = turnsSpent s + 1 := by
      simp [turnsSpent, hlist, hnil, hposition, sendMsgHandle]
    refine ⟨0, by rw [hsends]; rfl, ⟨hreach.step e, hrequest.trans hown, .inl hlist⟩, ?_,
      fun _ _ => ⟨.inl hlist, ?_⟩⟩ <;> simp [hspent, hu]
  · have hne : msg.len ≠ 0 := mt List.length_eq_zero_iff.mp
      (hreach.orderly msg (by rw [hone]; exact List.mem_singleton_self msg)).1
    rw [hone, sendMsgHandle_cons hne] at hsends hlist
    have hspent : turnsSpent s + 1 = requestPeriod + turnsSpent (firmwareStep e s) := by
      simp [turnsSpent, hlist, hone, hposition, Nat.add_assoc]
    refine ⟨1, by rw [hsends, hbody]; rfl, ⟨hreach.step e, hrequest.trans hown, .inl hlist⟩, ?_,
      fun _ _ => ⟨.inl hlist, ?_⟩⟩ <;> simp [hspent, hu]

/-- The ten-second part puts the request in, if it is not there. -/
theorem OnlyRequest.every10s (h : OnlyRequest request s) (hg : Unanswered e s)
    (hu : e.isUart = true) (hat : s.uartAt = .every10s) :
    ∃ sent, RequestStep request e s sent := by
  obtain ⟨hreach, rfl, hl⟩ := h
  obtain ⟨hrequest, hlist⟩ := hreach.unanswered hg
  have hbusy : idleTurn e s = false := by simp [idleTurn, hat]
  have hbefore : s.uartPosition = 501 := by simp only [Firmware.uartPosition, hat]
  have hposition : (firmwareStep e s).uartPosition = 0 := by
    rw [(hreach.uartTimed.step e (by rintro rfl; exact hg.1)).2, if_pos hu, if_pos hat]
  have hnone : (firmwareSends e s).toList = List.replicate 0 (generateRegisterData s.module) := by
    rw [firmwareSends_busy hbusy]
    rfl
  rw [unansweredList_busy hbusy, if_pos ⟨hu, hat⟩] at hlist
  obtain hnil | ⟨msg, hone, hbody⟩ := hl
  · have hadd : queue true (generateRegisterData s.module) [] =
        [⟨generateRegisterData s.module, by simp [msgSize]⟩] := by
      simp [queue, addToSendMsgList, msgSize, msgListMax]
    rw [hnil, hadd] at hlist
    refine ⟨0, hnone, ⟨hreach.step e, hrequest, .inr ⟨_, hlist, rfl⟩⟩, ?_,
      fun _ _ => ⟨.inr hposition, ?_⟩⟩ <;>
      simp [turnsSpent, hlist, hnil, hposition, hbefore, hu, requestPeriod]
  · have hqueued : Queued (generateRegisterData s.module) s.module.sendMsgList :=
      ⟨msg, by rw [hone]; exact List.mem_singleton_self msg, hbody⟩
    rw [hqueued.queue] at hlist
    refine ⟨0, hnone, ⟨hreach.step e, hrequest, .inr ⟨msg, hlist.trans hone, hbody⟩⟩, ?_, ?_⟩
    · simp [turnsSpent, hlist, hone, hposition, hbefore, hu, requestPeriod]
    · rintro - (hempty | hstart)
      · rw [hone] at hempty
        cases hempty
      · rw [hbefore] at hstart
        cases hstart

theorem OnlyRequest.step (h : OnlyRequest request s) (hg : Unanswered e s) :
    ∃ sent, RequestStep request e s sent := by
  by_cases hidle : idleTurn e s = true
  · exact h.idle hg hidle
  by_cases hdue : e.isUart = true ∧ s.uartAt = .every10s
  · exact h.every10s hg hdue.1 hdue.2
  · -- the list stays, and a turn of the thread finds something waiting
    have hbusy : idleTurn e s = false := by simpa using hidle
    obtain ⟨hreach, hown, hl⟩ := h
    obtain ⟨hrequest, hlist⟩ := hreach.unanswered hg
    rw [unansweredList_busy hbusy, if_neg hdue] at hlist
    have hposition := hreach.uartTimed.step_round (by rintro rfl; exact hg.1) hdue
    have hspent : turnsSpent (firmwareStep e s) = turnsSpent s + e.isUart.toNat := by
      simp [turnsSpent, hlist, hposition, Nat.add_assoc]
    refine ⟨0, by rw [firmwareSends_busy hbusy]; rfl,
      ⟨hreach.step e, hrequest.trans hown, by rwa [hlist]⟩, by simp [hspent], ?_⟩
    intro hquiet hprompt
    have hnot : e.isUart = false := by
      cases hu : e.isUart with
      | false => rfl
      | true =>
        cases hat : s.uartAt with
        | round => exact absurd hbusy (by simp [idleTurn, hu, hat, hquiet])
        | every10s => exact absurd ⟨hu, hat⟩ hdue
    refine ⟨?_, by simp [hspent]⟩
    unfold Prompt
    rwa [hlist, hposition, hnot]

theorem OnlyRequest.run (h : OnlyRequest request s) (hg : Within firmwareStep Unanswered events s) :
    ∃ sent, Machine.trace firmwareStep firmwareSends events s = List.replicate sent request ∧
      OnlyRequest request (firmwareRun events s) ∧
      sent * requestPeriod + turnsSpent (firmwareRun events s) ≤
        turnsSpent s + uartTurns events s ∧
      (Within firmwareStep (fun _ s => ¬s.module.Pending) events s → Prompt s →
        Prompt (firmwareRun events s) ∧
          sent * requestPeriod + turnsSpent (firmwareRun events s) =
            turnsSpent s + uartTurns events s) := by
  induction events generalizing s with
  | nil => exact ⟨0, rfl, h, by simp [uartTurns], fun _ hprompt => ⟨hprompt, by simp [uartTurns]⟩⟩
  | cons e rest ih =>
    obtain ⟨sent, hstep⟩ := h.step hg.1
    obtain ⟨more, hmore, hlast, hspent, hquiet⟩ := ih hstep.next hg.2
    have hnow := hstep.spent
    have hrun : firmwareRun (e :: rest) s = firmwareRun rest (firmwareStep e s) := rfl
    have hturns : uartTurns (e :: rest) s =
      e.isUart.toNat + uartTurns rest (firmwareStep e s) := rfl
    refine ⟨sent + more, ?_, hlast, ?_, fun hnothing hprompt => ?_⟩
    · rw [Machine.trace_cons, hstep.shown, hmore, List.replicate_add]
    · rw [hrun, hturns, Nat.add_mul]
      omega
    · obtain ⟨hprompt', heq⟩ := hstep.prompt hnothing.1 hprompt
      obtain ⟨hprompt'', heq'⟩ := hquiet hnothing.2 hprompt'
      refine ⟨hprompt'', ?_⟩
      rw [hrun, hturns, Nat.add_mul]
      omega

-- ---------------------------------------------------------------------------
-- A silent bus
-- ---------------------------------------------------------------------------

/-- Without a frame for it a module waits for nothing and stays as it is. -/
theorem step_silent (hpending : ¬m.Pending) (hstate : m.info.registerState = no)
    (hboot : e ≠ .reboot) (hinput : ∀ chunk, e = .input chunk → ¬Accepts m chunk) :
    ¬(step e m).Pending ∧ (step e m).info.registerState = no := by
  cases e with
  | reboot => exact absurd rfl hboot
  | input chunk =>
    refine ⟨fun h => hpending ?_, hstate⟩
    have hrefused := hinput chunk rfl
    simpa [step, uart1Input, Module.Pending, hrefused] using h
  | poll alloc =>
    rw [step, uartPoll_idle hpending]
    exact ⟨hpending, hstate⟩
  | monitorConnectedState =>
    rw [step, monitorConnectedState]
    split
    · exact ⟨hpending, rfl⟩
    · exact ⟨hpending, hstate⟩
  | every10s calloc ops =>
    have hkept := uartEvery10s_bystander calloc ops m
    refine ⟨fun h => hpending ?_, hkept.registerState.trans hstate⟩
    rwa [Module.Pending, step, hkept.rx] at h
  | controlProgram adc =>
    have hkept := (controlProgram_thermostatOnly adc m).bystander
    refine ⟨fun h => hpending ?_, hkept.registerState.trans hstate⟩
    rwa [Module.Pending, step, hkept.rx] at h
  | settingPage page =>
    have hkept := (settingPage_menuOnly page m).bystander
    refine ⟨fun h => hpending ?_, hkept.registerState.trans hstate⟩
    rwa [Module.Pending, step, hkept.rx] at h
  | _ => exact ⟨hpending, hstate⟩

/-- Nothing that comes in this event is for the module. -/
def Silent (e : FirmwareEvent) (s : Firmware) : Prop :=
  e.Supplied ∧ ∀ chunk, e = .input chunk → ¬Accepts s.module chunk

instance decidableSilent : (e : FirmwareEvent) → (s : Firmware) → Decidable (Silent e s)
  | .input chunk, s =>
    decidable_of_iff (¬Accepts s.module chunk)
      ⟨fun h => ⟨trivial, fun _ he => FirmwareEvent.input.inj he ▸ h⟩, fun h => h.2 chunk rfl⟩
  | .uart alloc ops, _ =>
    decidable_of_iff (FirmwareEvent.uart alloc ops).Supplied
      ⟨fun h => ⟨h, fun _ he => nomatch he⟩, And.left⟩
  | .reboot, _ => isFalse And.left
  | .rtcTick _, _ | .main _, _ | .oled _, _ | .button _, _ =>
    isTrue ⟨trivial, fun _ he => nomatch he⟩

/-- The power being on, an event is a step of the module at most, and of its own kind. -/
theorem firmwareView_single (hboot : e ≠ .reboot) (s : Firmware) :
    firmwareView e s = [] ∨ ∃ e', firmwareView e s = [e'] ∧ e' ≠ .reboot ∧
      (∀ chunk, e' = .input chunk → e = .input chunk) ∧
      ∀ calloc ops, e' = .every10s calloc ops → e.isUart = true ∧ s.uartAt = .every10s := by
  cases e with
  | reboot => exact absurd rfl hboot
  | input chunk => exact .inr ⟨.input chunk, rfl, by simp, by simp, by simp⟩
  | rtcTick rtc => exact .inr ⟨.rtcTick rtc, rfl, by simp, by simp, by simp⟩
  | button reads => exact .inl rfl
  | oled adc =>
    unfold firmwareView moduleEvents
    dsimp only
    repeat' split
    · exact .inr ⟨_, rfl, by simp, by simp, by simp⟩
    · exact .inr ⟨_, rfl, by simp, by simp, by simp⟩
    · exact .inl rfl
  | main adc =>
    unfold firmwareView
    cases hat : s.mainAt with
    | round => exact .inl (by simp only [hat])
    | timeRunning => exact .inr ⟨.timeRunning, by simp only [hat], by simp, by simp, by simp⟩
    | controlProgram =>
      exact .inr ⟨.controlProgram adc, by simp only [hat], by simp, by simp, by simp⟩
    | monitorConnectedState =>
      exact .inr ⟨.monitorConnectedState, by simp only [hat], by simp, by simp, by simp⟩
  | uart alloc ops =>
    unfold firmwareView
    cases hat : s.uartAt with
    | round => exact .inr ⟨.poll alloc, by simp only [hat], by simp, by simp, by simp⟩
    | every10s =>
      exact .inr ⟨.every10s alloc.calloc ops, by simp only [hat], by simp, by simp,
        fun _ _ _ => ⟨rfl, rfl⟩⟩

theorem silent_step {s : Firmware} (h : Tracked s.display m) (hpending : ¬s.module.Pending)
    (hstate : s.module.info.registerState = no) (hg : Silent e s) :
    ¬(firmwareStep e s).module.Pending ∧ (firmwareStep e s).module.info.registerState = no := by
  have hnext := (firmwareStep_tracked e s m h).module
  obtain ⟨flag, hs⟩ : ∃ flag, s.module = m.withLocation flag := h.module
  obtain ⟨hsupplied, hrefused⟩ := hg
  rw [hs] at hpending hstate
  have hm : ¬(run (firmwareView e s) m).Pending ∧
      (run (firmwareView e s) m).info.registerState = no := by
    have hpower : e ≠ .reboot := by
      rintro rfl
      exact hsupplied
    obtain hview | ⟨e', hview, hboot, hinput, -⟩ := firmwareView_single hpower s <;> rw [hview]
    · exact ⟨hpending, hstate⟩
    · refine step_silent hpending hstate hboot fun chunk he' haccepts => ?_
      refine hrefused chunk (hinput chunk he') ?_
      rw [hs]
      exact haccepts
  obtain ⟨flag', hs'⟩ : ∃ flag, (firmwareStep e s).module =
    (run (firmwareView e s) m).withLocation flag := hnext
  rw [hs']
  exact hm

/-- On a bus with nothing for the module nothing waits. -/
theorem silent_not_pending {s : Firmware} (hreach : FirmwareReachable s)
    (hpending : ¬s.module.Pending) (hstate : s.module.info.registerState = no)
    (h : Within firmwareStep Silent events s) :
    Within firmwareStep (fun _ s => ¬s.module.Pending) events s := by
  induction events generalizing s with
  | nil => trivial
  | cons e rest ih =>
    obtain ⟨m, -, htracked⟩ := hreach.tracked
    obtain ⟨hpending', hstate'⟩ := silent_step htracked hpending hstate h.1
    exact ⟨hpending, ih (hreach.step e) hpending' hstate' h.2⟩

theorem onlyRequest_start (flash : List U8) (rtc : Rtc) (uniqueId : Fin 12 → U8) :
    OnlyRequest (generateRegisterData (powerUp flash rtc uniqueId))
      (.start flash rtc uniqueId) :=
  ⟨⟨_, [], ⟨flash, rtc, uniqueId, rfl⟩, rfl⟩, rfl, .inl rfl⟩

/-- From power-up, for as long as nobody answers, every turn of the thread has memory
for a message and the power stays on, a module sends nothing but its request. What it
has sent and what is in the list is at most one request in 502 turns of the thread, and
exactly so many if nothing that is received is for it. The order of the threads' turns
and what is received otherwise are free. -/
theorem unanswered_sends (flash : List U8) (rtc : Rtc) (uniqueId : Fin 12 → U8)
    (events : List FirmwareEvent)
    (h : Within firmwareStep Unanswered events (.start flash rtc uniqueId)) :
    let start := Firmware.start flash rtc uniqueId
    let periods := uartTurns events start / requestPeriod
    ∃ sent, Machine.trace firmwareStep firmwareSends events start =
        List.replicate sent (generateRegisterData start.module) ∧
      sent + (firmwareRun events start).module.sendMsgList.length ≤ periods ∧
      (Within firmwareStep Silent events start →
        sent + (firmwareRun events start).module.sendMsgList.length = periods) := by
  intro start periods
  obtain ⟨sent, hsent, hlast, hspent, hquiet⟩ := (onlyRequest_start flash rtc uniqueId).run h
  have hposition := hlast.reachable.uartTimed.position_lt
  have hperiod : 0 < requestPeriod := Nat.zero_lt_of_lt hposition
  have hzero : turnsSpent (.start flash rtc uniqueId) = 0 := by
    simp [turnsSpent, Firmware.start, Firmware.uartPosition, powerUp]
  rw [hzero, Nat.zero_add, turnsSpent, ← Nat.add_assoc, ← Nat.add_mul] at hspent hquiet
  refine ⟨sent, hsent, ?_, fun hsilent => ?_⟩
  · exact (Nat.le_div_iff_mul_le hperiod).mpr (Nat.le_trans (Nat.le_add_right ..) hspent)
  · have hnothing := silent_not_pending (onlyRequest_start flash rtc uniqueId).reachable
      (fun hwaits => nomatch hwaits) rfl hsilent
    obtain ⟨-, heq⟩ := hquiet hnothing (.inl rfl)
    have hlow := Nat.le_trans (Nat.le_add_right ..) (Nat.le_of_eq heq)
    refine (Nat.div_eq_of_lt_le hlow ?_).symm
    rw [Nat.succ_mul, ← heq]
    exact Nat.add_lt_add_left hposition _

/-- A frame for another address between the turns; two requests in 1010 of them. -/
def aloneBusy : List FirmwareEvent :=
  aloneTurns 505 ++ .input (sealFrame [0x07, 0x03, 0x04, 0x07, 0x00, 0x01]) :: aloneTurns 505

theorem unanswered_sends_alone :
    ∃ sent, Machine.trace firmwareStep firmwareSends aloneBusy
        (.start [] {} fun _ => 0) = List.replicate sent (generateRegisterData firstPower.module) ∧
      sent + (firmwareRun aloneBusy (.start [] {} fun _ => 0)).module.sendMsgList.length = 2 := by
  obtain ⟨sent, hsent, -, hexact⟩ :=
    unanswered_sends [] {} (fun _ => 0) aloneBusy (by decide +kernel)
  exact ⟨sent, hsent, (hexact (by decide +kernel)).trans (by decide +kernel)⟩

end Hvac
