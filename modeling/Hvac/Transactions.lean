import Hvac.MenuEdit
import Hvac.MultiRegister
import Hvac.RegisterFile

/-!
# A master that waits for its answers

A master that sends a module its next request when the last one has been answered
finds a store in it: every read gives what the registers keep of the words that
were written last, in any order of the threads' turns in which nobody edits on the
menu and the module has memory, power and its master.
-/

namespace Hvac

open Machine (Within)

-- ---------------------------------------------------------------------------
-- Requests
-- ---------------------------------------------------------------------------

inductive Request
  | readMuti (reg : U16) (n : U8)
  | writeSingle (reg v : U16)
  | writeMuti (reg : U16) (words : List U16)
  deriving DecidableEq, Repr

def readMutiFrame (addr : U8) (reg : U16) (n : U8) : List U8 :=
  sealFrame ([addr, readMuti] ++ registerBytes reg ++ [0x00, n])

def Request.frame (addr : U8) : Request → List U8
  | .readMuti reg n => readMutiFrame addr reg n
  | .writeSingle reg v => writeSingleFrame addr reg v
  | .writeMuti reg words => writeMutiFrame addr reg words

/-- What is read are settings, and no more of them than a queued answer has room for.
What is written fits a frame. -/
def Request.WellFormed : Request → Prop
  | .readMuti reg n =>
    n.toNat ≤ 7 ∧ ∀ i < n.toNat, (Register.decode (reg + BitVec.ofNat 16 i)).IsSetting
  | .writeSingle _ _ => True
  | .writeMuti _ words => 9 + 2 * words.length ≤ 255

instance decidableWellFormed : (r : Request) → Decidable r.WellFormed
  | .readMuti reg n => inferInstanceAs (Decidable (n.toNat ≤ 7 ∧ ∀ i < n.toNat,
      (Register.decode (reg + BitVec.ofNat 16 i)).IsSetting))
  | .writeSingle _ _ => inferInstanceAs (Decidable True)
  | .writeMuti _ words => inferInstanceAs (Decidable (9 + 2 * words.length ≤ 255))

-- ---------------------------------------------------------------------------
-- The store
-- ---------------------------------------------------------------------------

section
variable {r : Request} {addr : U8} {m m₀ : Module}

/-- What a register keeps of a word. -/
def kept (reg : U16) : U16 → U16 := (Register.decode reg).keeps

/-- What a request makes of the settings. -/
def serve : Request → (U16 → U16) → U16 → U16
  | .readMuti _ _, file => file
  | .writeSingle reg v, file => Store.put kept (reg, v) file
  | .writeMuti reg words, file => Store.putAll kept (registerSequence reg words) file

/-- The answer to a request: the words of the store, or that they are written. -/
def answer (addr : U8) : Request → (U16 → U16) → List U8
  | .readMuti reg n, file => sealFrame ([addr, readMuti, n] ++
      wordBytes ((List.range n.toNat).map fun i => file (reg + BitVec.ofNat 16 i)))
  | .writeSingle reg v, _ => writeSingleFrame addr reg v
  | .writeMuti reg words, _ => sealFrame
      ([addr, writeMuti] ++ registerBytes reg ++ [0x00, BitVec.ofNat 8 words.length])

theorem length_answer (h : r.WellFormed) (addr : U8) (file : U16 → U16) :
    (answer addr r file).length ≤ msgSize := by
  cases r with
  | readMuti reg n =>
    obtain ⟨hseven, -⟩ := h
    simp [answer, msgSize]
    omega
  | writeSingle reg v => simp [answer, writeSingleFrame, registerBytes, msgSize]
  | writeMuti reg words => simp [answer, registerBytes, msgSize]

theorem head_answer (r : Request) (addr : U8) (file : U16 → U16) :
    (answer addr r file).head? = some addr := by
  cases r <;> rfl

-- ---------------------------------------------------------------------------
-- A request is carried out
-- ---------------------------------------------------------------------------

theorem toModule_request (h : r.WellFormed) (haddr : m.info.addr = addr) :
    ToModule (r.frame addr) m := by
  cases r with
  | readMuti reg n =>
    refine ⟨Checksum.sealed_sealFrame, by simp [Request.frame, readMutiFrame, registerBytes],
      by simp [Request.frame, readMutiFrame, registerBytes], .inl haddr.symm, ?_⟩
    rw [show (Request.frame addr (.readMuti reg n)).getD 1 0 = readMuti from rfl]
    decide
  | writeSingle reg v => exact toModule_writeSingle (.inl haddr.symm) reg v
  | writeMuti reg words => exact toModule_writeMuti (.inl haddr.symm) reg h

/-- The words of a read are those of the store. -/
theorem readWords_settings
    (h : ∀ i < n, (Register.decode (reg + BitVec.ofNat 16 i)).IsSetting) (m : Module) :
    readWords reg m n = (List.range n).map fun i => m.settings (reg + BitVec.ofNat 16 i) := by
  refine List.map_congr_left fun i hi => ?_
  exact readValue_setting (h i (List.mem_range.mp hi)) _ m

theorem answerOf_request (h : r.WellFormed) (hzero : addr ≠ 0) (m₀ m : Module) :
    answerOf ⟨true, true⟩ (uart1Input (r.frame addr) m₀).rx.data m =
      some (answer addr r m.settings) := by
  cases r with
  | readMuti reg n =>
    obtain ⟨hseven, hsettings⟩ := h
    let data := (uart1Input (readMutiFrame addr reg n) m₀).rx.data
    have hreg : startReg data = reg := word_bytes reg
    have hcount : regCount data = n := regCount_eq data
    have hlen : (replyLen n).toNat = 2 * n.toNat + 5 := by
      rw [toNat_replyLen]
      omega
    have hfull : (readAnswer addr readMuti reg n m).length ≤ (replyLen n).toNat := by
      rw [length_readAnswer, hlen]
    show answerOf _ data m = _
    have hread : answerOf ⟨true, true⟩ data m =
        some ((readAnswer addr readMuti (startReg data) (regCount data) m).take
          (replyLen (regCount data)).toNat) := rfl
    rw [hread, hreg, hcount, List.take_of_length_le hfull, readAnswer,
      readWords_settings hsettings]
    rfl
  | writeSingle reg v =>
    let data := (uart1Input (writeSingleFrame addr reg v) m₀).rx.data
    have hecho : answerOf ⟨true, true⟩ data m = some (Buffer.window data 8) := if_pos hzero
    have hwindow : Buffer.window data (writeSingleFrame addr reg v).length =
        writeSingleFrame addr reg v := Buffer.window_store ..
    exact hecho.trans (congrArg some hwindow)
  | writeMuti reg words =>
    let data := (uart1Input (writeMutiFrame addr reg words) m₀).rx.data
    have hreg : startReg data = reg := word_bytes reg
    have hcount : regCount data = BitVec.ofNat 8 words.length := regCount_eq data
    have hcmd : data 1 = writeMuti := rfl
    have hack : answerOf ⟨true, true⟩ data m = some (writeAck data) := by
      rw [answerOf, hcmd, if_neg (by decide), if_neg (by decide), if_pos rfl]
      exact if_pos ⟨hzero, rfl⟩
    refine hack.trans (congrArg some ?_)
    rw [writeAck, hreg, hcount]
    rfl

theorem commandWrites_request (h : r.WellFormed) (hcode : addr ≠ registerCode) (m₀ m : Module) :
    (writeRegisters (commandWrites (uart1Input (r.frame addr) m₀).rx.data) m).settings =
      serve r m.settings := by
  have hwrites : frameWrites (uart1Input (r.frame addr) m₀).rx.data =
      commandWrites (uart1Input (r.frame addr) m₀).rx.data := by
    refine if_neg fun hfirst => hcode ?_
    cases r <;> exact hfirst
  rw [← hwrites]
  cases r with
  | readMuti reg n =>
    have hnone : frameWrites (uart1Input (readMutiFrame addr reg n) m₀).rx.data = [] := by
      unfold frameWrites
      split <;> rfl
    show (writeRegisters (frameWrites (uart1Input (readMutiFrame addr reg n) m₀).rx.data)
      m).settings = _
    rw [hnone]
    rfl
  | writeSingle reg v =>
    show (writeRegisters (frameWrites (uart1Input (writeSingleFrame addr reg v) m₀).rx.data)
      m).settings = _
    rw [frameWrites_writeSingle, writesTo, if_neg hcode]
    exact settings_writeRegister reg v m
  | writeMuti reg words =>
    show (writeRegisters (frameWrites (uart1Input (writeMutiFrame addr reg words) m₀).rx.data)
      m).settings = _
    rw [frameWrites_writeMuti addr reg h, writesTo, if_neg hcode]
    exact settings_writeRegisters _ m

/-- A registered module with this address. -/
structure Enrolled (addr : U8) (m : Module) : Prop where
  state : m.info.registerState = yes
  addr : m.info.addr = addr

/-- The poll that finds a request carries it out and queues its answer. -/
theorem poll_request (h : r.WellFormed) (hcode : addr ≠ registerCode) (hzero : addr ≠ 0)
    (henrolled : Enrolled addr m) (haddr : m₀.info.addr = addr)
    (hrx : m.rx = (uart1Input (r.frame addr) m₀).rx) (hlist : m.sendMsgList = []) :
    let m' := uartPoll ⟨true, true⟩ m
    Enrolled addr m' ∧ ¬m'.Pending ∧ m'.settings = serve r m.settings ∧
      m'.sendMsgList = [⟨answer addr r m.settings, length_answer h addr m.settings⟩] := by
  obtain ⟨hstate, hown⟩ := henrolled
  have hto := toModule_request h haddr
  obtain ⟨hok, hpending⟩ := hto.frameOk
  have hwaits : m.Pending := by
    rwa [Module.Pending, hrx]
  have hlen : m.handedLen = (uart1Input (r.frame addr) m₀).handedLen := by
    rw [Module.handedLen, hrx]
    rfl
  have hfirst : (uart1Input (r.frame addr) m₀).rx.data 0 = addr := by
    cases r <;> rfl
  have hd : Dispatches (uart1Input (r.frame addr) m₀).rx.data
      (uart1Input (r.frame addr) m₀).handedLen (uart1CleanRecvFlag m) := by
    refine ⟨hok, by rwa [hfirst], ?_, .inl (hfirst.trans hown.symm)⟩
    show m.info.registerState ≠ no
    rw [hstate]
    decide
  have hanswer := answerOf_request h hzero m₀ (uart1CleanRecvFlag m)
  have hqueued := modbusCommandAnalysis_queued hanswer (length_answer h addr m.settings) hlist
  have hkept := modbusCommandAnalysis_kept ⟨true, true⟩ (uart1Input (r.frame addr) m₀).rx.data
    (uart1CleanRecvFlag m)
  have hwrites := modbusCommandAnalysis_writes ⟨true, true⟩
    (uart1Input (r.frame addr) m₀).rx.data (uart1CleanRecvFlag m)
  intro m'
  have hm' : m' = setLastConnectTime (modbusCommandAnalysis ⟨true, true⟩
      (uart1Input (r.frame addr) m₀).rx.data (uart1CleanRecvFlag m)).module := by
    rw [show m' = uartPoll ⟨true, true⟩ m from rfl, uartPoll_pending hwaits, hrx, hlen,
      uart1Analysis_dispatch hd]
  rw [hm']
  refine ⟨⟨hkept.registerState.trans hstate, hkept.addr.trans hown⟩, ?_, ?_, hqueued⟩
  · intro hagain
    have hflag := congrArg RxMsg.messageFlag hkept.rx
    exact absurd (show yes = no from hagain.symm.trans hflag) (by decide)
  · have hinfo := congrArg Prod.fst hwrites
    funext reg
    show TypeInfo.setting (modbusCommandAnalysis ⟨true, true⟩ _ _).module.info _ = _
    rw [show (modbusCommandAnalysis ⟨true, true⟩ (uart1Input (r.frame addr) m₀).rx.data
      (uart1CleanRecvFlag m)).module.info = _ from hinfo]
    exact congrFun (commandWrites_request h hcode m₀ (uart1CleanRecvFlag m)) reg

end

-- ---------------------------------------------------------------------------
-- The other steps
-- ---------------------------------------------------------------------------

theorem settingField_shown (add sub : SettingPass → SettingPass) (s : SettingPass)
    (h : s.page.changeValue = no) : settingField cusor add sub s = s := by
  refine if_neg fun hedits => ?_
  rw [h] at hedits
  exact absurd hedits.2 (by decide)

theorem settingRow_shown (i : Int) (s : SettingPass) (h : s.page.changeValue = no) :
    settingRow i s = s := by
  unfold settingRow
  split <;> simp only [settingField_shown, h]

/-- A page that is only shown changes no setting. -/
theorem settingPage_shown (h : page.changeValue = no) (m : Module) :
    (settingPage page m).2.info = m.info := by
  have hrows (rows : List Int) (s : SettingPass) (hs : s.page.changeValue = no) :
      rows.foldl (fun s i => settingRow i s) s = s := by
    induction rows with
    | nil => rfl
    | cons i rest ih =>
      rw [List.foldl_cons, settingRow_shown i s hs]
      exact ih
  exact congrArg (fun pass : SettingPass => pass.module.info) (hrows _ (startPass page m) h)

/-- What the master relies on: nobody edits on the menu, the power stays on, there is
memory, and the module has not been left alone for too long. -/
def Calm : Event → Module → Prop
  | .poll alloc, _ => alloc = ⟨true, true⟩
  | .settingPage page, _ => page.changeValue = no
  | .monitorConnectedState, m => ¬m.Lost
  | .reboot, _ => False
  | _, _ => True

instance decidableCalm : (e : Event) → (m : Module) → Decidable (Calm e m)
  | .poll alloc, _ => inferInstanceAs (Decidable (alloc = ⟨true, true⟩))
  | .settingPage page, _ => inferInstanceAs (Decidable (page.changeValue = no))
  | .monitorConnectedState, m => inferInstanceAs (Decidable ¬m.Lost)
  | .reboot, _ => inferInstanceAs (Decidable False)
  | .input _, _ | .every10s _ _, _ | .timeRunning, _ | .controlProgram _, _ | .homePage _, _
  | .rtcTick _, _ => inferInstanceAs (Decidable True)

/-- The steps between a request and its answer keep all that the two depend on. -/
structure Steady (m m' : Module) : Prop where
  rx : m'.rx = m.rx
  sendMsgList : m'.sendMsgList = m.sendMsgList
  settings : m'.settings = m.settings
  registerState : m'.info.registerState = m.info.registerState
  addr : m'.info.addr = m.info.addr

theorem step_steady (hcalm : Calm e m) (hstate : m.info.registerState = yes)
    (hinput : ∀ chunk, e ≠ .input chunk) (hpoll : ∀ alloc, e ≠ .poll alloc) :
    Steady m (step e m) := by
  cases e with
  | input chunk => exact absurd rfl (hinput chunk)
  | poll alloc => exact absurd rfl (hpoll alloc)
  | reboot => exact hcalm.elim
  | timeRunning => exact ⟨rfl, rfl, rfl, rfl, rfl⟩
  | homePage adc => exact ⟨rfl, rfl, rfl, rfl, rfl⟩
  | rtcTick rtc => exact ⟨rfl, rfl, rfl, rfl, rfl⟩
  | monitorConnectedState =>
    have hconnected : step .monitorConnectedState m = { m with info.connected := yes } :=
      if_neg hcalm
    rw [hconnected]
    refine ⟨rfl, rfl, funext fun reg => ?_, rfl, rfl⟩
    unfold Module.settings TypeInfo.setting
    cases Register.decode reg <;> rfl
  | controlProgram adc =>
    obtain ⟨coolOrHeat, control, relays, ntcList, hm⟩ := controlProgram_thermostatOnly adc m
    rw [step, hm]
    refine ⟨rfl, rfl, funext fun reg => ?_, rfl, rfl⟩
    unfold Module.settings TypeInfo.setting
    cases Register.decode reg <;> rfl
  | settingPage page =>
    have hinfo := settingPage_shown hcalm m
    have hlist := (step_unpolled (e := .settingPage page) (m := m) (by simp) (by simp)).sendMsgList
      (by simp)
    refine ⟨(settingPage_menuOnly page m).bystander.rx, hlist, ?_, congrArg TypeInfo.registerState
      hinfo, congrArg TypeInfo.addr hinfo⟩
    funext reg
    exact congrArg (fun info : TypeInfo => info.setting (Register.decode reg)) hinfo
  | every10s calloc ops =>
    have hasks : uartEvery10s calloc ops m = saveGlobalInfo ops m := by
      unfold uartEvery10s
      rw [hstate]
      rfl
    rw [step, hasks, saveGlobalInfo]
    dsimp only
    split
    · refine ⟨rfl, rfl, funext fun reg => ?_, rfl, rfl⟩
      unfold Module.settings TypeInfo.setting
      cases Register.decode reg <;> rfl
    · exact ⟨rfl, rfl, rfl, rfl, rfl⟩

-- ---------------------------------------------------------------------------
-- Master and module
-- ---------------------------------------------------------------------------

/-- A module, and whether the master waits for its answer. -/
structure Exchange where
  module : Module
  waiting : Bool

inductive MasterEvent
  | request (r : Request)
  -- a step of the module, or something else on the bus
  | other (e : Event)

def exchangeStep (addr : U8) : MasterEvent → Exchange → Exchange
  | .request r, s => { module := step (.input (r.frame addr)) s.module, waiting := true }
  | .other e, s =>
    { module := step e s.module, waiting := s.waiting && (sends e s.module).isNone }

def exchangeSends : MasterEvent → Exchange → Option (List U8)
  | .request _, _ => none
  | .other e, s => sends e s.module

/-- The master does not speak while it waits, and nothing else that it sends is for
this module. -/
def Waits : MasterEvent → Exchange → Prop
  | .request r, s => s.waiting = false ∧ r.WellFormed
  | .other (.input chunk), s => s.waiting = false ∧ ¬Accepts s.module chunk
  | .other e, s => Calm e s.module

instance decidableWaits : (e : MasterEvent) → (s : Exchange) → Decidable (Waits e s)
  | .request r, s => inferInstanceAs (Decidable (s.waiting = false ∧ r.WellFormed))
  | .other (.input chunk), s =>
    inferInstanceAs (Decidable (s.waiting = false ∧ ¬Accepts s.module chunk))
  | .other (.poll alloc), s => decidableCalm (.poll alloc) s.module
  | .other (.every10s calloc ops), s => decidableCalm (.every10s calloc ops) s.module
  | .other .timeRunning, s => decidableCalm .timeRunning s.module
  | .other (.controlProgram adc), s => decidableCalm (.controlProgram adc) s.module
  | .other .monitorConnectedState, s => decidableCalm .monitorConnectedState s.module
  | .other (.homePage adc), s => decidableCalm (.homePage adc) s.module
  | .other (.settingPage page), s => decidableCalm (.settingPage page) s.module
  | .other (.rtcTick rtc), s => decidableCalm (.rtcTick rtc) s.module
  | .other .reboot, s => decidableCalm .reboot s.module

def MasterEvent.request? : MasterEvent → Option Request
  | .request r => some r
  | .other _ => none

/-- Where a request is, with the settings the requests so far leave and the answers
the master has still to get. -/
inductive Serving (addr : U8) : Exchange → (U16 → U16) → List (List U8) → Prop
  | idle {m : Module} (hpending : ¬m.Pending) (hlist : m.sendMsgList = []) :
    Serving addr ⟨m, false⟩ m.settings []
  | asked {r : Request} {m m₀ : Module} (hwell : r.WellFormed) (haddr : m₀.info.addr = addr)
      (hrx : m.rx = (uart1Input (r.frame addr) m₀).rx) (hlist : m.sendMsgList = []) :
    Serving addr ⟨m, true⟩ (serve r m.settings) [answer addr r m.settings]
  | answered {m : Module} {msg : Msg} (hpending : ¬m.Pending) (hlist : m.sendMsgList = [msg])
      (hhead : msg.body.head? = some addr) :
    Serving addr ⟨m, true⟩ m.settings [msg.body]

theorem Serving.steady (h : Serving addr ⟨m, waiting⟩ file held) (hsteady : Steady m m') :
    Serving addr ⟨m', waiting⟩ file held := by
  obtain ⟨hrx, hlist, hsettings, -, -⟩ := hsteady
  have hflag (hpending : ¬m.Pending) : ¬m'.Pending := by rwa [Module.Pending, hrx]
  cases h with
  | idle hpending hempty =>
    rw [← hsettings]
    exact .idle (hflag hpending) (hlist.trans hempty)
  | asked hwell haddr hholds hempty =>
    rw [← hsettings]
    exact .asked hwell haddr (hrx.trans hholds) (hlist.trans hempty)
  | answered hpending hone hhead =>
    rw [← hsettings]
    exact .answered (hflag hpending) (hlist.trans hone) hhead

section
variable {addr : U8} (hcode : addr ≠ registerCode) (hzero : addr ≠ 0)

/-- Both the module and the master are where a request or its answer is. -/
def Underway (addr : U8) (s : Exchange) (file : U16 → U16) (held : List (List U8)) : Prop :=
  Enrolled addr s.module ∧ Serving addr s file held

include hcode hzero in
theorem Serving.poll (h : Serving addr s file held) (henrolled : Enrolled addr s.module) :
    ∃ held', Underway addr (exchangeStep addr (.other (.poll ⟨true, true⟩)) s) file held' ∧
      held = (exchangeSends (.other (.poll ⟨true, true⟩)) s).toList ++ held' := by
  cases h with
  | @idle m hpending hlist =>
    have hnone : sends (.poll ⟨true, true⟩) m = none := by
      rw [sends, if_neg hpending, hlist]
      rfl
    have hm : step (.poll ⟨true, true⟩) m = m := by
      rw [step, uartPoll_idle hpending, hlist, show (sendMsgHandle []).1 = [] from rfl, ← hlist]
    refine ⟨[], ?_, by rw [exchangeSends, hnone]; rfl⟩
    simp only [exchangeStep, hm, Bool.false_and]
    exact ⟨henrolled, .idle hpending hlist⟩
  | @asked r m m₀ hwell haddr hrx hlist =>
    have hpending : m.Pending := by
      rw [Module.Pending, hrx]
      exact (toModule_request hwell haddr).frameOk.2
    have hnone : sends (.poll ⟨true, true⟩) m = none := if_pos hpending
    obtain ⟨hnext, hdone, hsettings, hqueued⟩ :=
      poll_request hwell hcode hzero henrolled haddr hrx hlist
    refine ⟨[answer addr r m.settings], ?_, by rw [exchangeSends, hnone]; rfl⟩
    simp only [exchangeStep, hnone, Option.isNone_none, Bool.and_true]
    rw [← hsettings]
    exact ⟨hnext, .answered hdone hqueued (head_answer r addr m.settings)⟩
  | @answered m msg hpending hlist hhead =>
    have hlen : msg.len ≠ 0 := by
      intro hlen
      rw [List.length_eq_zero_iff.mp hlen] at hhead
      cases hhead
    have hsent : sends (.poll ⟨true, true⟩) m = some msg.body := by
      rw [sends, if_neg hpending, hlist, sendMsgHandle_cons hlen]
    have hm : step (.poll ⟨true, true⟩) m = { m with sendMsgList := [] } := by
      rw [step, uartPoll_idle hpending, hlist, sendMsgHandle_cons hlen]
    refine ⟨[], ?_, by rw [exchangeSends, hsent]; rfl⟩
    simp only [exchangeStep, hsent, hm, Option.isNone_some, Bool.and_false]
    exact ⟨⟨henrolled.1, henrolled.2⟩,
      Serving.idle (m := { m with sendMsgList := [] }) hpending rfl⟩

/-- A step that is no poll sends nothing. -/
theorem sends_unpolled (hpoll : ∀ alloc, e ≠ .poll alloc) (m : Module) : sends e m = none := by
  cases e with
  | poll alloc => exact absurd rfl (hpoll alloc)
  | _ => rfl

include hcode hzero in
theorem Underway.step (h : Underway addr s file held) (hg : Waits e s) : ∃ held',
    Underway addr (exchangeStep addr e s) (Machine.run serve e.request?.toList file) held' ∧
      held ++ Machine.trace serve (fun r file => some (answer addr r file)) e.request?.toList file =
        (exchangeSends e s).toList ++ held' := by
  obtain ⟨henrolled, hserving⟩ := h
  cases e with
  | request r =>
    obtain ⟨hfree, hwell⟩ := hg
    cases hserving with
    | @idle m hpending hlist =>
      exact ⟨_, ⟨⟨henrolled.1, henrolled.2⟩, .asked (m := uart1Input (r.frame addr) m) hwell
        henrolled.2 rfl hlist⟩, rfl⟩
    | asked _ _ _ _ => cases hfree
    | answered _ _ _ => cases hfree
  | other e =>
    have hnone (held : List (List U8)) : held ++ Machine.trace serve
        (fun r file => some (answer addr r file)) (MasterEvent.other e).request?.toList file =
          held := List.append_nil held
    rw [hnone]
    by_cases hinput : ∃ chunk, e = .input chunk
    · obtain ⟨chunk, rfl⟩ := hinput
      obtain ⟨hfree, hrefused⟩ := hg
      cases hserving with
      | @idle m hpending hlist =>
        have hquiet : ¬(uart1Input chunk m).Pending := by
          rw [Module.Pending, uart1Input, if_neg hrefused]
          exact hpending
        exact ⟨[], ⟨⟨henrolled.1, henrolled.2⟩, .idle (m := uart1Input chunk m) hquiet hlist⟩, rfl⟩
      | asked _ _ _ _ => cases hfree
      | answered _ _ _ => cases hfree
    by_cases hpoll : ∃ alloc, e = .poll alloc
    · obtain ⟨alloc, rfl⟩ := hpoll
      obtain rfl : alloc = ⟨true, true⟩ := hg
      exact hserving.poll hcode hzero henrolled
    · have hcalm : Calm e s.module := by
        cases e with
        | input chunk => exact absurd ⟨chunk, rfl⟩ hinput
        | _ => exact hg
      have hsteady := step_steady hcalm henrolled.state (fun chunk he => hinput ⟨chunk, he⟩)
        fun alloc he => hpoll ⟨alloc, he⟩
      have hsends := sends_unpolled (fun alloc he => hpoll ⟨alloc, he⟩) s.module
      refine ⟨held, ⟨⟨hsteady.registerState.trans henrolled.1, hsteady.addr.trans henrolled.2⟩, ?_⟩,
        by rw [exchangeSends, hsends]; rfl⟩
      simp only [exchangeStep, hsends, Option.isNone_none, Bool.and_true]
      exact hserving.steady hsteady

end

-- ---------------------------------------------------------------------------
-- Several modules on a line
-- ---------------------------------------------------------------------------

variable {ι : Type*} [DecidableEq ι]

/-- The modules, and the one whose answer the master waits for. -/
structure Line (ι : Type*) where
  modules : ι → Module
  waiting : Option ι

inductive LineEvent (ι : Type*)
  | request (i : ι) (r : Request)
  | other (i : ι) (e : Event)

/-- What the master or a module sends all modules hear, but for the sender. -/
def lineStep (addr : ι → U8) : LineEvent ι → Line ι → Line ι
  | .request i r, s =>
    { modules := fun j => step (.input (r.frame (addr i))) (s.modules j), waiting := some i }
  | .other i e, s =>
    { modules := fun j =>
        if j = i then step e (s.modules i)
        else match sends e (s.modules i) with
          | some body => step (.input body) (s.modules j)
          | none => s.modules j
      waiting := if s.waiting = some i ∧ (sends e (s.modules i)).isSome then none else s.waiting }

def lineSends : LineEvent ι → Line ι → Option (ι × List U8)
  | .request _ _, _ => none
  | .other i e, s => (sends e (s.modules i)).map fun body => (i, body)

/-- The master asks one module at a time, and what else is on the line is for nobody. -/
def OneAtATime : LineEvent ι → Line ι → Prop
  | .request _ r, s => s.waiting = none ∧ r.WellFormed
  | .other i (.input chunk), s => s.waiting ≠ some i ∧ ¬Accepts (s.modules i) chunk
  | .other i e, s => Calm e (s.modules i)

instance decidableOneAtATime : (e : LineEvent ι) → (s : Line ι) → Decidable (OneAtATime e s)
  | .request _ r, s => inferInstanceAs (Decidable (s.waiting = none ∧ r.WellFormed))
  | .other i (.input chunk), s =>
    inferInstanceAs (Decidable (s.waiting ≠ some i ∧ ¬Accepts (s.modules i) chunk))
  | .other i (.poll alloc), s => decidableCalm (.poll alloc) (s.modules i)
  | .other i (.every10s calloc ops), s => decidableCalm (.every10s calloc ops) (s.modules i)
  | .other i .timeRunning, s => decidableCalm .timeRunning (s.modules i)
  | .other i (.controlProgram adc), s => decidableCalm (.controlProgram adc) (s.modules i)
  | .other i .monitorConnectedState, s => decidableCalm .monitorConnectedState (s.modules i)
  | .other i (.homePage adc), s => decidableCalm (.homePage adc) (s.modules i)
  | .other i (.settingPage page), s => decidableCalm (.settingPage page) (s.modules i)
  | .other i (.rtcTick rtc), s => decidableCalm (.rtcTick rtc) (s.modules i)
  | .other i .reboot, s => decidableCalm .reboot (s.modules i)

/-- What a request makes of the settings of all modules: a store for each of them. -/
def serveOne (request : ι × Request) (files : ι → U16 → U16) : ι → U16 → U16 :=
  Function.update files request.1 (serve request.2 (files request.1))

def answerOne (addr : ι → U8) (request : ι × Request) (files : ι → U16 → U16) :
    Option (ι × List U8) :=
  some (request.1, answer (addr request.1) request.2 (files request.1))

def LineEvent.request? : LineEvent ι → Option (ι × Request)
  | .request i r => some (i, r)
  | .other _ _ => none

/-- The requests of a run, in their order. -/
def requestsOf (events : List (LineEvent ι)) : List (ι × Request) :=
  events.filterMap LineEvent.request?

theorem expand_request (addr : ι → U8) (events : List (LineEvent ι)) (s : Line ι) :
    Machine.expand (lineStep addr) (fun e _ => e.request?.toList) events s =
      requestsOf events := by
  induction events generalizing s with
  | nil => rfl
  | cons e rest ih =>
    rw [Machine.expand, ih]
    cases e <;> rfl

/-- A frame with the address of another module, or an answer of that one, is not accepted. -/
theorem not_accepts_other {frame : List U8} (hhead : frame.head? = some other)
    (haddr : m.info.addr = addr) (hother : other ≠ addr) (hcode : other ≠ registerCode)
    (hzero : other ≠ 0) : ¬Accepts m frame := by
  rintro ⟨-, -, hfirst⟩
  have hdata : Buffer.store frame m.rx.data 0 = other := by
    cases frame with
    | nil => cases hhead
    | cons byte rest => exact Option.some.inj hhead
  rw [hdata, haddr] at hfirst
  obtain h | h | h := hfirst
  · exact hcode h
  · exact hzero h
  · exact hother h

theorem head_frame (r : Request) (addr : U8) : (r.frame addr).head? = some addr := by
  cases r <;> rfl

/-- What is sent is the answer that was waited for. -/
theorem Underway.sends (h : Underway addr ⟨m, waiting⟩ file held)
    (hsends : Hvac.sends e m = some body) : waiting = true ∧ body.head? = some addr := by
  obtain ⟨-, hserving⟩ := h
  obtain ⟨msg, hmsg, hbody⟩ := sends_eq_some hsends
  cases hserving with
  | idle _ hlist =>
    rw [hlist] at hmsg
    cases hmsg
  | asked _ _ _ hlist =>
    rw [hlist] at hmsg
    cases hmsg
  | answered _ hlist hhead =>
    rw [hlist, List.mem_singleton] at hmsg
    rw [← hbody, hmsg]
    exact ⟨rfl, hhead⟩

/-- A master that does not wait has all its answers. -/
theorem Underway.free (h : Underway addr ⟨m, false⟩ file held) : held = [] := by
  obtain ⟨-, hserving⟩ := h
  cases hserving with
  | idle _ _ => rfl

theorem Underway.settings (h : Underway addr ⟨m, false⟩ file held) : m.settings = file := by
  obtain ⟨-, hserving⟩ := h
  cases hserving with
  | idle _ _ => rfl

theorem Underway.waited (h : Underway addr ⟨m, true⟩ file held) : ∃ body, held = [body] := by
  obtain ⟨-, hserving⟩ := h
  cases hserving with
  | asked _ _ _ _ => exact ⟨_, rfl⟩
  | answered _ _ _ => exact ⟨_, rfl⟩

/-- What is on the line for others leaves a module that is not asked as it is. -/
theorem Underway.overhears {addr : U8} (hcode : addr ≠ registerCode) (hzero : addr ≠ 0)
    (h : Underway addr ⟨m, false⟩ file held) (hrefused : ¬Accepts m frame) :
    Underway addr ⟨Hvac.step (.input frame) m, false⟩ file held := by
  obtain ⟨held', hnext, heq⟩ := h.step (e := .other (.input frame)) hcode hzero ⟨rfl, hrefused⟩
  have hsame : held = held' := by simpa [MasterEvent.request?, exchangeSends, Hvac.sends] using heq
  rw [hsame]
  exact hnext

/-- The addresses the modules are registered under. -/
structure Addresses (addr : ι → U8) : Prop where
  distinct : Function.Injective addr
  code : ∀ i, addr i ≠ registerCode
  zero : ∀ i, addr i ≠ 0

/-- Every module is where its request or its answer is, and the master has still to get
what it waits for. -/
def LineUnderway (addr : ι → U8) (s : Line ι) (files : ι → U16 → U16)
    (held : List (ι × List U8)) : Prop :=
  ∃ heldOf : ι → List (List U8),
    (∀ j, Underway (addr j) ⟨s.modules j, decide (s.waiting = some j)⟩ (files j) (heldOf j)) ∧
      held = s.waiting.elim [] fun i => (heldOf i).map fun body => (i, body)

section
variable {addr : ι → U8} {s : Line ι} {files : ι → U16 → U16} {held : List (ι × List U8)}

theorem LineUnderway.request (haddr : Addresses addr) (h : LineUnderway addr s files held)
    (hfree : s.waiting = none) (hwell : r.WellFormed) (i : ι) :
    LineUnderway addr (lineStep addr (.request i r) s) (serveOne (i, r) files)
        [(i, answer (addr i) r (files i))] ∧ held = [] := by
  obtain ⟨heldOf, hall, rfl⟩ := h
  have hnone (j : ι) : Underway (addr j) ⟨s.modules j, false⟩ (files j) (heldOf j) := by
    simpa [hfree] using hall j
  refine ⟨⟨Function.update heldOf i [answer (addr i) r (files i)], fun j => ?_, by simp [lineStep]⟩,
    by rw [hfree]; rfl⟩
  by_cases hj : j = i
  · subst hj
    obtain ⟨held', hnext, heq⟩ :=
      (hnone j).step (e := .request r) (haddr.code j) (haddr.zero j) ⟨rfl, hwell⟩
    have hheld : held' = [answer (addr j) r (files j)] := by
      simpa [MasterEvent.request?, exchangeSends, (hnone j).free] using heq.symm
    have hasked : Underway (addr j) ⟨step (.input (r.frame (addr j))) (s.modules j), true⟩
        (serve r (files j)) [answer (addr j) r (files j)] := hheld ▸ hnext
    simpa [lineStep, serveOne] using hasked
  · have hrefused : ¬Accepts (s.modules j) (r.frame (addr i)) :=
      not_accepts_other (head_frame r (addr i)) (hnone j).1.addr
        (fun heq => hj (haddr.distinct heq).symm) (haddr.code i) (haddr.zero i)
    have hwaiting : ¬i = j := fun heq => hj heq.symm
    have hnext := (hnone j).overhears (haddr.code j) (haddr.zero j) hrefused
    simpa [lineStep, serveOne, hj, hwaiting] using hnext

theorem LineUnderway.other (haddr : Addresses addr) (h : LineUnderway addr s files held)
    (hg : OneAtATime (.other i e) s) : ∃ held',
      LineUnderway addr (lineStep addr (.other i e) s) files held' ∧
        held = (lineSends (.other i e) s).toList ++ held' := by
  obtain ⟨heldOf, hall, rfl⟩ := h
  have hwaits : Waits (.other e) ⟨s.modules i, decide (s.waiting = some i)⟩ := by
    cases e with
    | input chunk => exact ⟨decide_eq_false hg.1, hg.2⟩
    | _ => exact hg
  obtain ⟨heldi, hnext, heq⟩ :=
    (hall i).step (e := .other e) (haddr.code i) (haddr.zero i) hwaits
  replace hnext : Underway (addr i) ⟨step e (s.modules i),
    decide (s.waiting = some i) && (sends e (s.modules i)).isNone⟩ (files i) heldi := hnext
  replace heq : heldOf i = (sends e (s.modules i)).toList ++ heldi := by
    simpa [MasterEvent.request?, exchangeSends] using heq
  cases hsends : sends e (s.modules i) with
  | none =>
    have hsame : heldOf i = heldi := by simpa [hsends] using heq
    refine ⟨_, ⟨heldOf, fun j => ?_, rfl⟩, by simp [lineSends, lineStep, hsends]⟩
    by_cases hj : j = i
    · subst hj
      rw [← hsame] at hnext
      simpa [lineStep, hsends] using hnext
    · simpa [lineStep, hj, hsends] using hall j
  | some body =>
    obtain ⟨hwaiting, hhead⟩ := (hall i).sends hsends
    have hi : s.waiting = some i := of_decide_eq_true hwaiting
    replace hnext : Underway (addr i) ⟨step e (s.modules i), false⟩ (files i) heldi := by
      simpa [hsends] using hnext
    have hlast := hnext.free
    rw [hsends, hlast] at heq
    refine ⟨[], ⟨Function.update heldOf i [], fun j => ?_, by simp [lineStep, hi, hsends]⟩, ?_⟩
    · by_cases hj : j = i
      · subst hj
        rw [hlast] at hnext
        simpa [lineStep, hi, hsends] using hnext
      · have hne : ¬i = j := fun heq => hj heq.symm
        have hother : Underway (addr j) ⟨s.modules j, false⟩ (files j) (heldOf j) := by
          simpa [hi, hne] using hall j
        have hrefused : ¬Accepts (s.modules j) body :=
          not_accepts_other hhead hother.1.addr (fun heq => hj (haddr.distinct heq).symm)
            (haddr.code i) (haddr.zero i)
        have hheard := hother.overhears (haddr.code j) (haddr.zero j) hrefused
        simpa [lineStep, hi, hsends, hj] using hheard
    · simp [hi, heq, lineSends, hsends]

theorem LineUnderway.step (haddr : Addresses addr) (h : LineUnderway addr s files held)
    (hg : OneAtATime e s) : ∃ held',
      LineUnderway addr (lineStep addr e s) (Machine.run serveOne e.request?.toList files) held' ∧
        held ++ Machine.trace serveOne (answerOne addr) e.request?.toList files =
          (lineSends e s).toList ++ held' := by
  cases e with
  | request i r =>
    obtain ⟨hnext, rfl⟩ := h.request haddr hg.1 hg.2 i
    exact ⟨_, hnext, rfl⟩
  | other i e =>
    obtain ⟨held', hnext, heq⟩ := h.other haddr hg
    exact ⟨held', hnext, (List.append_nil held).trans heq⟩

end

/-- A master asks modules registered under addresses of their own, one at a time and for at
most seven registers, and waits for every answer. In any interleaving of the modules'
threads in which no edit is made on a menu, the memory does not run out, no
`MonitorConnectedState` finds the master lost and the power stays on, it finds a store in
each of them: the answers are those of the stores, one for each request and in their
order, but for the one that is still to come. -/
theorem master_finds_stores (addr : ι → U8) (modules : ι → Module)
    (events : List (LineEvent ι)) (haddr : Addresses addr)
    (henrolled : ∀ i, Enrolled (addr i) (modules i)) (hpending : ∀ i, ¬(modules i).Pending)
    (hlist : ∀ i, (modules i).sendMsgList = [])
    (h : Within (lineStep addr) OneAtATime events ⟨modules, none⟩) :
    let files := fun i => (modules i).settings
    let answers := Machine.trace serveOne (answerOne addr) (requestsOf events) files
    let last := Machine.run (lineStep addr) events ⟨modules, none⟩
    Machine.trace (lineStep addr) lineSends events ⟨modules, none⟩ =
        (if last.waiting = none then answers else answers.dropLast) ∧
      (last.waiting = none → ∀ i, (last.modules i).settings =
        Machine.run serveOne (requestsOf events) files i) := by
  intro files answers last
  have hstart : LineUnderway addr ⟨modules, none⟩ files [] :=
    ⟨fun _ => [], fun j => ⟨henrolled j, .idle (hpending j) (hlist j)⟩, rfl⟩
  have hrun := Machine.Within.trace_expand_held (fun e _ => e.request?.toList) (LineUnderway addr)
    h (fun e s file held hg hunderway => hunderway.step haddr hg) hstart
  rw [expand_request] at hrun
  obtain ⟨held, ⟨heldOf, hall, rfl⟩, htrace⟩ := hrun
  rw [List.nil_append] at htrace
  change answers = _ at htrace
  change ∀ j, Underway _ ⟨last.modules j, decide (last.waiting = some j)⟩ _ _ at hall
  change answers = _ ++ last.waiting.elim _ _ at htrace
  cases hwaiting : last.waiting with
  | none =>
    simp only [hwaiting, Option.elim_none, List.append_nil] at htrace
    refine ⟨by rw [htrace, if_pos rfl], fun _ i => ?_⟩
    have hi : Underway (addr i) ⟨last.modules i, false⟩
        (Machine.run serveOne (requestsOf events) files i) (heldOf i) := by
      simpa [hwaiting] using hall i
    exact hi.settings
  | some i =>
    have hi : Underway (addr i) ⟨last.modules i, true⟩
        (Machine.run serveOne (requestsOf events) files i) (heldOf i) := by
      simpa [hwaiting] using hall i
    obtain ⟨body, hheld⟩ := hi.waited
    simp only [hwaiting, Option.elim_some, hheld, List.map_cons, List.map_nil] at htrace
    exact ⟨by rw [htrace, if_neg (by simp), List.dropLast_concat], fun hnone => by cases hnone⟩

/-- Two modules under the addresses one and two. -/
def pairAddress (i : Bool) : U8 := if i then 2 else 1

def pair (i : Bool) : Module :=
  { run registered blank with info.addr := pairAddress i }

/-- The day's set point is written in one of them and read from both. -/
def writtenAndRead : List (LineEvent Bool) :=
  [.other false .timeRunning, .request false (.writeSingle 0x0407 240),
    .other false (.poll ⟨true, true⟩), .other true .timeRunning,
    .other false .monitorConnectedState, .other true (.input [0x02, 0x03]),
    .other false (.poll ⟨true, true⟩), .request true (.readMuti 0x0407 2),
    .other true (.poll ⟨true, true⟩), .other false .timeRunning,
    .other true (.poll ⟨true, true⟩), .request false (.readMuti 0x0407 1),
    .other false (.poll ⟨true, true⟩)]

theorem pairAddress_addresses : Addresses pairAddress where
  distinct := fun i j h => by
    cases i <;> cases j <;> first | rfl | exact absurd h (by decide)
  code := by decide
  zero := by decide

theorem master_finds_stores_pair :
    let files := fun i => (pair i).settings
    let answers := Machine.trace serveOne (answerOne pairAddress) (requestsOf writtenAndRead) files
    let last := Machine.run (lineStep pairAddress) writtenAndRead ⟨pair, none⟩
    Machine.trace (lineStep pairAddress) lineSends writtenAndRead ⟨pair, none⟩ =
        (if last.waiting = none then answers else answers.dropLast) ∧
      (last.waiting = none → ∀ i, (last.modules i).settings =
        Machine.run serveOne (requestsOf writtenAndRead) files i) :=
  master_finds_stores pairAddress pair writtenAndRead pairAddress_addresses
    (by intro i; cases i <;> exact ⟨by decide +kernel, rfl⟩) (by decide +kernel)
    (by decide +kernel) (by decide +kernel)

end Hvac
