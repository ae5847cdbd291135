import Hvac.Bus

/-!
# Addresses

Modules start with whatever address their flash holds, the same for all of them
maybe. A module carries out no command before an answer of the master that names
its id, so a command to one address is carried out by the module the master gave
that address (`unicast_executed_once`).
-/

namespace Hvac

open Machine (Within)

variable {ι : Type}

/-- The addresses a master gives out: one for an id, and none twice. -/
structure Plan where
  assign : U32 → Option U8
  inj : ∀ {id id' addr}, assign id = some addr → assign id' = some addr → id = id'
  unicast : ∀ {id addr}, assign id = some addr → addr ≠ 0x00 ∧ addr ≠ registerCode

def AnswerLike (bytes : List U8) : Prop :=
  bytes.getD 0 0 = registerCode ∧ bytes.getD 1 0 = registerAnser

instance (bytes : List U8) : Decidable (AnswerLike bytes) := inferInstanceAs (Decidable (_ ∧ _))

def Plan.Follows (plan : Plan) (bytes : List U8) : Prop :=
  AnswerLike bytes → 10 ≤ bytes.length ∧
    plan.assign (readId fun i => bytes.getD i 0) = some (bytes.getD 7 0)

instance (plan : Plan) (bytes : List U8) : Decidable (plan.Follows bytes) :=
  inferInstanceAs (Decidable (_ → _))

/-- The master says what it likes, as long as its answers follow the plan. -/
def Plan.rules (plan : Plan) : Medium.Rules ι (Party ι) Doing (Frame ι) where
  speaks frame := frame.origin = .master ∧ plan.Follows frame.bytes
  acts _ doing _ := doing.Allowed

instance [DecidableEq ι] (plan : Plan) (frame : Frame ι) :
    Decidable ((plan.rules : Medium.Rules ι _ _ _).speaks frame) :=
  inferInstanceAs (Decidable (_ ∧ _))

instance (plan : Plan) (i : ι) (doing : Doing) (p : Party ι) :
    Decidable ((plan.rules : Medium.Rules ι _ _ _).acts i doing p) :=
  inferInstanceAs (Decidable doing.Allowed)

def Plan.SlotOk (plan : Plan) (m : Module) : Prop :=
  FrameOk m.rx.data m.handedLen → m.rx.data 0 = registerCode → m.rx.data 1 = registerAnser →
    plan.assign (readId m.rx.data) = some (m.rx.data 7)

/-- What is true of each party at any time: a registered module has the address its
id was given, since an answer it took. -/
structure Settled (plan : Plan) (ids : ι → U32) (i : ι) (p : Party ι) : Prop where
  identity : p.module.id = ids i
  addressed : p.module.info.registerState ≠ no → plan.assign p.module.id = some p.module.info.addr
  enrolled : p.module.info.registerState ≠ no → p.enrolled = true
  slot : plan.SlotOk p.module
  queued : ∀ msg ∈ p.module.sendMsgList, ¬AnswerLike msg.body

-- ---------------------------------------------------------------------------
-- One step
-- ---------------------------------------------------------------------------

variable {plan : Plan}

theorem slotOk_uart1Input (h : plan.Follows chunk) (m : Module) :
    plan.SlotOk (uart1Input chunk m) := by
  intro hok hcode hanser
  have hagree := uart1Input_agree chunk m
  obtain ⟨hlen, hassign⟩ := h ⟨(frameOk_bytes hok (by decide)).symm.trans hcode,
    (frameOk_bytes hok (by decide)).symm.trans hanser⟩
  have hid : readId (uart1Input chunk m).rx.data = readId fun i => chunk.getD i 0 := by
    unfold readId
    rw [← hagree 2 (by omega), ← hagree 3 (by omega), ← hagree 4 (by omega),
      ← hagree 5 (by omega)]
  rw [hid, hassign, ← hagree 7 (by omega)]

theorem slotOk_congr (hdata : m'.rx.data = m.rx.data) (hlen : m'.handedLen = m.handedLen)
    (h : plan.SlotOk m) : plan.SlotOk m' := by
  unfold Plan.SlotOk
  rw [hdata, hlen]
  exact h

theorem slotOk_powerUp (flash : List U8) (rtc : Rtc) (uniqueId : Fin 12 → U8) :
    plan.SlotOk (powerUp flash rtc uniqueId) :=
  fun hok => absurd hok (not_frameOk_powerUp flash rtc uniqueId)

/-- No module sends what looks like an answer. -/
theorem step_queued (e : Event) (m : Module) (h : ∀ msg ∈ m.sendMsgList, ¬AnswerLike msg.body) :
    ∀ msg ∈ (step e m).sendMsgList, ¬AnswerLike msg.body := by
  intro msg hmsg
  rcases mem_step_sendMsgList hmsg with hold | hrequest | ⟨alloc, -, -, hd, -, ha⟩
  · exact h msg hold
  · rw [hrequest]
    rintro ⟨-, hanser⟩
    have hbyte : (0x00 : U8) = registerAnser := hanser
    exact absurd hbyte (by decide)
  · rintro ⟨hcode, -⟩
    have hhead := answerOf_head ha
    rw [List.head?_eq_getElem?] at hhead
    rw [List.getD_eq_getElem?_getD, hhead] at hcode
    exact hd.2.1 hcode

section

variable {ids : ι → U32} {i : ι} {p : Party ι}

theorem Settled.receive [DecidableEq ι] (h : Settled plan ids i p)
    (hf : plan.Follows frame.bytes) : Settled plan ids i (device.receive frame p) :=
  ⟨h.identity, h.addressed, h.enrolled, slotOk_uart1Input hf p.module, h.queued⟩

theorem Settled.noise [DecidableEq ι] (h : Settled plan ids i p) (hg : Garbled chunk) :
    Settled plan ids i (device.act (.noise chunk) p) :=
  ⟨h.identity, h.addressed, h.enrolled, fun hok => absurd hok (not_frameOk_garbled hg p.module),
    h.queued⟩

/-- A step that keeps registration, address and slot keeps the party settled. -/
theorem Settled.bystander (h : Settled plan ids i p) (hb : Bystander p.module (step e p.module))
    (heard : Option Nat) :
    Settled plan ids i ⟨step e p.module, p.source, p.enrolled, heard⟩ := by
  have hlen : (step e p.module).handedLen = p.module.handedLen := by
    rw [Module.handedLen, hb.rx]
    rfl
  refine ⟨?_, ?_, ?_, slotOk_congr (by rw [hb.rx]) hlen h.slot, step_queued e _ h.queued⟩
  · rw [step_id]
    exact h.identity
  · dsimp only
    rw [hb.registerState, hb.addr, step_id]
    exact h.addressed
  · dsimp only
    rw [hb.registerState]
    exact h.enrolled

theorem Settled.poll [DecidableEq ι] (h : Settled plan ids i p) (alloc : Alloc) :
    Settled plan ids i (device.act (.event (.poll alloc)) p) := by
  obtain ⟨hdata, hlen⟩ := uartPoll_slot alloc p.module
  have hid := step_id (.poll alloc) p.module
  refine ⟨hid.trans h.identity, ?_, ?_, slotOk_congr hdata hlen h.slot, step_queued _ _ h.queued⟩
  · intro hstate
    rcases uartPoll_registration alloc p.module with ⟨hr, ha⟩ | ⟨hw, ha⟩
    · have hbefore := h.addressed (hr ▸ hstate)
      rw [← ha, ← hid] at hbefore
      exact hbefore
    · -- the answer in the slot is what the address was taken from
      obtain ⟨-, hok, hcode, hanser, hmatch⟩ := hw
      have hassign := h.slot hok hcode hanser
      rw [hmatch, ← ha, ← hid] at hassign
      exact hassign
  · intro hstate
    rcases uartPoll_registration alloc p.module with ⟨hr, -⟩ | ⟨hw, -⟩
    · have hbefore := h.enrolled (hr ▸ hstate)
      simp [device, enrolledAfter, hbefore]
    · simp [device, enrolledAfter, hw]

theorem Settled.monitor [DecidableEq ι] (h : Settled plan ids i p) :
    Settled plan ids i (device.act (.event .monitorConnectedState) p) := by
  have hid := step_id .monitorConnectedState p.module
  have hrx : (monitorConnectedState p.module).rx = p.module.rx := by
    unfold monitorConnectedState
    split <;> rfl
  have hlen : (monitorConnectedState p.module).handedLen = p.module.handedLen := by
    rw [Module.handedLen, hrx]
    rfl
  refine ⟨hid.trans h.identity, ?_, ?_, slotOk_congr (congrArg RxMsg.data hrx) hlen h.slot,
    step_queued _ _ h.queued⟩
  · intro hstate
    obtain ⟨-, hr, ha⟩ := monitorConnectedState_registration p.module hstate
    have hbefore := h.addressed hr
    rw [← ha, ← hid] at hbefore
    exact hbefore
  · intro hstate
    obtain ⟨hlost, hr, -⟩ := monitorConnectedState_registration p.module hstate
    simp [device, enrolledAfter, h.enrolled hr, hlost]

theorem Settled.reboot [DecidableEq ι] (h : Settled plan ids i p) :
    Settled plan ids i (device.act (.event .reboot) p) :=
  ⟨h.identity, fun hstate => absurd (reboot_registerState p.module) hstate,
    fun hstate => absurd (reboot_registerState p.module) hstate, slotOk_powerUp _ _ _,
    fun _ hmsg => nomatch hmsg⟩

theorem Settled.act [DecidableEq ι] (h : Settled plan ids i p) {doing : Doing}
    (hallowed : doing.Allowed) : Settled plan ids i (device.act doing p) := by
  cases doing with
  | noise chunk => exact h.noise hallowed
  | event e =>
    cases e with
    | input chunk => exact hallowed.elim
    | poll alloc => exact h.poll alloc
    | monitorConnectedState => exact h.monitor
    | reboot => exact h.reboot
    | every10s calloc ops => exact h.bystander (uartEvery10s_bystander calloc ops _) _
    | controlProgram adc => exact h.bystander (controlProgram_thermostatOnly adc _).bystander _
    | settingPage page => exact h.bystander (settingPage_menuOnly page _).bystander _
    | homePage adc => exact h.bystander ⟨rfl, rfl, rfl, rfl, rfl, rfl, rfl⟩ _
    | rtcTick rtc => exact h.bystander ⟨rfl, rfl, rfl, rfl, rfl, rfl, rfl⟩ _
    | timeRunning => exact ⟨h.identity, h.addressed, h.enrolled, h.slot, h.queued⟩

end

-- ---------------------------------------------------------------------------
-- Every run
-- ---------------------------------------------------------------------------

/-- If the party's loop comes round, it calls `Uart1Analysis`, which calls
`ModbusCommandAnalysis`, with a frame to the address. -/
def Party.Executes (p : Party ι) (addr : U8) : Prop :=
  ∃ call ∈ analysisCall p.module,
    frameUse call.data call.len call.module = .command ∧ call.data 0 = addr

instance (p : Party ι) (addr : U8) : Decidable (p.Executes addr) :=
  inferInstanceAs (Decidable (∃ call ∈ analysisCall p.module, _))

theorem Party.Executes.dispatches {p : Party ι} (h : p.Executes addr) :
    Dispatches p.module.rx.data p.module.handedLen p.module ∧ p.module.rx.data 0 = addr := by
  obtain ⟨call, hcall, huse, haddr⟩ := h
  rw [analysisCall, Option.mem_def] at hcall
  split at hcall
  · cases hcall
    exact ⟨frameUse_command_iff.mp huse, haddr⟩
  · cases hcall

def Bus.id (b : Bus ι) (i : ι) : U32 := (b.parties i).module.id

section

variable [DecidableEq ι] {b : Bus ι}

theorem settled_inductive (plan : Plan) (ids : ι → U32) :
    Medium.Inductive device plan.rules (Settled plan ids)
      (fun frame => plan.Follows frame.bytes) where
  speaks frame h := h.2
  receive i frame p hf hp := hp.receive hf
  act i doing p hallowed hp := hp.act hallowed
  sends i doing p frame hallowed hp hsend := by
    cases doing with
    | noise chunk => cases hsend
    | event e =>
      obtain ⟨body, hbody, rfl⟩ := Option.map_eq_some_iff.mp hsend
      obtain ⟨msg, hmsg, rfl⟩ := sends_eq_some hbody
      exact fun hlike => absurd hlike (hp.queued msg hmsg)

omit [DecidableEq ι] in
theorem BusStart.settled (h : BusStart b) (plan : Plan) :
    Medium.Holds (Settled plan b.id) (fun frame => plan.Follows frame.bytes) b := by
  refine ⟨fun i => ?_, fun frame hframe => ?_⟩
  · obtain ⟨m, ⟨flash, rtc, uniqueId, rfl⟩, hi⟩ := h.poweredUp i
    refine ⟨rfl, ?_, ?_, ?_, ?_⟩ <;> rw [hi]
    · exact fun hstate => absurd rfl hstate
    · exact fun hstate => absurd rfl hstate
    · exact slotOk_powerUp flash rtc uniqueId
    · exact fun msg hmsg => nomatch hmsg
  · rw [h.silent] at hframe
    cases hframe

/-- A module that carries out a command to it has taken an answer since its last
boot or loss of the master, and the command's address is what its id was given. -/
theorem Settled.executes (h : Settled plan ids i p) (hx : p.Executes addr) :
    p.enrolled = true ∧ (addr ≠ 0x00 → plan.assign (ids i) = some addr) := by
  obtain ⟨⟨-, -, hstate, haddr⟩, hfirst⟩ := hx.dispatches
  refine ⟨h.enrolled hstate, fun hunicast => ?_⟩
  have hown : p.module.info.addr = addr := by
    rcases haddr with ha | ha
    · exact ha.symm.trans hfirst
    · exact absurd (hfirst.symm.trans ha) hunicast
  rw [← h.identity, h.addressed hstate, hown]

/-- In any run of any number of modules with different ids, and at any two times of
it: only a module that is registered since its last boot or timeout carries out a
command, and a command to one module is carried out by the one whose id the
master gave the address, by no other. -/
theorem unicast_executed_once (plan : Plan) (hstart : BusStart b)
    (hids : Function.Injective b.id)
    (h : Within busStep plan.rules.Allows (before ++ after) b) (hunicast : addr ≠ 0x00) :
    (∀ i any, ((busRun before b).parties i).Executes any →
      ((busRun before b).parties i).enrolled = true) ∧
    (∀ i, ((busRun before b).parties i).Executes addr → plan.assign (b.id i) = some addr) ∧
    (∀ i j, ((busRun before b).parties i).Executes addr →
      ((busRun (before ++ after) b).parties j).Executes addr → i = j) := by
  have hbefore : Within busStep plan.rules.Allows before b := h.left
  have hinductive := settled_inductive plan b.id
  have hfirst := (hinductive.run hbefore (hstart.settled plan)).parties
  have hsecond := (hinductive.run h (hstart.settled plan)).parties
  refine ⟨fun i any hx => ((hfirst i).executes hx).1,
    fun i hx => ((hfirst i).executes hx).2 hunicast, fun i j hi hj => ?_⟩
  have hassign := ((hfirst i).executes hi).2 hunicast
  have hassign' := ((hsecond j).executes hj).2 hunicast
  exact hids (plan.inj hassign hassign')

end

-- ---------------------------------------------------------------------------
-- Two modules
-- ---------------------------------------------------------------------------

def twoPlan : Plan where
  assign id := if id = 0x7BD5C66F then some 1 else if id = 0x92C4D707 then some 2 else none
  inj := by
    intro id id' addr h h'
    repeat' split at h
    all_goals repeat' split at h'
    all_goals simp_all only [Option.some.injEq, reduceCtorEq]
    all_goals exact absurd (h.trans h'.symm) (by decide)
  unicast := by
    intro id addr h
    repeat' split at h
    all_goals simp at h
    all_goals subst h; decide

/-- Both hear both answers, and then a write to address one. -/
def twoRegistered : List (BusAction Bool) :=
  let first : Frame Bool :=
    ⟨.master, sealFrame [0xFA, 0x80, 0x7B, 0xD5, 0xC6, 0x6F, 0x00, 0x01]⟩
  let second : Frame Bool :=
    ⟨.master, sealFrame [0xFA, 0x80, 0x92, 0xC4, 0xD7, 0x07, 0x00, 0x02]⟩
  let command : Frame Bool := ⟨.master, sealFrame [0x01, 0x06, 0x04, 0x07, 0x00, 0xFA]⟩
  let poll (i : Bool) : BusAction Bool := .act i (.event (.poll ⟨true, true⟩))
  [.speak first, .deliver false first, .deliver true first, poll false, poll true,
    .speak second, .deliver false second, .deliver true second, poll false, poll true,
    .speak command, .deliver false command, .deliver true command]

theorem unicast_executed_once_two :
    ((busRun twoRegistered twoModules).parties false).Executes 0x01 ∧
      ∀ j, ((busRun (twoRegistered ++ []) twoModules).parties j).Executes 0x01 → false = j := by
  have hfirst : ((busRun twoRegistered twoModules).parties false).Executes 0x01 := by
    decide +kernel
  have hids : Function.Injective twoModules.id := by
    intro i j h
    cases i <;> cases j
    · rfl
    · exact absurd h (by decide +kernel)
    · exact absurd h (by decide +kernel)
    · rfl
  have hallowed : Within busStep twoPlan.rules.Allows (twoRegistered ++ []) twoModules := by
    decide +kernel
  have honce := unicast_executed_once twoPlan twoModules_start hids hallowed (show (0x01 : U8) ≠ 0x00 by decide)
  exact ⟨hfirst, fun j => honce.2.2 false j hfirst⟩

end Hvac
