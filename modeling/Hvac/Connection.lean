import Hvac.Bus

/-!
# Connection

The time of the last contact is meant to be that of the last contact with the
master. It is refreshed by any frame that starts like a registration frame,
other modules' requests among them, so a connection vouches for the master only
while no frame of another module refreshes it (`connected_heard_master`).
-/

namespace Hvac

open Machine (Within)

variable {ι : Type}

/-- The frame in the slot refreshes the time of the last contact. -/
def Module.Refreshes (m : Module) : Prop :=
  m.Pending ∧ ((FrameOk m.rx.data m.handedLen ∧ m.rx.data 0 = registerCode) ∨
    Dispatches m.rx.data m.handedLen m)

instance (m : Module) : Decidable m.Refreshes := inferInstanceAs (Decidable (_ ∧ (_ ∨ _)))

def MasterFrame (frame : Frame ι) : Prop :=
  frame.bytes.getD 0 0 = registerCode → frame.bytes.getD 1 0 = registerAnser

instance (frame : Frame ι) : Decidable (MasterFrame frame) := inferInstanceAs (Decidable (_ → _))

def Party.FromModule (p : Party ι) : Prop :=
  match p.source with
  | some (.module _) => True
  | _ => False

instance (p : Party ι) : Decidable p.FromModule := by
  unfold Party.FromModule
  split <;> infer_instance

/-- What the party is about to take from its slot does not come from a module, or
does not refresh. -/
def NotRefreshedByModule : Doing → Party ι → Prop
  | .event (.poll _), p => p.FromModule → ¬p.module.Refreshes
  | _, _ => True

instance : (doing : Doing) → (p : Party ι) → Decidable (NotRefreshedByModule doing p)
  | .event (.poll _), p => inferInstanceAs (Decidable (p.FromModule → ¬p.module.Refreshes))
  | .noise _, _ | .event (.input _), _ | .event (.every10s _ _), _ | .event .timeRunning, _
  | .event (.controlProgram _), _ | .event .monitorConnectedState, _ | .event (.homePage _), _
  | .event (.settingPage _), _ | .event (.rtcTick _), _ | .event .reboot, _ =>
    inferInstanceAs (Decidable True)

def busRules : Medium.Rules ι (Party ι) Doing (Frame ι) where
  speaks frame := frame.origin = .master ∧ MasterFrame frame
  acts _ doing _ := doing.Allowed

/-- Those in which no frame of another module refreshes the `i`-th's connection. -/
def quietRules (i : ι) : Medium.Rules ι (Party ι) Doing (Frame ι) where
  speaks frame := frame.origin = .master ∧ MasterFrame frame
  acts j doing p := doing.Allowed ∧ (j = i → NotRefreshedByModule doing p)

section

variable [DecidableEq ι]

instance (frame : Frame ι) : Decidable ((busRules : Medium.Rules ι _ _ _).speaks frame) :=
  inferInstanceAs (Decidable (_ ∧ _))

instance (i : ι) (doing : Doing) (p : Party ι) :
    Decidable ((busRules : Medium.Rules ι _ _ _).acts i doing p) :=
  inferInstanceAs (Decidable doing.Allowed)

instance (i : ι) (frame : Frame ι) : Decidable ((quietRules i).speaks frame) :=
  inferInstanceAs (Decidable (_ ∧ _))

instance (i j : ι) (doing : Doing) (p : Party ι) : Decidable ((quietRules i).acts j doing p) :=
  inferInstanceAs (Decidable (doing.Allowed ∧ (j = i → NotRefreshedByModule doing p)))

/-- What is true of each party: who the slot's frame can be from, and, for the one
that is watched, that its last contact was with the master. -/
structure Attentive (i j : ι) (p : Party ι) : Prop where
  last : j = i → p.module.lastConnectTime ≠ 0 → p.heard = some p.module.lastConnectTime
  master : p.source = some .master → FrameOk p.module.rx.data p.module.handedLen →
    p.module.rx.data 0 = registerCode → p.module.rx.data 1 = registerAnser
  noise : p.source = none → ¬FrameOk p.module.rx.data p.module.handedLen

-- ---------------------------------------------------------------------------
-- One step
-- ---------------------------------------------------------------------------

variable {i j : ι} {p : Party ι}

theorem Attentive.receive (h : Attentive i j p)
    (hframe : frame.origin = .master → MasterFrame frame) :
    Attentive i j (device.receive frame p) := by
  refine ⟨h.last, fun hsource hok hcode => ?_, fun hsource => nomatch hsource⟩
  have hbyte := (frameOk_bytes (m := p.module) hok (show 0 < 3 by decide)).symm.trans hcode
  have hanser := hframe (Option.some.inj hsource) hbyte
  exact (frameOk_bytes (m := p.module) hok (by decide)).trans hanser

theorem Attentive.noise_act (h : Attentive i j p) (hg : Garbled chunk) :
    Attentive i j (device.act (.noise chunk) p) :=
  ⟨h.last, (fun hsource => nomatch hsource), fun _ => not_frameOk_garbled hg p.module⟩

omit [DecidableEq ι] in
theorem Attentive.bystander (h : Attentive i j p)
    (hlast : m.lastConnectTime = p.module.lastConnectTime) (hrx : m.rx = p.module.rx) (enrolled : Bool) :
    Attentive i j ⟨m, p.source, enrolled, p.heard⟩ := by
  have hlen : m.handedLen = p.module.handedLen := by
    rw [Module.handedLen, hrx]
    rfl
  refine ⟨?_, ?_, ?_⟩ <;> dsimp only
  · rw [hlast]
    exact h.last
  · rw [hrx, hlen]
    exact h.master
  · rw [hrx, hlen]
    exact h.noise

omit [DecidableEq ι] in
theorem Attentive.refreshed (h : Attentive i j p) (hr : p.module.Refreshes) :
    (p.source = some .master ∧ p.module.MasterWaits) ∨ p.FromModule := by
  obtain ⟨hp, hframe⟩ := hr
  have hok : FrameOk p.module.rx.data p.module.handedLen := by
    rcases hframe with ⟨hok, -⟩ | hd
    · exact hok
    · exact hd.1
  unfold Party.FromModule
  cases hsource : p.source with
  | none => exact absurd hok (h.noise hsource)
  | some origin =>
    cases origin with
    | module k => exact .inr trivial
    | master =>
      refine .inl ⟨rfl, hp, ?_⟩
      rcases hframe with ⟨hok, hcode⟩ | hd
      · exact .inl ⟨hok, hcode, h.master hsource hok hcode⟩
      · exact .inr hd

/-- A poll moves the time of the last contact to now if the frame refreshes, and
leaves it alone if not. -/
theorem uartPoll_lastConnectTime (alloc : Alloc) (m : Module) :
    (uartPoll alloc m).lastConnectTime = if m.Refreshes then m.timeRun else m.lastConnectTime := by
  by_cases hp : m.Pending
  · rw [uartPoll_pending hp]
    rcases uart1Analysis_cases alloc m.rx.data m.handedLen (uart1CleanRecvFlag m) with
      ⟨hok, hcode, he⟩ | ⟨hd, he⟩ | ⟨hreg, hcmd, he⟩ <;> rw [he]
    · rw [if_pos ⟨hp, .inl ⟨hok, hcode⟩⟩]
      rcases register_cases m.rx.data (uart1CleanRecvFlag m) with ⟨-, -, hr⟩ | ⟨-, hr⟩ <;> rw [hr] <;>
        rfl
    · rw [if_pos ⟨hp, .inr hd⟩]
      exact (modbusCommandAnalysis_kept alloc m.rx.data (uart1CleanRecvFlag m)).timeRun
    · rw [if_neg]
      · rfl
      · rintro ⟨-, hframe | hd⟩
        · exact hreg hframe
        · exact hcmd hd
  · rw [uartPoll_idle hp, if_neg fun hr => hp hr.1]

theorem Module.MasterWaits.refreshes {m : Module} (h : m.MasterWaits) : m.Refreshes := by
  obtain ⟨hp, ⟨hok, hcode, -⟩ | hd⟩ := h
  · exact ⟨hp, .inl ⟨hok, hcode⟩⟩
  · exact ⟨hp, .inr hd⟩

theorem Attentive.poll (h : Attentive i j p) (alloc : Alloc)
    (hquiet : j = i → p.FromModule → ¬p.module.Refreshes) :
    Attentive i j (device.act (.event (.poll alloc)) p) := by
  obtain ⟨hdata, hlen⟩ := uartPoll_slot alloc p.module
  refine ⟨fun hj => ?_, ?_, ?_⟩
  · simp only [device, step, heardAfter, uartPoll_lastConnectTime]
    by_cases hr : p.module.Refreshes
    · have hmaster : p.source = some .master ∧ p.module.MasterWaits := by
        rcases h.refreshed hr with hm | hmodule
        · exact hm
        · exact absurd hr (hquiet hj hmodule)
      rw [if_pos hr, if_pos hmaster]
      exact fun _ => rfl
    · rw [if_neg hr, if_neg fun hm => hr hm.2.refreshes]
      exact h.last hj
  · simp only [device, step, hdata, hlen]
    exact h.master
  · simp only [device, step, hdata, hlen]
    exact h.noise

theorem Attentive.act (h : Attentive i j p) {doing : Doing} (hallowed : doing.Allowed)
    (hquiet : j = i → NotRefreshedByModule doing p) : Attentive i j (device.act doing p) := by
  cases doing with
  | noise chunk => exact h.noise_act hallowed
  | event e =>
    cases e with
    | input chunk => exact hallowed.elim
    | poll alloc => exact h.poll alloc hquiet
    | reboot =>
      have hok := not_frameOk_powerUp p.module.flash p.module.rtc p.module.uniqueId
      exact ⟨fun _ hlast => absurd rfl hlast, fun _ hok' => absurd hok' hok, fun _ => hok⟩
    | monitorConnectedState =>
      refine h.bystander ?_ ?_ _ <;> simp only [step, monitorConnectedState] <;> split <;> rfl
    | every10s calloc ops =>
      have hb := uartEvery10s_bystander calloc ops p.module
      exact h.bystander hb.lastConnectTime hb.rx _
    | controlProgram adc =>
      have hb := (controlProgram_thermostatOnly adc p.module).bystander
      exact h.bystander hb.lastConnectTime hb.rx _
    | settingPage page =>
      have hb := (settingPage_menuOnly page p.module).bystander
      exact h.bystander hb.lastConnectTime hb.rx _
    | timeRunning => exact h.bystander (m := timeRunning p.module) rfl rfl _
    | homePage adc => exact h.bystander (m := takeSamples adc p.module) rfl rfl _
    | rtcTick rtc => exact h.bystander (m := step (.rtcTick rtc) p.module) rfl rfl _

-- ---------------------------------------------------------------------------
-- Every run
-- ---------------------------------------------------------------------------

theorem attentive_inductive (i : ι) :
    Medium.Inductive device (quietRules i) (Attentive i)
      (fun frame => frame.origin = .master → MasterFrame frame) where
  speaks frame h := fun _ => h.2
  receive j frame p hf hp := hp.receive hf
  act j doing p hallowed hp := hp.act hallowed.1 hallowed.2
  sends j doing p frame hallowed hp hsend := by
    cases doing with
    | noise chunk => cases hsend
    | event e =>
      obtain ⟨body, -, rfl⟩ := Option.map_eq_some_iff.mp hsend
      exact fun hmaster => nomatch hmaster

omit [DecidableEq ι] in
theorem BusStart.attentive {b : Bus ι} (h : BusStart b) (i : ι) :
    Medium.Holds (Attentive i) (fun frame => frame.origin = .master → MasterFrame frame) b := by
  refine ⟨fun j => ?_, fun frame hframe => ?_⟩
  · obtain ⟨m, ⟨flash, rtc, uniqueId, rfl⟩, hj⟩ := h.poweredUp j
    rw [hj]
    exact ⟨fun _ hlast => absurd rfl hlast, (fun hsource => nomatch hsource),
      fun _ => not_frameOk_powerUp flash rtc uniqueId⟩
  · rw [h.silent] at hframe
    cases hframe

/-- In any run in which no frame of another module refreshes its connection: when
the watch leaves a module connected, it heard the master in the last thirty
seconds. -/
theorem connected_heard_master {b : Bus ι} (i : ι) (hstart : BusStart b)
    (h : Within busStep (quietRules i).Allows actions b)
    (hconnected : (monitorConnectedState ((busRun actions b).parties i).module).info.connected =
      yes) :
    ∃ t, ((busRun actions b).parties i).heard = some t ∧
      ((busRun actions b).parties i).module.timeRun ≤ t + timeout := by
  have hi := ((attentive_inductive i).run h (hstart.attentive i)).parties i
  unfold monitorConnectedState at hconnected
  split at hconnected
  · have hno : no = yes := hconnected
    exact absurd hno (by decide)
  · rename_i hlost
    simp only [Module.Lost, not_or, Nat.not_lt] at hlost
    exact ⟨_, hi.last rfl hlost.1, hlost.2⟩

end

/-- The master answers the first module, and five seconds pass. -/
def masterHeard : List (BusAction Bool) :=
  let answer : Frame Bool :=
    ⟨.master, sealFrame [0xFA, 0x80, 0x7B, 0xD5, 0xC6, 0x6F, 0x00, 0x01]⟩
  [.act false (.event .timeRunning), .speak answer, .deliver false answer,
    .act false (.event (.poll ⟨true, true⟩))] ++
    List.replicate 5 (.act false (.event .timeRunning))

theorem connected_heard_master_answer :
    ∃ t, ((busRun masterHeard twoModules).parties false).heard = some t ∧
      ((busRun masterHeard twoModules).parties false).module.timeRun ≤ t + timeout :=
  connected_heard_master false twoModules_start (by decide +kernel) (by decide +kernel)

def requestHeard : List (BusAction Bool) :=
  let request : Frame Bool := ⟨.module true, generateRegisterData (powerUp [] {} fun _ => 1)⟩
  [.act true (.event (.every10s true ⟨true, fun _ => true⟩)),
    .act true (.event (.poll ⟨true, true⟩)), .act false (.event .timeRunning),
    .deliver false request, .act false (.event (.poll ⟨true, true⟩))]

/-- It counts as connected, though there is no master. -/
theorem connected_heard_master_fails :
    ¬∀ (b : Bus Bool) (actions : List (BusAction Bool)) (i : Bool), BusStart b →
      Within busStep busRules.Allows actions b →
      (monitorConnectedState ((busRun actions b).parties i).module).info.connected = yes →
      ∃ t, ((busRun actions b).parties i).heard = some t ∧
        ((busRun actions b).parties i).module.timeRun ≤ t + timeout := by
  intro h
  obtain ⟨t, ht, -⟩ := h twoModules requestHeard false twoModules_start (by decide +kernel)
    (by decide +kernel)
  have hnever : ((busRun requestHeard twoModules).parties false).heard = none := by
    decide +kernel
  cases hnever.symm.trans ht

end Hvac
