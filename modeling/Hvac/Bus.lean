import Hvac.Invariants
import Hvac.Lib.Medium

/-!
# The bus

Any number of modules and a master on one line. Frames are lost, delayed and
repeated at each module as the medium likes, and noise reaches a module too.
Beside its module a party carries what its history was: who sent what is in the
slot, whether an answer was taken since the last boot or loss of the master, and
when the master was last heard.
-/

namespace Hvac

open Buffer (Agree)
open Machine (Within)

-- ---------------------------------------------------------------------------
-- Parties
-- ---------------------------------------------------------------------------

inductive Origin (ι : Type)
  | master | module (i : ι)
  deriving DecidableEq

structure Frame (ι : Type) where
  origin : Origin ι
  bytes : List U8
  deriving DecidableEq

structure Party (ι : Type) where
  module : Module
  -- `none` before the first chunk and after noise
  source : Option (Origin ι) := none
  enrolled : Bool := false
  heard : Option Nat := none

/-- What a party does by itself: a step of its module, or taking in noise. -/
inductive Doing
  | event (e : Event)
  | noise (chunk : List U8)

/-- The frame in the slot assigns the module an address. -/
def Module.AnswerWaits (m : Module) : Prop :=
  m.Pending ∧ FrameOk m.rx.data m.handedLen ∧ Answers m.rx.data m

instance (m : Module) : Decidable m.AnswerWaits := inferInstanceAs (Decidable (_ ∧ _ ∧ _))

/-- The frame in the slot is one a master sends to this module: an answer to a
registration, or a command that is carried out. -/
def Module.MasterWaits (m : Module) : Prop :=
  m.Pending ∧ ((FrameOk m.rx.data m.handedLen ∧ m.rx.data 0 = registerCode ∧
    m.rx.data 1 = registerAnser) ∨ Dispatches m.rx.data m.handedLen m)

instance (m : Module) : Decidable m.MasterWaits := inferInstanceAs (Decidable (_ ∧ (_ ∨ _)))

variable {ι : Type}

def enrolledAfter (e : Event) (p : Party ι) : Bool :=
  match e with
  | .poll _ => p.enrolled || decide p.module.AnswerWaits
  | .monitorConnectedState => p.enrolled && !decide p.module.Lost
  | .reboot => false
  | _ => p.enrolled

def heardAfter [DecidableEq ι] (e : Event) (p : Party ι) : Option Nat :=
  match e with
  | .poll _ =>
    if p.source = some .master ∧ p.module.MasterWaits then some p.module.timeRun else p.heard
  | .reboot => none
  | _ => p.heard

def device [DecidableEq ι] : Medium.Device ι (Party ι) Doing (Frame ι) where
  act
    | .event e, p =>
      { module := step e p.module, source := p.source, enrolled := enrolledAfter e p
        heard := heardAfter e p }
    | .noise chunk, p => { p with module := uart1Input chunk p.module, source := none }
  receive frame p :=
    { p with module := uart1Input frame.bytes p.module, source := some frame.origin }
  sends i
    | .event e, p => (sends e p.module).map fun body => ⟨.module i, body⟩
    | .noise _, _ => none

/-- Noise is no frame, and fits the driver's ring buffer (`RT_SERIAL_RB_BUFSZ`). -/
def Garbled (chunk : List U8) : Prop :=
  chunk.length ≤ 256 ∧ ¬(2 < chunk.length ∧ CrcOk (fun i => chunk.getD i 0) chunk.length)

instance (chunk : List U8) : Decidable (Garbled chunk) := inferInstanceAs (Decidable (_ ∧ _))

/-- Chunks come from the medium or are noise; every other step is free. -/
def Doing.Allowed : Doing → Prop
  | .event (.input _) => False
  | .event _ => True
  | .noise chunk => Garbled chunk

instance : (doing : Doing) → Decidable doing.Allowed
  | .event (.input _) => inferInstanceAs (Decidable False)
  | .noise chunk => inferInstanceAs (Decidable (Garbled chunk))
  | .event (.poll _) | .event (.every10s _ _) | .event .timeRunning | .event (.controlProgram _)
  | .event .monitorConnectedState | .event (.homePage _) | .event (.settingPage _)
  | .event (.rtcTick _) | .event .reboot => inferInstanceAs (Decidable True)

abbrev Bus (ι : Type) := Medium.World ι (Party ι) (Frame ι)

abbrev BusAction (ι : Type) := Medium.Action ι Doing (Frame ι)

variable [DecidableEq ι]

abbrev busStep : BusAction ι → Bus ι → Bus ι := Medium.step device

abbrev busRun : List (BusAction ι) → Bus ι → Bus ι := Machine.run busStep

structure BusStart (b : Bus ι) : Prop where
  poweredUp : ∀ i, ∃ m, PoweredUp m ∧ b.parties i = { module := m }
  silent : b.wire = []

-- ---------------------------------------------------------------------------
-- The slot
-- ---------------------------------------------------------------------------

theorem uart1Input_agree (chunk : List U8) (m : Module) :
    Agree chunk.length (fun i => chunk.getD i 0) (uart1Input chunk m).rx.data := by
  intro i hi
  simp [uart1Input, Buffer.store, hi]

theorem handedLen_le (chunk : List U8) (m : Module) :
    (uart1Input chunk m).handedLen.toNat ≤ chunk.length := by
  simp only [Module.handedLen, uart1Input, BitVec.toNat_ofNat]
  exact Nat.mod_le _ _

/-- Noise in the slot is not taken for a frame. -/
theorem not_frameOk_garbled (h : Garbled chunk) (m : Module) :
    ¬FrameOk (uart1Input chunk m).rx.data (uart1Input chunk m).handedLen := by
  rintro ⟨hlen, hcrc⟩
  obtain ⟨hfits, hno⟩ := h
  have hagree := uart1Input_agree chunk m
  have hhanded : (uart1Input chunk m).handedLen.toNat = chunk.length := by
    simp only [Module.handedLen, uart1Input, BitVec.toNat_ofNat] at hlen ⊢
    omega
  rw [hhanded] at hlen hcrc
  refine hno ⟨hlen, ?_⟩
  unfold CrcOk at hcrc ⊢
  rw [hagree (chunk.length - 1) (by omega), hagree (chunk.length - 2) (by omega),
    hagree.window (Nat.sub_le _ 2)]
  exact hcrc

theorem not_frameOk_powerUp (flash : List U8) (rtc : Rtc) (uniqueId : Fin 12 → U8) :
    ¬FrameOk (powerUp flash rtc uniqueId).rx.data (powerUp flash rtc uniqueId).handedLen :=
  fun h => absurd h.1 (Nat.not_lt_zero 2)

theorem frameOk_bytes (h : FrameOk (uart1Input chunk m).rx.data (uart1Input chunk m).handedLen)
    (hi : i < 3) : (uart1Input chunk m).rx.data i = chunk.getD i 0 := by
  have hle := handedLen_le chunk m
  have hlen := h.1
  exact (uart1Input_agree chunk m i (by omega)).symm

-- ---------------------------------------------------------------------------
-- What a step does to slot and registration
-- ---------------------------------------------------------------------------

omit [DecidableEq ι]

theorem uartPoll_slot (alloc : Alloc) (m : Module) :
    (uartPoll alloc m).rx.data = m.rx.data ∧ (uartPoll alloc m).handedLen = m.handedLen := by
  by_cases hp : m.Pending
  · have hrx := (uart1Analysis_undisturbed alloc m.rx.data m.handedLen (uart1CleanRecvFlag m)).rx
    have hdata := congrArg RxMsg.data hrx
    have hsize := congrArg (fun rx => BitVec.ofNat 8 rx.size) hrx
    rw [uartPoll_pending hp]
    exact ⟨hdata, hsize⟩
  · rw [uartPoll_idle hp]
    exact ⟨rfl, rfl⟩

theorem uartPoll_registration (alloc : Alloc) (m : Module) :
    ((uartPoll alloc m).info.registerState = m.info.registerState ∧
      (uartPoll alloc m).info.addr = m.info.addr) ∨
    (m.AnswerWaits ∧ (uartPoll alloc m).info.addr = m.rx.data 7) := by
  by_cases hp : m.Pending
  · rw [uartPoll_pending hp]
    rcases uart1Analysis_cases alloc m.rx.data m.handedLen (uart1CleanRecvFlag m) with
      ⟨hok, hcode, he⟩ | ⟨-, he⟩ | ⟨-, -, he⟩ <;> rw [he]
    · rcases register_cases m.rx.data (uart1CleanRecvFlag m) with ⟨hanser, hid, hr⟩ | ⟨-, hr⟩
      · rw [hr]
        exact .inr ⟨⟨hp, hok, hcode, hanser, hid⟩, rfl⟩
      · rw [hr]
        exact .inl ⟨rfl, rfl⟩
    · have hk := modbusCommandAnalysis_kept alloc m.rx.data (uart1CleanRecvFlag m)
      exact .inl ⟨hk.registerState, hk.addr⟩
    · exact .inl ⟨rfl, rfl⟩
  · rw [uartPoll_idle hp]
    exact .inl ⟨rfl, rfl⟩

theorem monitorConnectedState_registration (m : Module) :
    (monitorConnectedState m).info.registerState ≠ no →
      ¬m.Lost ∧ m.info.registerState ≠ no ∧ (monitorConnectedState m).info.addr = m.info.addr := by
  unfold monitorConnectedState
  split
  · intro h
    exact absurd rfl h
  · rename_i hlost
    intro h
    exact ⟨hlost, h, rfl⟩

theorem reboot_registerState (m : Module) : (reboot m).info.registerState = no := rfl

/-- Two modules with empty flash, and identifiers of zeros and of ones. -/
def twoModules : Bus Bool where
  parties i := { module := powerUp [] {} fun _ => if i then 1 else 0 }
  wire := []

theorem twoModules_start : BusStart twoModules := ⟨fun _ => ⟨_, ⟨_, _, _, rfl⟩, rfl⟩, rfl⟩

end Hvac
