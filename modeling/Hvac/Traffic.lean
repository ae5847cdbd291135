import Hvac.Invariants
import Hvac.RegisterFile

/-!
# Register traffic

The register writes a step carries out. What the bus alone can write, the sensor
readings, the action in force and the control word, is after every step that is
no boot what these writes make of it.
-/

namespace Hvac

-- ---------------------------------------------------------------------------
-- The writes of a step
-- ---------------------------------------------------------------------------

def commandWrites (data : Nat → U8) : List (U16 × U16) :=
  if data 1 = writeSingle then [(startReg data, word (data 4) (data 5))]
  else if data 1 = writeMuti then
    (List.range (regCount data).toNat).map fun i =>
      (startReg data + BitVec.ofNat 16 i, word (data (7 + i * 2)) (data (8 + i * 2)))
  else []

def registerWrites : Event → Module → List (U16 × U16)
  | .poll _, m =>
    if m.Pending ∧ Dispatches m.rx.data m.handedLen m then commandWrites m.rx.data else []
  | _, _ => []

/-- The step writes the register. -/
def Writes (reg : U16) (e : Event) (m : Module) : Prop := reg ∈ (registerWrites e m).map Prod.fst

instance (reg : U16) (e : Event) (m : Module) : Decidable (Writes reg e m) :=
  inferInstanceAs (Decidable (_ ∈ _))

def markWritten (reg : U16) : Event → Module → Option Bool
  | .reboot, _ => some false
  | e, m => if Writes reg e m then some true else none

/-- In a run from a power-up: the register was written since the last boot. -/
def writtenSinceBoot (reg : U16) (events : List Event) (m : Module) : Bool :=
  Machine.latest step (markWritten reg) events m false

theorem writeMutiLoop_writeRegisters (reg : U16) (data : Nat → U8) (m : Module) (n : Nat) :
    writeMutiLoop reg data m n =
      writeRegisters ((List.range n).map fun i =>
        (reg + BitVec.ofNat 16 i, word (data (7 + i * 2)) (data (8 + i * 2)))) m := by
  induction n with
  | zero => rfl
  | succ n ih => simp [writeMutiLoop, ih, List.range_succ]

-- ---------------------------------------------------------------------------
-- What only the bus writes
-- ---------------------------------------------------------------------------

/-- The readings, the half received time, the action in force and the control
word are the same. -/
structure SameBusState (m m' : Module) : Prop where
  sensor : m'.sensor = m.sensor
  timeCorrect : m'.timeCorrect = m.timeCorrect
  action : m'.action = m.action
  ctrl : m'.info.ctrl = m.info.ctrl

theorem SameBusState.refl (m : Module) : SameBusState m m := ⟨rfl, rfl, rfl, rfl⟩

theorem SameBusState.trans (h : SameBusState m₁ m₂) (h' : SameBusState m₂ m₃) :
    SameBusState m₁ m₃ :=
  ⟨h'.1.trans h.1, h'.2.trans h.2, h'.3.trans h.3, h'.4.trans h.4⟩

theorem SameBusState.writeRegister (h : SameBusState m m') (reg v : U16) :
    SameBusState (writeRegister reg v m) (writeRegister reg v m') := by
  obtain ⟨hsensor, htime, haction, hctrl⟩ := h
  unfold Hvac.writeRegister modbusCommand
  cases Register.decode reg <;> constructor <;>
    simp only [writeNowTime, writeNowTime1, hsensor, htime, haction, hctrl]

theorem SameBusState.writeRegisters (h : SameBusState m m') (writes : List (U16 × U16)) :
    SameBusState (writeRegisters writes m) (writeRegisters writes m') := by
  induction writes generalizing m m' with
  | nil => exact h
  | cons w rest ih => exact ih (h.writeRegister w.1 w.2)

/-- A command carries out its writes, and a read may set the locate flag. -/
theorem afterCommand_writeRegisters (data : Nat → U8) (alloc : Alloc) (m : Module) :
    ∃ flag, afterCommand data alloc m =
      { writeRegisters (commandWrites data) m with locationFlag := flag } := by
  unfold afterCommand commandWrites
  by_cases hread : data 1 = readMuti
  · have hsingle : ¬data 1 = writeSingle := by simp [hread, readMuti, writeSingle]
    have hmulti : ¬data 1 = writeMuti := by simp [hread, readMuti, writeMuti]
    simp only [if_pos hread, if_neg hsingle, if_neg hmulti, afterReads]
    repeat' split
    all_goals exact ⟨_, rfl⟩
  rw [if_neg hread]
  split
  · exact ⟨_, rfl⟩
  split
  · rw [writeMutiLoop_writeRegisters]
    exact ⟨_, rfl⟩
  · exact ⟨_, rfl⟩

theorem afterCommand_writes (data : Nat → U8) (alloc : Alloc) (m : Module) :
    SameBusState (writeRegisters (commandWrites data) m) (afterCommand data alloc m) := by
  obtain ⟨flag, h⟩ := afterCommand_writeRegisters data alloc m
  rw [h]
  exact ⟨rfl, rfl, rfl, rfl⟩

theorem uartPoll_writes (alloc : Alloc) (m : Module) :
    SameBusState (writeRegisters (registerWrites (.poll alloc) m) m) (uartPoll alloc m) := by
  by_cases hp : m.Pending
  · rw [uartPoll_pending hp, registerWrites]
    rcases uart1Analysis_cases alloc m.rx.data m.handedLen (uart1CleanRecvFlag m) with
      ⟨hok, hcode, he⟩ | ⟨hd, he⟩ | ⟨-, hd, he⟩ <;> rw [he]
    · rw [if_neg fun h => h.2.2.1 hcode]
      rcases register_cases m.rx.data (uart1CleanRecvFlag m) with ⟨-, -, hr⟩ | ⟨-, hr⟩ <;> rw [hr]
      · exact ⟨rfl, rfl, rfl, rfl⟩
      · exact ⟨rfl, rfl, rfl, rfl⟩
    · rw [if_pos ⟨hp, hd⟩]
      have hclean : SameBusState m (uart1CleanRecvFlag m) := ⟨rfl, rfl, rfl, rfl⟩
      have hafter := (hclean.writeRegisters (commandWrites m.rx.data)).trans
        (afterCommand_writes m.rx.data alloc (uart1CleanRecvFlag m))
      rw [modbusCommandAnalysis_module]
      exact ⟨hafter.1, hafter.2, hafter.3, hafter.4⟩
    · rw [if_neg fun h => hd h.2]
      exact ⟨rfl, rfl, rfl, rfl⟩
  · rw [uartPoll_idle hp, registerWrites, if_neg fun h => hp h.1]
    exact ⟨rfl, rfl, rfl, rfl⟩

/-- What the bus alone can write is after a step what the step's writes make of it. -/
theorem step_writes (h : e ≠ .reboot) :
    SameBusState (writeRegisters (registerWrites e m) m) (step e m) := by
  by_cases hpoll : ∃ alloc, e = .poll alloc
  · obtain ⟨alloc, rfl⟩ := hpoll
    exact uartPoll_writes alloc m
  · have hkept := step_unpolled (m := m) (fun alloc he => hpoll ⟨alloc, he⟩) h
    have hnone : registerWrites e m = [] := by
      cases e <;> first | rfl | exact absurd ⟨_, rfl⟩ hpoll
    rw [hnone]
    exact ⟨hkept.sensor, hkept.timeCorrect, hkept.action, hkept.ctrl⟩

-- ---------------------------------------------------------------------------
-- Written since boot
-- ---------------------------------------------------------------------------

theorem writeRegisters_rule {R : Module → Bool → Prop}
    (hwrite : ∀ r v m written, R m written →
      R (writeRegister r v m) (if r = reg then true else written))
    (writes : List (U16 × U16)) (h : R m written) :
    R (writeRegisters writes m) (if reg ∈ writes.map Prod.fst then true else written) := by
  induction writes generalizing m written with
  | nil => simpa using h
  | cons w rest ih =>
    have hrest := ih (hwrite w.1 w.2 m written h)
    rw [writeRegisters, List.foldl_cons, List.map_cons]
    by_cases hw : w.1 = reg
    · subst hw
      simpa using hrest
    · simpa [hw, Ne.symm hw] using hrest

/-- A relation of what the bus alone can write to whether a register was written
since boot: it holds at boot and every write keeps it. -/
theorem run_writtenSinceBoot {R : Module → Bool → Prop}
    (hboot : ∀ flash rtc uniqueId, R (powerUp flash rtc uniqueId) false)
    (hsame : ∀ m m' written, SameBusState m m' → R m written → R m' written)
    (hwrite : ∀ r v m written, R m written →
      R (writeRegister r v m) (if r = reg then true else written))
    (flash : List U8) (rtc : Rtc) (uniqueId : Fin 12 → U8) (events : List Event) :
    R (run events (powerUp flash rtc uniqueId))
      (writtenSinceBoot reg events (powerUp flash rtc uniqueId)) := by
  refine Machine.run_latest (fun e m written hm => ?_) (hboot flash rtc uniqueId)
  by_cases he : e = .reboot
  · subst he
    exact hboot m.flash m.rtc m.uniqueId
  · have hmark : markWritten reg e m = if Writes reg e m then some true else none := by
      cases e <;> first | exact absurd rfl he | rfl
    rw [hmark, apply_ite (Option.getD · written)]
    exact hsame _ _ _ (step_writes he) (writeRegisters_rule hwrite (registerWrites e m) hm)

end Hvac
