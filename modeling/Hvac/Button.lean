import Hvac.Lib.Machine
import Hvac.Types

/-!
# The buttons

`ButtonTask.c`: every twenty milliseconds each of the three buttons is sampled,
the time it has been down is counted, and its callback is given what the press
is taken for.
-/

namespace Hvac

inductive PressType
  | nullPress | shortPress | longPress
  deriving DecidableEq, Repr

def keyOn : U8 := 0
def bandTime : Nat := 40
def shortTime : Nat := 60
def longTime : Nat := 600
def btnCoolTime : U8 := 2

/-- An entry of `buttonList` with its entries in the two static arrays. The pin
and the callback are the entry's own and never change. -/
structure Button where
  onSet : U8
  type : PressType := .nullPress
  pressState : U8 := no
  haveRead : U8 := no
  continueTime : U16 := 0
  btnCooling : U8 := 0
  onSetPre : U8 := 0
  deriving DecidableEq, Repr

/-- The first part of a round of the loop: is the button down? -/
def Button.count (period : U8) (down : Bool) (b : Button) : Button :=
  if down then
    if b.btnCooling ≥ btnCoolTime then
      { b with continueTime := b.continueTime + period.setWidth 16, pressState := yes }
    else b
  else
    { b with
      pressState := no
      btnCooling := if b.btnCooling < btnCoolTime then b.btnCooling + 1 else b.btnCooling }

def Button.classify (b : Button) : Button :=
  if b.pressState = yes then
    if b.continueTime.toNat ≥ longTime then
      -- once read, a long press is not reported again
      { b with
        type := if b.haveRead = no then .longPress else .nullPress
        haveRead := yes }
    else b
  else
    let shortMax := longTime - bandTime
    { b with
      type :=
        if b.continueTime.toNat ≥ shortTime ∧ b.continueTime.toNat < shortMax then .shortPress
        else .nullPress
      haveRead := no
      continueTime := 0 }

/-- A round of the loop. The callback is given the type that is left. -/
def Button.round (period : U8) (down : Bool) (b : Button) : Button :=
  (b.count period down).classify

/-- What `rt_pin_read` returns during one call: the first button's pin once
before the loop, then the pin of each. -/
structure PinReads where
  first : U8
  pins : Fin 3 → U8

/-- A new `on_set` of the first button starts its cooling over. -/
def Button.followOnSet (read : U8) (b : Button) : Button :=
  if b.onSetPre ≠ b.onSet then
    { b with
      onSetPre := b.onSet
      btnCooling := if read ≠ b.onSet then 0 else b.btnCooling }
  else b

def buttonProgram (period : U8) (reads : PinReads) (buttonList : Fin 3 → Button) :
    Fin 3 → Button :=
  let buttonList := fun index =>
    if index = 0 then (buttonList 0).followOnSet reads.first else buttonList index
  fun index =>
    (buttonList index).round period (reads.pins index == (buttonList index).onSet)

/-- `ButtonRegister`: three times `ButtonAdd` on the zeroed list. -/
def buttonRegister : Fin 3 → Button := fun _ => { onSet := keyOn }

-- ---------------------------------------------------------------------------
-- The task and its buttons
-- ---------------------------------------------------------------------------

/-- One pass of the loop of `ButtonTaskEntry`. -/
def buttonStep : PinReads → (Fin 3 → Button) → Fin 3 → Button := buttonProgram 20

/-- The types the callback of a button is given, one for each pass. -/
def callBacks (index : Fin 3) (reads : List PinReads) (buttonList : Fin 3 → Button) :
    List PressType :=
  Machine.trace buttonStep (fun r list => some (buttonStep r list index).type) reads buttonList

def waveform (index : Fin 3) (reads : List PinReads) : List Bool :=
  reads.map fun r => r.pins index == keyOn

/-- A button alone. -/
def sampled : Bool → Button → Button := Button.round 20

def typesGiven (downs : List Bool) (b : Button) : List PressType :=
  Machine.trace sampled (fun down b => some (sampled down b).type) downs b

def Registered (buttonList : Fin 3 → Button) : Prop :=
  ∀ index, (buttonList index).onSet = keyOn ∧ (buttonList index).onSetPre = keyOn

theorem round_onSet (period : U8) (down : Bool) (b : Button) :
    (b.round period down).onSet = b.onSet ∧ (b.round period down).onSetPre = b.onSetPre := by
  unfold Button.round Button.classify Button.count
  dsimp only
  repeat' split
  all_goals exact ⟨rfl, rfl⟩

theorem buttonStep_apply (h : Registered buttonList) (reads : PinReads) (index : Fin 3) :
    buttonStep reads buttonList index =
      sampled (reads.pins index == keyOn) (buttonList index) := by
  have hfollow : ∀ i, (if i = 0 then (buttonList 0).followOnSet reads.first else buttonList i) =
      buttonList i := by
    intro i
    split
    · rename_i hi
      subst hi
      obtain ⟨hset, hpre⟩ := h 0
      exact if_neg (by simp [hset, hpre])
    · rfl
  unfold buttonStep buttonProgram sampled
  dsimp only
  rw [hfollow, (h index).1]

theorem buttonStep_registered (reads : PinReads) (h : Registered buttonList) :
    Registered (buttonStep reads buttonList) := by
  intro index
  rw [buttonStep_apply h]
  obtain ⟨hset, hpre⟩ := round_onSet 20 (reads.pins index == keyOn) (buttonList index)
  exact ⟨hset.trans (h index).1, hpre.trans (h index).2⟩

theorem run_buttonStep (h : Registered buttonList) (reads : List PinReads) (index : Fin 3) :
    Machine.run buttonStep reads buttonList index =
      Machine.run sampled (waveform index reads) (buttonList index) :=
  Machine.run_component (p := fun list : Fin 3 → Button => list index) (fun r _ => buttonStep_registered r)
    (fun r _ hr => buttonStep_apply hr r index) h

theorem callBacks_eq (h : Registered buttonList) (reads : List PinReads) (index : Fin 3) :
    callBacks index reads buttonList = typesGiven (waveform index reads) (buttonList index) := by
  refine Machine.trace_component (p := fun list : Fin 3 → Button => list index)
    (fun r _ => buttonStep_registered r) (fun r _ hr => buttonStep_apply hr r index) ?_ h
  intro r list hr
  rw [buttonStep_apply hr]

theorem run_registered (reads : List PinReads) :
    Registered (Machine.run buttonStep reads buttonRegister) :=
  Machine.run_preserves (fun r _ => buttonStep_registered r) fun _ => ⟨rfl, rfl⟩

end Hvac
