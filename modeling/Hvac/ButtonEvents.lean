import Mathlib.Data.List.Chain
import Hvac.Button

/-!
# One event for a press

A press is meant to be reported once: as a short one when the button comes up,
or as a long one while it is down. While it is down for less than that, the
last type is reported on; and the time it has been down is kept in sixteen
bits.
-/

namespace Hvac

open PressType (nullPress shortPress longPress)

-- ---------------------------------------------------------------------------
-- Waveforms
-- ---------------------------------------------------------------------------

/-- A run of samples with the button down, and the run after it with it up. -/
structure Press where
  held : Nat
  gap : Nat
  held_pos : 0 < held
  gap_pos : 0 < gap

def Press.samples (p : Press) : List Bool :=
  List.replicate p.held true ++ List.replicate p.gap false

def pressSamples (gap : Nat) (presses : List Press) : List Bool :=
  List.replicate gap false ++ presses.flatMap Press.samples

/-- Any samples are presses once the button has come up. -/
theorem exists_presses (downs : List Bool) :
    ∃ gap presses, downs ++ [false] = pressSamples gap presses := by
  induction downs with
  | nil => exact ⟨1, [], rfl⟩
  | cons down rest ih =>
    obtain ⟨gap, presses, heq⟩ := ih
    cases down with
    | false => exact ⟨gap + 1, presses, congrArg (List.cons false) heq⟩
    | true =>
      cases gap with
      | succ gap =>
        refine ⟨0, ⟨1, gap + 1, Nat.one_pos, Nat.succ_pos gap⟩ :: presses, ?_⟩
        rw [List.cons_append, heq]
        rfl
      | zero =>
        cases presses with
        | nil => simp [pressSamples] at heq
        | cons p presses =>
          -- the press began one sample earlier
          refine ⟨0, ⟨p.held + 1, p.gap, Nat.succ_pos _, p.gap_pos⟩ :: presses, ?_⟩
          rw [List.cons_append, heq]
          rfl

-- ---------------------------------------------------------------------------
-- What is meant
-- ---------------------------------------------------------------------------

def pressEvents (given : List PressType) : List PressType := given.filter (· ≠ nullPress)

def IsShort (held : Nat) : Prop := shortTime ≤ 20 * held ∧ 20 * held < longTime - bandTime

def IsLong (held : Nat) : Prop := longTime ≤ 20 * held

instance (held : Nat) : Decidable (IsShort held) := inferInstanceAs (Decidable (_ ∧ _))
instance (held : Nat) : Decidable (IsLong held) := inferInstanceAs (Decidable (_ ≤ _))

def expectedEvents (held : Nat) : List PressType :=
  if IsShort held then [shortPress] else if IsLong held then [longPress] else []

/-- From its first sample to the first sample after it, a press is given the
event of its length, and after that nothing until the next. -/
def OneEventEach : List Press → List PressType → Prop
  | [], given => pressEvents given = []
  | p :: rest, given =>
    pressEvents (given.take (p.held + 1)) = expectedEvents p.held ∧
      pressEvents ((given.drop (p.held + 1)).take (p.gap - 1)) = [] ∧
      OneEventEach rest (given.drop (p.held + p.gap))

def OneEventPerPress (gap : Nat) (presses : List Press) (given : List PressType) : Prop :=
  pressEvents (given.take gap) = [] ∧ OneEventEach presses (given.drop gap)

instance : (presses : List Press) → (given : List PressType) →
    Decidable (OneEventEach presses given)
  | [], given => inferInstanceAs (Decidable (pressEvents given = []))
  | p :: rest, given =>
    have := instDecidableOneEventEach rest (given.drop (p.held + p.gap))
    inferInstanceAs (Decidable (_ ∧ _ ∧ _))

instance (gap : Nat) (presses : List Press) (given : List PressType) :
    Decidable (OneEventPerPress gap presses given) := inferInstanceAs (Decidable (_ ∧ _))

-- ---------------------------------------------------------------------------
-- A press, sample by sample
-- ---------------------------------------------------------------------------

/-- Up for two samples or more, with the type of the last callback. -/
def upAfter (type : PressType) : Button := { onSet := keyOn, type, btnCooling := btnCoolTime }

/-- Down for `j` samples, from a state with that type. -/
def downFor (type : PressType) (j : Nat) : Button where
  onSet := keyOn
  type := if j < 30 then type else if j = 30 then longPress else nullPress
  pressState := if j = 0 then no else yes
  haveRead := if j < 30 then no else yes
  continueTime := BitVec.ofNat 16 (20 * j)
  btnCooling := btnCoolTime

theorem downFor_zero (type : PressType) : downFor type 0 = upAfter type := rfl

theorem count_downFor (type : PressType) (j : Nat) :
    (downFor type j).count 20 true =
      { downFor type j with
        continueTime := BitVec.ofNat 16 (20 * (j + 1))
        pressState := yes } := by
  have hcool : (downFor type j).btnCooling ≥ btnCoolTime := BitVec.le_refl _
  have htime : (downFor type j).continueTime + (20 : U8).setWidth 16 =
      BitVec.ofNat 16 (20 * (j + 1)) := by
    rw [Nat.mul_succ, BitVec.ofNat_add]
    rfl
  unfold Button.count
  rw [if_pos rfl, if_pos hcool, htime]

theorem heldTime_exact (h : j < 3000) : 20 * j % 65536 = 20 * j := Nat.mod_eq_of_lt (by omega)

theorem downFor_before (h : j < 30) :
    downFor type j =
      { onSet := keyOn, type, pressState := if j = 0 then no else yes
        continueTime := BitVec.ofNat 16 (20 * j), btnCooling := btnCoolTime } := by
  simp [downFor, h]

theorem downFor_after (h : 30 < j) :
    downFor type j =
      { onSet := keyOn, pressState := yes, haveRead := yes
        continueTime := BitVec.ofNat 16 (20 * j), btnCooling := btnCoolTime } := by
  obtain ⟨hread, hlater, hheld⟩ : ¬j < 30 ∧ j ≠ 30 ∧ j ≠ 0 := by omega
  simp [downFor, hread, hlater, hheld]

theorem haveRead_downFor (h : 29 < j) : (downFor type j).haveRead = yes :=
  if_neg (Nat.not_lt.mpr h)

theorem sampled_downFor (type : PressType) (j : Nat) :
    sampled true (downFor type j) = downFor type (j + 1) := by
  have hafter : (BitVec.ofNat 16 (20 * (j + 1))).toNat = 20 * (j + 1) % 65536 :=
    BitVec.toNat_ofNat ..
  rw [sampled, Button.round, count_downFor, Button.classify, if_pos rfl]
  simp only [hafter, longTime]
  split
  · rename_i hlong
    obtain hbefore | rfl | hread := Nat.lt_trichotomy j 29
    · rw [heldTime_exact (by omega)] at hlong
      omega
    · rfl
    · rw [downFor_after (Nat.succ_lt_succ hread), haveRead_downFor hread]
      rfl
  · rename_i hshort
    -- before the long press, or past the end of the count
    have hcases : j + 1 < 30 ∨ 30 < j := by
      by_contra hnear
      rw [heldTime_exact (by omega)] at hshort
      omega
    obtain hbefore | hpast := hcases
    · rw [downFor_before hbefore, downFor_before (Nat.lt_of_succ_lt hbefore)]
      rfl
    · rw [downFor_after hpast, downFor_after (Nat.lt_succ_of_lt hpast)]

/-- The type a release is taken for: the time is cut to sixteen bits. -/
def releaseType (held : Nat) : PressType :=
  if shortTime ≤ 20 * held % 65536 ∧ 20 * held % 65536 < longTime - bandTime then shortPress
  else nullPress

theorem sampled_release (type : PressType) (k : Nat) :
    sampled false (downFor type k) = upAfter (releaseType k) := by
  have hcool : ¬(downFor type k).btnCooling < btnCoolTime := BitVec.lt_irrefl _
  have hcount : (downFor type k).count 20 false = { downFor type k with pressState := no } := by
    unfold Button.count
    rw [if_neg Bool.false_ne_true, if_neg hcool]
  have htime : (downFor type k).continueTime.toNat = 20 * k % 65536 := BitVec.toNat_ofNat ..
  rw [sampled, Button.round, hcount, Button.classify, if_neg (by decide : ¬no = yes)]
  simp only [htime]
  rfl

theorem sampled_upAfter (type : PressType) : sampled false (upAfter type) = upAfter nullPress := by
  cases type <;> rfl

-- ---------------------------------------------------------------------------
-- Runs of samples
-- ---------------------------------------------------------------------------

@[simp] theorem typesGiven_nil (b : Button) : typesGiven [] b = [] := rfl
@[simp] theorem typesGiven_cons (d : Bool) (rest : List Bool) (b : Button) :
    typesGiven (d :: rest) b = (sampled d b).type :: typesGiven rest (sampled d b) := rfl

theorem typesGiven_append (first second : List Bool) (b : Button) :
    typesGiven (first ++ second) b =
      typesGiven first b ++ typesGiven second (Machine.run sampled first b) :=
  Machine.trace_append

theorem length_typesGiven (downs : List Bool) (b : Button) :
    (typesGiven downs b).length = downs.length := by
  induction downs generalizing b with
  | nil => rfl
  | cons d rest ih => simp [ih]

theorem run_held (type : PressType) (j k : Nat) :
    Machine.run sampled (List.replicate k true) (downFor type j) = downFor type (j + k) := by
  induction k generalizing j with
  | zero => rfl
  | succ k ih =>
    rw [List.replicate_succ, Machine.run_cons, sampled_downFor, ih, Nat.add_right_comm]
    rfl

theorem run_gap (type : PressType) (k : Nat) :
    Machine.run sampled (List.replicate k false) (upAfter type) =
      upAfter (if k = 0 then type else nullPress) := by
  induction k generalizing type with
  | zero => rfl
  | succ k ih =>
    rw [List.replicate_succ, Machine.run_cons, sampled_upAfter, ih]
    simp

theorem typesGiven_gap (type : PressType) (k : Nat) :
    typesGiven (List.replicate k false) (upAfter type) = List.replicate k nullPress := by
  induction k generalizing type with
  | zero => rfl
  | succ k ih =>
    rw [List.replicate_succ, typesGiven_cons, sampled_upAfter, ih]
    rfl

@[simp] theorem pressEvents_append (first second : List PressType) :
    pressEvents (first ++ second) = pressEvents first ++ pressEvents second := List.filter_append ..

@[simp] theorem pressEvents_gap (k : Nat) : pressEvents (List.replicate k nullPress) = [] := by
  simp [pressEvents]

/-- Down after a gap: nothing until the long press. -/
theorem pressEvents_held (k : Nat) :
    pressEvents (typesGiven (List.replicate k true) (upAfter nullPress)) =
      if k < 30 then [] else [longPress] := by
  induction k with
  | zero => rfl
  | succ k ih =>
    rw [List.replicate_succ', typesGiven_append, pressEvents_append, ih, ← downFor_zero, run_held,
      typesGiven_cons, sampled_downFor, typesGiven_nil, Nat.zero_add]
    obtain h | rfl | h := Nat.lt_trichotomy k 29
    · rw [downFor_before (Nat.succ_lt_succ h), if_pos (Nat.lt_succ_of_lt h),
        if_pos (Nat.succ_lt_succ h)]
      rfl
    · rfl
    · rw [downFor_after (Nat.succ_lt_succ h), if_neg (Nat.not_lt.mpr h),
        if_neg (Nat.not_lt.mpr (Nat.le_succ_of_le h))]
      rfl

/-- Down with a short press not yet taken back: it is reported again. -/
theorem pressEvents_held_stale (hk : 0 < k) :
    ∃ more, pressEvents (typesGiven (List.replicate k true) (upAfter shortPress)) =
      shortPress :: more := by
  cases k with
  | zero => exact absurd hk (Nat.lt_irrefl 0)
  | succ k =>
    rw [List.replicate_succ, typesGiven_cons, ← downFor_zero, sampled_downFor]
    exact ⟨pressEvents (typesGiven (List.replicate k true) (downFor shortPress 1)), rfl⟩

-- ---------------------------------------------------------------------------
-- When it is one event
-- ---------------------------------------------------------------------------

/-- Held for so long that the time starts over, and released when it is that of
a short press. -/
def WrapsToShort (held : Nat) : Prop :=
  IsLong held ∧ shortTime ≤ 20 * held % 65536 ∧ 20 * held % 65536 < longTime - bandTime

instance (held : Nat) : Decidable (WrapsToShort held) := inferInstanceAs (Decidable (_ ∧ _ ∧ _))

theorem isLong_iff : IsLong k ↔ ¬k < 30 := by
  unfold IsLong longTime
  omega

theorem IsShort.not_long (h : IsShort k) : k < 30 := by
  unfold IsShort longTime bandTime at h
  omega

theorem releaseType_short : releaseType k = shortPress ↔ IsShort k ∨ WrapsToShort k := by
  have htype : releaseType k = shortPress ↔
      shortTime ≤ 20 * k % 65536 ∧ 20 * k % 65536 < longTime - bandTime := by
    unfold releaseType
    split <;> simp_all
  rw [htype]
  unfold WrapsToShort
  cases Decidable.em (IsLong k) with
  | inl hlong =>
    have hshort : ¬IsShort k := fun h => isLong_iff.mp hlong h.not_long
    simp [hlong, hshort]
  | inr hlong =>
    have hexact := heldTime_exact (j := k) (by
      rw [isLong_iff, Decidable.not_not] at hlong
      omega)
    rw [hexact]
    simp [hlong, IsShort]

theorem releaseType_null (h : ¬(IsShort k ∨ WrapsToShort k)) : releaseType k = nullPress := by
  rw [← releaseType_short] at h
  unfold releaseType at h ⊢
  split at h
  · exact absurd rfl h
  · rename_i htime
    exact if_neg htime

/-- A press is given its one event exactly when the type was taken back before
it and its time has not started over into that of a short press. -/
theorem pressEvents_window (hk : 0 < k) (htype : type = nullPress ∨ type = shortPress) :
    pressEvents (typesGiven (List.replicate k true) (upAfter type) ++ [releaseType k]) =
        expectedEvents k ↔
      type = nullPress ∧ ¬WrapsToShort k := by
  obtain rfl | rfl := htype
  · rw [pressEvents_append, pressEvents_held]
    cases Decidable.em (WrapsToShort k) with
    | inl hwraps =>
      have hlong : ¬k < 30 := isLong_iff.mp hwraps.1
      have hshort : ¬IsShort k := fun h => hlong h.not_long
      simp [expectedEvents, releaseType_short.mpr (.inr hwraps), hwraps, hwraps.1, hlong, hshort,
        pressEvents]
    | inr hwraps =>
      cases Decidable.em (IsShort k) with
      | inl hshort =>
        simp [expectedEvents, releaseType_short.mpr (.inl hshort), hwraps, hshort,
          hshort.not_long, pressEvents]
      | inr hshort =>
        have hrelease := releaseType_null (not_or.mpr ⟨hshort, hwraps⟩)
        simp only [expectedEvents, hrelease, hwraps, hshort, isLong_iff, if_false,
          not_false_eq_true, and_self, iff_true]
        split <;> simp_all [pressEvents]
  · obtain ⟨more, hmore⟩ := pressEvents_held_stale hk
    refine iff_of_false ?_ (by simp)
    rw [pressEvents_append, hmore]
    unfold expectedEvents
    split
    · rename_i hshort
      simp [releaseType_short.mpr (.inl hshort), pressEvents]
    split
    · simp
    · simp

-- ---------------------------------------------------------------------------
-- Waveforms, press by press
-- ---------------------------------------------------------------------------

theorem typesGiven_press (p : Press) (type : PressType) :
    typesGiven p.samples (upAfter type) =
        (typesGiven (List.replicate p.held true) (upAfter type) ++ [releaseType p.held]) ++
          List.replicate (p.gap - 1) nullPress ∧
      Machine.run sampled p.samples (upAfter type) =
        upAfter (if p.gap = 1 then releaseType p.held else nullPress) := by
  obtain ⟨held, gap, hheld, hgap⟩ := p
  cases gap with
  | zero => exact absurd hgap (Nat.lt_irrefl 0)
  | succ gap =>
    have hrun := run_held type 0 held
    rw [downFor_zero, Nat.zero_add] at hrun
    simp only [Press.samples, List.replicate_succ, typesGiven_append, Machine.run_append, hrun,
      typesGiven_cons, Machine.run_cons, sampled_release, typesGiven_gap, run_gap]
    exact ⟨by simp [upAfter], by simp⟩

theorem oneEventEach_cons {window later : List PressType} (hwindow : window.length = p.held + 1)
    (hlater : later.length = p.gap - 1) :
    OneEventEach (p :: rest) (window ++ later ++ given) ↔
      pressEvents window = expectedEvents p.held ∧ pressEvents later = [] ∧
        OneEventEach rest given := by
  have hsplit : p.held + p.gap = (p.held + 1) + (p.gap - 1) := by
    have := p.gap_pos
    omega
  have hdrop : (window ++ (later ++ given)).drop (p.held + p.gap) = given := by
    rw [hsplit, ← List.drop_drop, List.drop_left' hwindow, List.drop_left' hlater]
  rw [OneEventEach, List.append_assoc, hdrop, List.take_left' hwindow, List.drop_left' hwindow,
    List.take_left' hlater]

/-- The type of a short press is still there when the button goes down again. -/
def LeavesShort (p : Press) : Prop := IsShort p.held ∧ p.gap = 1

instance (p : Press) : Decidable (LeavesShort p) := inferInstanceAs (Decidable (_ ∧ _))

/-- No press outlasts the count into a short one, and none follows a short one
after a single sample. -/
def WellSpaced (presses : List Press) : Prop :=
  (∀ p ∈ presses, ¬WrapsToShort p.held) ∧ presses.IsChain fun p _ => ¬LeavesShort p

theorem wellSpaced_cons :
    WellSpaced (p :: rest) ↔
      ¬WrapsToShort p.held ∧ (LeavesShort p → rest = []) ∧ WellSpaced rest := by
  have hhead : (∀ q ∈ rest.head?, ¬LeavesShort p) ↔ (LeavesShort p → rest = []) := by
    cases rest with
    | nil => simp
    | cons q rest => simp
  unfold WellSpaced
  rw [List.forall_mem_cons, List.isChain_cons, hhead, and_assoc]
  exact and_congr_right fun _ => and_left_comm

theorem oneEventEach_iff (presses : List Press)
    (htype : type = nullPress ∨ type = shortPress) :
    OneEventEach presses (typesGiven (presses.flatMap Press.samples) (upAfter type)) ↔
      (type = shortPress → presses = []) ∧ WellSpaced presses := by
  induction presses generalizing type with
  | nil => simp [OneEventEach, WellSpaced, pressEvents]
  | cons p rest ih =>
    obtain ⟨hgiven, hrun⟩ := typesGiven_press p type
    have hleft : ∀ t, t = (if p.gap = 1 then releaseType p.held else nullPress) →
        (t = nullPress ∨ t = shortPress) ∧
          (t = shortPress ↔ p.gap = 1 ∧ (IsShort p.held ∨ WrapsToShort p.held)) := by
      rintro t rfl
      rw [← releaseType_short]
      unfold releaseType
      split <;> split <;> simp_all
    obtain ⟨hkind, hshort⟩ := hleft _ rfl
    have hfirst : type = nullPress ↔ (type = shortPress → p :: rest = []) := by
      obtain rfl | rfl := htype <;> simp
    rw [List.flatMap_cons, typesGiven_append, hgiven, hrun,
      oneEventEach_cons (by simp [length_typesGiven]) List.length_replicate,
      pressEvents_window p.held_pos htype, pressEvents_gap, ih hkind, hshort, hfirst,
      wellSpaced_cons]
    constructor
    · rintro ⟨⟨hτ, hwraps⟩, -, hrest, hspaced⟩
      exact ⟨hτ, hwraps, fun h => hrest ⟨h.2, .inl h.1⟩, hspaced⟩
    · rintro ⟨hτ, hwraps, hrest, hspaced⟩
      refine ⟨⟨hτ, hwraps⟩, rfl, ?_, hspaced⟩
      rintro ⟨hgap, h | h⟩
      · exact hrest ⟨h, hgap⟩
      · exact absurd h hwraps

-- ---------------------------------------------------------------------------
-- From boot
-- ---------------------------------------------------------------------------

def ReleasedTwice (downs : List Bool) : Prop :=
  ∃ first second, downs =
    List.replicate first true ++ false :: List.replicate second true ++ [false]

/-- Before that it is not counted. -/
theorem run_cooling (h : n = 0 ∨ n = 1) (k : Nat) :
    Machine.run sampled (List.replicate k true) { onSet := keyOn, btnCooling := n } =
      { onSet := keyOn, btnCooling := n } := by
  induction k with
  | zero => rfl
  | succ k ih =>
    have hstep : sampled true { onSet := keyOn, btnCooling := n } =
        { onSet := keyOn, btnCooling := n } := by
      obtain rfl | rfl := h <;> decide
    rw [List.replicate_succ, Machine.run_cons, hstep, ih]

theorem run_releasedTwice (h : ReleasedTwice downs) (index : Fin 3) :
    Machine.run sampled downs (buttonRegister index) = upAfter nullPress := by
  obtain ⟨first, second, rfl⟩ := h
  have hfirst := run_cooling (.inl rfl) first
  have hsecond := run_cooling (.inr rfl) second
  have hrelease : sampled false { onSet := keyOn, btnCooling := 0 } =
      { onSet := keyOn, btnCooling := 1 } := by decide
  simp only [Machine.run_append, Machine.run_cons, Machine.run_nil, buttonRegister]
  rw [hfirst, hrelease, hsecond]
  decide

/-- For each button, once it has come up for the second time: whatever the
presses that follow, each is given its one event exactly when they are well
spaced. -/
theorem one_event_per_press (index : Fin 3) (before after : List PinReads)
    (hbefore : ReleasedTwice (waveform index before))
    (hafter : waveform index after = pressSamples gap presses) :
    OneEventPerPress gap presses
        (callBacks index after (Machine.run buttonStep before buttonRegister)) ↔
      WellSpaced presses := by
  have hgap : (List.replicate gap nullPress).length = gap := List.length_replicate
  rw [callBacks_eq (run_registered before), hafter, pressSamples,
    run_buttonStep fun _ => ⟨rfl, rfl⟩, run_releasedTwice hbefore, typesGiven_append,
    typesGiven_gap, run_gap, ite_self, OneEventPerPress, List.take_left' hgap,
    List.drop_left' hgap, pressEvents_gap, oneEventEach_iff presses (.inl rfl)]
  simp

def readsOf (downs : List Bool) : List PinReads :=
  downs.map fun d => ⟨if d then keyOn else 1, fun _ => if d then keyOn else 1⟩

def shortAndLong : List Press := [⟨3, 2, by decide, by decide⟩, ⟨31, 1, by decide, by decide⟩]

theorem one_event_per_press_spaced :
    OneEventPerPress 0 shortAndLong
      (callBacks 1 (readsOf (pressSamples 0 shortAndLong))
        (Machine.run buttonStep (readsOf [false, false]) buttonRegister)) :=
  (one_event_per_press 1 _ _ ⟨0, 0, by decide⟩ (by decide)).mpr
    ⟨by decide, by decide⟩

def shortTwice : List Press := [⟨3, 1, by decide, by decide⟩, ⟨1, 1, by decide, by decide⟩]

/-- The one short press is given twice. -/
theorem one_event_per_press_fails :
    ¬∀ (index : Fin 3) (before after : List PinReads) (gap : Nat) (presses : List Press),
      ReleasedTwice (waveform index before) → waveform index after = pressSamples gap presses →
        OneEventPerPress gap presses
          (callBacks index after (Machine.run buttonStep before buttonRegister)) := by
  intro h
  have hpresses := h 0 (readsOf [false, false])
    (readsOf (pressSamples 0 shortTwice)) 0 shortTwice ⟨0, 0, by decide⟩ (by decide)
  exact absurd hpresses (by decide)

end Hvac
