import Hvac.TimerPeriod

/-!
# Locating a module

A LOCATION read raises a flag. The LED task keeps a copy of it and takes the
time when the copy rises, so that a read it finds the copy raised at starts no
minute of its own.
-/

namespace Hvac

open Machine (Within)

/-- The register a locate request reads. -/
def location : U16 := 0x0000

inductive LedEvent
  -- `ModbusCommand` reads LOCATION, with what `data` points at
  | locationRead (data : U16)
  | timeRunning
  | ledProgram (period : U8)
  deriving DecidableEq, Repr

def ledStep : LedEvent → LedTask → LedTask
  | .locationRead data, s => { s with module := (modbusCommand .readCmd location data s.module).1 }
  | .timeRunning, s => { s with module := timeRunning s.module }
  | .ledProgram period, s => ledProgram period s

/-- The seconds that pass in a run. -/
def ticks (events : List LedEvent) : Nat := events.count .timeRunning

/-- A call of `LedProgram` up to this time runs in the fast mode. -/
def FastUntil (limit : Nat) : LedEvent → LedTask → Prop
  | .ledProgram period, s =>
    s.module.timeRun ≤ limit → (ledProgram period s).led.mode = ledFast
  | _, _ => True

/-- What follows the request that finds `s` flashes fast for its minute. -/
def Honoured (data : U16) (after : List LedEvent) (s : LedTask) : Prop :=
  Within ledStep (FastUntil (s.module.timeRun + 60)) after (ledStep (.locationRead data) s)

/-- The task's copy of the flag is down at the request; or no call of the task
within the minute comes after the minute that is running. -/
def OwnMinute (after : List LedEvent) (s : LedTask) : Prop :=
  s.led.locationFlag = false ∨
    ∀ mid period rest, after = mid ++ .ledProgram period :: rest → ticks mid ≤ 60 →
      s.module.timeRun + ticks mid ≤ s.led.lastTime + 60

-- ---------------------------------------------------------------------------
-- The steps
-- ---------------------------------------------------------------------------

theorem locationRead_eq (data : U16) (s : LedTask) :
    ledStep (.locationRead data) s = { s with module := { s.module with locationFlag := true } } :=
  rfl

@[simp] theorem ledStep_timeRun (e : LedEvent) (s : LedTask) :
    (ledStep e s).module.timeRun = s.module.timeRun + ticks [e] := by
  cases e with
  | locationRead data => rfl
  | timeRunning => rfl
  | ledProgram period => exact ledProgram_timeRun period s

theorem ticks_cons (e : LedEvent) (rest : List LedEvent) :
    ticks (e :: rest) = ticks [e] + ticks rest := by
  rw [ticks, ← List.singleton_append, List.count_append]
  rfl

/-- The minute the task runs, when its copy is up and no longer changes. -/
structure Flashing (since : Nat) (s : LedTask) : Prop where
  flag : s.module.locationFlag = true
  copy : s.led.locationFlag = true
  lastTime : s.led.lastTime = since

/-- A raised flag starts a minute that is not over before the requested one. -/
structure Requested (t : Nat) (s : LedTask) : Prop where
  flag : s.module.locationFlag = true
  time : t ≤ s.module.timeRun
  lastTime : s.led.locationFlag = true → t ≤ s.led.lastTime

theorem ledProgram_flashing (h : Flashing since s) (period : U8) :
    (s.module.timeRun ≤ since + 60 → (ledProgram period s).led.mode = ledFast ∧
      Flashing since (ledProgram period s)) ∧
    (since + 60 < s.module.timeRun → (ledProgram period s).led.mode = ledNormal) := by
  obtain ⟨hflag, hcopy, rfl⟩ := h
  have hfollow : followLocation s.module s.led = s.led := if_neg (by simp [hflag, hcopy])
  constructor
  · intro htime
    have hmode : ledProgram period s =
        { s with led := { s.led with mode := ledFast }.drive period } := by
      simp [ledProgram, chooseMode, hfollow, hcopy, locationTime, Nat.not_lt.mpr htime]
    obtain ⟨hcopy', hlast⟩ := LedStatics.drive_location period { s.led with mode := ledFast }
    rw [hmode]
    exact ⟨LedStatics.drive_mode .., hflag, hcopy'.trans hcopy, hlast⟩
  · intro htime
    simp [ledProgram, chooseMode, hfollow, hcopy, locationTime, htime]

/-- With its copy down the task takes the time now. -/
theorem ledProgram_rise (hflag : s.module.locationFlag = true) (hcopy : s.led.locationFlag = false)
    (period : U8) :
    (ledProgram period s).led.mode = ledFast ∧
      Flashing s.module.timeRun (ledProgram period s) := by
  let led := { s.led with locationFlag := true, lastTime := s.module.timeRun }
  have hfollow : followLocation s.module s.led = led := by
    simp [followLocation, hflag, hcopy, led]
  have hflashing : Flashing s.module.timeRun { s with led } := ⟨hflag, rfl, rfl⟩
  have hsame : ledProgram period s = ledProgram period { s with led } := by
    have hkept : followLocation s.module led = led := if_neg (by simp [hflag, led])
    simp only [ledProgram, hfollow, hkept]
  rw [hsame]
  exact (ledProgram_flashing hflashing period).1 (Nat.le_add_right _ _)

-- ---------------------------------------------------------------------------
-- The minute after a request
-- ---------------------------------------------------------------------------

/-- Past the limit nothing is asked of the task. -/
theorem fastUntil_late (h : limit < s.module.timeRun) (events : List LedEvent) :
    Within ledStep (FastUntil limit) events s := by
  induction events generalizing s with
  | nil => trivial
  | cons e rest ih =>
    refine ⟨?_, ih (by rw [ledStep_timeRun]; omega)⟩
    cases e with
    | ledProgram period => exact fun hle => absurd h (Nat.not_lt.mpr hle)
    | _ => trivial

theorem Requested.step (h : Requested t s) (e : LedEvent) (htime : s.module.timeRun ≤ t + 60) :
    Requested t (ledStep e s) ∧ FastUntil (t + 60) e s := by
  obtain ⟨hflag, ht, hlast⟩ := h
  cases e with
  | locationRead data => exact ⟨⟨rfl, ht, hlast⟩, trivial⟩
  | timeRunning => exact ⟨⟨hflag, Nat.le_succ_of_le ht, hlast⟩, trivial⟩
  | ledProgram period =>
    have hfast : ∃ since, t ≤ since ∧ (ledProgram period s).led.mode = ledFast ∧
        Flashing since (ledProgram period s) := by
      cases hcopy : s.led.locationFlag with
      | false => exact ⟨_, ht, ledProgram_rise hflag hcopy period⟩
      | true =>
        have hsince := hlast hcopy
        exact ⟨_, hsince, (ledProgram_flashing ⟨hflag, hcopy, rfl⟩ period).1 (by omega)⟩
    obtain ⟨since, hsince, hmode, hflag', -, hlast'⟩ := hfast
    refine ⟨⟨hflag', ?_, fun _ => hlast' ▸ hsince⟩, fun _ => hmode⟩
    exact (ledStep_timeRun (.ledProgram period) s).symm ▸ ht

theorem Requested.within (h : Requested t s) (events : List LedEvent) :
    Within ledStep (FastUntil (t + 60)) events s := by
  induction events generalizing s with
  | nil => trivial
  | cons e rest ih =>
    rcases Nat.lt_or_ge (t + 60) s.module.timeRun with hlate | htime
    · exact fastUntil_late hlate (e :: rest)
    · obtain ⟨hnext, hfast⟩ := h.step e htime
      exact ⟨hfast, ih hnext⟩

/-- While a minute runs, no call up to `limit` comes after its end. -/
def CallsWithin (since limit : Nat) (events : List LedEvent) (s : LedTask) : Prop :=
  ∀ mid period rest, events = mid ++ .ledProgram period :: rest →
    s.module.timeRun + ticks mid ≤ limit → s.module.timeRun + ticks mid ≤ since + 60

theorem callsWithin_cons :
    CallsWithin since limit (e :: rest) s ↔
      (∀ period, e = .ledProgram period → s.module.timeRun ≤ limit →
        s.module.timeRun ≤ since + 60) ∧ CallsWithin since limit rest (ledStep e s) := by
  constructor
  · intro h
    refine ⟨?_, ?_⟩
    · rintro period rfl
      exact h [] period rest rfl
    · rintro mid period after rfl
      rw [ledStep_timeRun, Nat.add_assoc, ← ticks_cons]
      exact h (e :: mid) period after rfl
  · rintro ⟨hhead, hrest⟩ mid period after heq
    cases mid with
    | nil =>
      cases heq
      exact hhead period rfl
    | cons first mid =>
      cases heq
      have hmid := hrest mid period after rfl
      rw [ledStep_timeRun, Nat.add_assoc, ← ticks_cons] at hmid
      exact hmid

theorem callsWithin_late (h : limit < s.module.timeRun) (events : List LedEvent) :
    CallsWithin since limit events s := by
  rintro mid period rest rfl hle
  omega

/-- A minute that runs serves a request exactly as far as it reaches. -/
theorem Flashing.within_iff (h : Flashing since s) (events : List LedEvent) :
    Within ledStep (FastUntil limit) events s ↔ CallsWithin since limit events s := by
  induction events generalizing s with
  | nil => simp [CallsWithin]
  | cons e rest ih =>
    rw [Machine.within_cons, callsWithin_cons]
    cases e with
    | locationRead data =>
      have hnext : Flashing since (ledStep (.locationRead data) s) := ⟨rfl, h.copy, h.lastTime⟩
      exact and_congr (by simp [FastUntil]) (ih hnext)
    | timeRunning =>
      have hnext : Flashing since (ledStep .timeRunning s) := ⟨h.flag, h.copy, h.lastTime⟩
      exact and_congr (by simp [FastUntil]) (ih hnext)
    | ledProgram period =>
      obtain ⟨hrunning, hover⟩ := ledProgram_flashing h period
      rcases Nat.lt_or_ge (since + 60) s.module.timeRun with hlate | htime
      · -- the minute is over: nothing is asked any more, or the call runs in the normal mode
        rcases Nat.lt_or_ge limit s.module.timeRun with hpast | hle
        · have hpast' : limit < (ledStep (.ledProgram period) s).module.timeRun := by
            rw [ledStep_timeRun]
            omega
          exact iff_of_true
            ⟨fun hle => absurd hle (Nat.not_le.mpr hpast), fastUntil_late hpast' rest⟩
            ⟨fun _ _ hle => absurd hle (Nat.not_le.mpr hpast), callsWithin_late hpast' rest⟩
        · refine iff_of_false ?_ fun hcalls => absurd (hcalls.1 period rfl hle) (by omega)
          rintro ⟨hfast, -⟩
          exact absurd ((hover hlate).symm.trans (hfast hle)) (by decide)
      · obtain ⟨hmode, hnext⟩ := hrunning htime
        exact and_congr (by simp [FastUntil, hmode, htime]) (ih hnext)

-- ---------------------------------------------------------------------------
-- What the LED sees of the threads
-- ---------------------------------------------------------------------------

/-- The step carries out a read with LOCATION among its registers. -/
def ReadsLocation : Event → Module → Prop
  | .poll alloc, m =>
    m.Pending ∧ Dispatches m.rx.data m.handedLen m ∧ m.rx.data 1 = readMuti ∧
      alloc.malloc = true ∧ Locates (startReg m.rx.data) (regCount m.rx.data).toNat
  | _, _ => False

instance (e : Event) (m : Module) : Decidable (ReadsLocation e m) := by
  cases e <;> unfold ReadsLocation <;> infer_instance

theorem writeRegister_locationFlag (reg data : U16) (m : Module) :
    (writeRegister reg data m).locationFlag = m.locationFlag := by
  by_cases h : (Register.decode reg).IsSetting
  · obtain ⟨_, _, he, -⟩ := writeRegister_setting (m := m) h
    rw [he]
  · obtain ⟨_, _, _, he⟩ := writeRegister_report (m := m) h
    rw [he]

theorem writeMutiLoop_locationFlag (reg : U16) (data : Nat → U8) (m : Module) (n : Nat) :
    (writeMutiLoop reg data m n).locationFlag = m.locationFlag := by
  induction n with
  | zero => rfl
  | succ n ih => rw [writeMutiLoop, writeRegister_locationFlag, ih]

theorem afterCommand_locationFlag (data : Nat → U8) (alloc : Alloc) (m : Module) :
    (afterCommand data alloc m).locationFlag =
      if data 1 = readMuti ∧ alloc.malloc = true ∧ Locates (startReg data) (regCount data).toNat
      then true else m.locationFlag := by
  unfold afterCommand afterReads
  repeat' split
  all_goals simp_all [writeRegister_locationFlag, writeMutiLoop_locationFlag]

theorem uartPoll_locationFlag (alloc : Alloc) (m : Module) :
    (uartPoll alloc m).locationFlag =
      if ReadsLocation (.poll alloc) m then true else m.locationFlag := by
  by_cases hp : m.Pending
  · rw [uartPoll_pending hp]
    obtain ⟨-, hcode, he⟩ | ⟨hd, he⟩ | ⟨-, hd, he⟩ :=
      uart1Analysis_cases alloc m.rx.data m.handedLen (uart1CleanRecvFlag m) <;> rw [he]
    · rw [if_neg fun h => h.2.1.2.1 hcode]
      obtain ⟨-, -, hr⟩ | ⟨-, hr⟩ := register_cases m.rx.data (uart1CleanRecvFlag m) <;> rw [hr] <;>
        rfl
    · have hafter := afterCommand_locationFlag m.rx.data alloc (uart1CleanRecvFlag m)
      rw [modbusCommandAnalysis_module]
      refine hafter.trans (if_congr ?_ rfl rfl)
      exact ⟨fun h => ⟨hp, hd, h⟩, fun h => h.2.2⟩
    · exact (if_neg fun h => hd h.2.1).symm
  · rw [uartPoll_idle hp]
    exact (if_neg fun h => hp h.1).symm

theorem step_locationFlag (h : e ≠ .reboot) (m : Module) :
    (step e m).locationFlag = if ReadsLocation e m then true else m.locationFlag := by
  cases e with
  | poll alloc => exact uartPoll_locationFlag alloc m
  | reboot => exact absurd rfl h
  | settingPage page =>
    obtain ⟨_, _, _, hm⟩ := (settingPage_menuOnly page m).shape
    rw [step, hm]
    rfl
  | _ => exact (step_untouched (by simp) (by simp) h m).locationFlag

/-- The steps of the LED in a step of the threads, when the timer of a second is
due as it is in `s`. -/
def ledEvents : MainEvent → MainTask → List LedEvent
  | .round _, s =>
    .ledProgram 20 :: if (timerTask s.time1S 50).2 = yes then [.timeRunning] else []
  | .other e, s => if ReadsLocation e s.module then [.locationRead 0] else []

def ledRun : List MainEvent → MainTask → List LedEvent
  | [], _ => []
  | e :: rest, s => ledEvents e s ++ ledRun rest (mainStep e s)

/-- What the LED task reads is the same. -/
structure SameLed (s s' : LedTask) : Prop where
  led : s.led = s'.led
  locationFlag : s.module.locationFlag = s'.module.locationFlag
  timeRun : s.module.timeRun = s'.module.timeRun

theorem SameLed.ledProgram (h : SameLed s s') (period : U8) :
    SameLed (ledProgram period s) (ledProgram period s') := by
  obtain ⟨hled, hflag, htime⟩ := h
  have hfollow : followLocation s.module s.led = followLocation s'.module s'.led := by
    simp only [followLocation, hled, hflag, htime]
  unfold Hvac.ledProgram chooseMode
  simp only [hfollow, htime]
  repeat' split
  · exact ⟨rfl, rfl, htime⟩
  · exact ⟨rfl, hflag, htime⟩
  · exact ⟨rfl, hflag, htime⟩

theorem everySecond_locationFlag (adc : Adc) (m : Module) :
    (everySecond adc m).locationFlag = m.locationFlag := by
  have hwatch := step_locationFlag (e := .monitorConnectedState) (by simp)
    (controlProgram adc (timeRunning m))
  have hcontrol := step_locationFlag (e := .controlProgram adc) (by simp) (timeRunning m)
  exact (hwatch.trans (if_neg id)).trans (hcontrol.trans (if_neg id))

theorem mainStep_sameLed {s : MainTask} (h : SameLed s.toLedTask s')
    (he : ∀ e', e = .other e' → e'.Between) :
    SameLed (mainStep e s).toLedTask (Machine.run ledStep (ledEvents e s) s') := by
  cases e with
  | round adc =>
    obtain ⟨hled, hflag, htime⟩ := h.ledProgram 20
    have hseconds := (mainRound_timer adc s).2
    have hround : (mainRound adc s).module.locationFlag =
        (ledProgram 20 s.toLedTask).module.locationFlag := by
      unfold mainRound
      dsimp only
      split
      · exact everySecond_locationFlag adc _
      · rfl
    rw [ledProgram_timeRun] at htime
    by_cases hdue : (timerTask s.time1S 50).2 = yes
    · rw [if_pos hdue] at hseconds
      rw [ledEvents, if_pos hdue]
      exact ⟨hled, hround.trans hflag, hseconds.trans (congrArg (· + 1) htime)⟩
    · rw [if_neg hdue] at hseconds
      rw [ledEvents, if_neg hdue]
      exact ⟨hled, hround.trans hflag, hseconds.trans htime⟩
  | other e =>
    obtain ⟨hled, hflag, htime⟩ := h
    have hbetween := he e rfl
    have hlocation := step_locationFlag hbetween.2.1 s.module
    have hkept := (step_between hbetween s.module).2.2
    by_cases hreads : ReadsLocation e s.module
    · rw [if_pos hreads] at hlocation
      rw [ledEvents, if_pos hreads]
      exact ⟨hled, hlocation, hkept.trans htime⟩
    · rw [if_neg hreads] at hlocation
      rw [ledEvents, if_neg hreads]
      exact ⟨hled, hlocation.trans hflag, hkept.trans htime⟩

/-- The main loop among the steps of the other threads is for the LED a run of
its three steps. -/
theorem run_sameLed {s : MainTask} (hevents : Interleaved events) (h : SameLed s.toLedTask s') :
    SameLed (Machine.run mainStep events s).toLedTask (Machine.run ledStep (ledRun events s) s') := by
  induction events generalizing s s' with
  | nil => exact h
  | cons e rest ih =>
    have hstep : SameLed (mainStep e s).toLedTask (Machine.run ledStep (ledEvents e s) s') :=
      mainStep_sameLed h fun e' he => hevents e' (he ▸ List.mem_cons_self)
    rw [ledRun, Machine.run_append]
    exact ih (fun e he => hevents e (List.mem_cons_of_mem _ he)) hstep

-- ---------------------------------------------------------------------------
-- Every request
-- ---------------------------------------------------------------------------

theorem honoured_iff (data : U16) (after : List LedEvent) (s : LedTask) :
    Honoured data after s ↔ OwnMinute after s := by
  cases hcopy : s.led.locationFlag with
  | false =>
    have hrequested : Requested s.module.timeRun (ledStep (.locationRead data) s) :=
      ⟨rfl, Nat.le_refl _, fun hraised => absurd (hcopy.symm.trans hraised) (by decide)⟩
    exact iff_of_true (hrequested.within after) (.inl hcopy)
  | true =>
    have hflashing : Flashing s.led.lastTime (ledStep (.locationRead data) s) := ⟨rfl, hcopy, rfl⟩
    rw [Honoured, hflashing.within_iff, OwnMinute, hcopy]
    simp only [reduceCtorEq, false_or, CallsWithin, locationRead_eq, Nat.add_le_add_iff_left]

/-- In every run of the steps, from any state: a request flashes for its full
minute exactly when the task's copy of the flag is down at the request, or no
call within that minute comes after the minute that is running; and so all do
when this is so of each. -/
theorem requests_honoured_iff (start : LedTask) :
    (∀ before data after, Honoured data after (Machine.run ledStep before start) ↔
      OwnMinute after (Machine.run ledStep before start)) ∧
    ∀ events,
      (∀ before data after, events = before ++ .locationRead data :: after →
        Honoured data after (Machine.run ledStep before start)) ↔
      ∀ before data after, events = before ++ .locationRead data :: after →
        OwnMinute after (Machine.run ledStep before start) := by
  refine ⟨fun before data after => honoured_iff data after _, fun events => ?_⟩
  simp only [honoured_iff]

/-- With the copy up, one call of the task past the minute that runs is enough. -/
theorem not_honoured (hcopy : s.led.locationFlag = true) (mid : List LedEvent)
    (hticks : ticks mid ≤ 60) (hlate : s.led.lastTime + 60 < s.module.timeRun + ticks mid)
    (data : U16) :
    ¬Honoured data (mid ++ .ledProgram period :: rest) s := by
  rw [honoured_iff]
  rintro (hdown | hcalls)
  · exact absurd (hcopy.symm.trans hdown) (by decide)
  · have hwithin := hcalls mid period rest rfl hticks
    omega

def firstRequest (seconds : Nat) : List LedEvent :=
  [.locationRead 0, .ledProgram 20] ++ List.replicate seconds .timeRunning

/-- A request in second 50 of the minute of another: the LED is back to normal in
second 61. And a request in second 61, once the task has lowered the flag but not
yet its copy: it is lost, and the LED stays normal. -/
theorem later_requests_not_honoured :
    let m : LedTask := { module := blank, led := {} }
    ¬Honoured 0 (List.replicate 11 .timeRunning ++ [.ledProgram 20])
        (Machine.run ledStep (firstRequest 50) m) ∧
      ¬Honoured 0 [.ledProgram 20]
        (Machine.run ledStep (firstRequest 61 ++ [.ledProgram 20]) m) := by
  intro m
  have hfirst : (Machine.run ledStep (firstRequest 50) m).led.locationFlag = true ∧
      (Machine.run ledStep (firstRequest 50) m).led.lastTime = 0 ∧
      (Machine.run ledStep (firstRequest 50) m).module.timeRun = 50 := by
    decide +kernel
  have hclosed :
      (Machine.run ledStep (firstRequest 61 ++ [.ledProgram 20]) m).led.locationFlag = true ∧
      (Machine.run ledStep (firstRequest 61 ++ [.ledProgram 20]) m).led.lastTime = 0 ∧
      (Machine.run ledStep (firstRequest 61 ++ [.ledProgram 20]) m).module.timeRun = 61 := by
    decide +kernel
  refine ⟨?_, ?_⟩
  · obtain ⟨hcopy, hlast, htime⟩ := hfirst
    exact not_honoured hcopy _ (by decide) (by rw [hlast, htime]; decide) 0
  · obtain ⟨hcopy, hlast, htime⟩ := hclosed
    exact not_honoured hcopy [] (by decide) (by rw [hlast, htime]; decide) 0

end Hvac
