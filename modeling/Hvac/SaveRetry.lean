import Hvac.Persistence

/-!
# Saves that fail

`SaveGlobalInfo` remembers the CRC before it writes and does not look at what
`flash_write` returns. Once a write was tried, the settings count as saved.
-/

namespace Hvac

/-- The erase fails, or the programming of one of the four double words. -/
def FlashOps.Faulty (ops : FlashOps) : Prop := ops.erase = false ∨ ∃ i < 4, ops.program i = false

instance (ops : FlashOps) : Decidable ops.Faulty := inferInstanceAs (Decidable (_ ∨ _))

/-- A save calls `flash_write`. -/
def SaveWrites (m : Module) : Prop := m.lastCrc ≠ usModbusRtuCrc m.info.covered

instance (m : Module) : Decidable (SaveWrites m) := inferInstanceAs (Decidable (_ ≠ _))

/-- Saves one after another, with what the flash answers each; the settings are
not touched between them. -/
def saves (history : List FlashOps) (m : Module) : Module := Machine.run saveGlobalInfo history m

theorem saveGlobalInfo_of_writes (h : SaveWrites m) (ops : FlashOps) :
    saveGlobalInfo ops m =
      { m with
        lastCrc := usModbusRtuCrc m.info.covered
        info := m.info.sealed
        flash := flashWrite ops m.info.sealed.toBytes m.flash } := if_pos h

theorem saveGlobalInfo_of_not_writes (h : ¬SaveWrites m) (ops : FlashOps) :
    saveGlobalInfo ops m = m := if_neg h

/-- A save, however it went, is the last to write. -/
theorem not_saveWrites_saveGlobalInfo (ops : FlashOps) (m : Module) :
    ¬SaveWrites (saveGlobalInfo ops m) := by
  by_cases h : SaveWrites m
  · rw [saveGlobalInfo_of_writes h]
    exact fun hne => hne rfl
  · rwa [saveGlobalInfo_of_not_writes h]

theorem saves_of_not_writes (h : ¬SaveWrites m) (history : List FlashOps) :
    saves history m = m := by
  induction history with
  | nil => rfl
  | cons ops rest ih =>
    rw [saves, Machine.run_cons, saveGlobalInfo_of_not_writes h]
    exact ih

/-- All saves together do what the first one did. -/
theorem saves_cons (ops : FlashOps) (rest : List FlashOps) (m : Module) :
    saves (ops :: rest) m = saveGlobalInfo ops m :=
  saves_of_not_writes (not_saveWrites_saveGlobalInfo ops m) rest

/-- The page keeps what the first write left in it. -/
theorem saves_flash (h : SaveWrites m) (ops : FlashOps) (rest : List FlashOps) :
    (saves (ops :: rest) m).flash = flashWrite ops m.info.sealed.toBytes m.flash := by
  rw [saves_cons, saveGlobalInfo_of_writes h]

/-- A save that fails in its writing is tried again by the next one, and after the
first that does not fail the page holds the settings. -/
def Retried (history : List FlashOps) (m : Module) : Prop :=
  ∀ before ops after, history = before ++ ops :: after → SaveWrites (saves before m) → ops.Faulty →
    (after ≠ [] → SaveWrites (saves (before ++ [ops]) m)) ∧
    ∀ failing good rest, after = failing ++ good :: rest → (∀ ops ∈ failing, ops.Faulty) →
      ¬good.Faulty →
        (saves (before ++ ops :: failing ++ [good]) m).flash =
          (saves (before ++ ops :: failing ++ [good]) m).info.toBytes

/-- A write that failed is not tried again. -/
theorem not_retried (hwrites : SaveWrites m) (hfails : ops.Faulty) (hrest : rest ≠ []) :
    ¬Retried (ops :: rest) m := by
  intro h
  have hagain := (h [] ops rest rfl hwrites hfails).1 hrest
  exact not_saveWrites_saveGlobalInfo ops m hagain

/-- From every state and for every history of the flash: failed saves are tried
again exactly when the first save has nothing to write, or does not fail, or is
the last. -/
theorem retried_iff (history : List FlashOps) (m : Module) :
    Retried history m ↔
      ∀ ops rest, history = ops :: rest → SaveWrites m → ops.Faulty → rest = [] := by
  constructor
  · rintro h ops rest rfl hwrites hfails
    by_contra hrest
    exact not_retried hwrites hfails hrest h
  · rintro h before ops after rfl hwrites hfails
    cases before with
    | nil =>
      obtain rfl := h ops after rfl hwrites hfails
      refine ⟨fun hne => absurd rfl hne, fun failing good rest heq => ?_⟩
      cases failing <;> cases heq
    | cons first before =>
      rw [saves_cons] at hwrites
      exact absurd hwrites (not_saveWrites_saveGlobalInfo first m)

/-- The erase fails once; the next save finds nothing to do, and the page stays
as empty as it was. -/
theorem retried_fails : ¬Retried [⟨false, fun _ => true⟩, .succeed] blank ∧
    (saves [⟨false, fun _ => true⟩, .succeed] blank).flash = [] := by
  have hwrites : SaveWrites blank := by decide +kernel
  exact ⟨not_retried hwrites (.inl rfl) (List.cons_ne_nil _ _), saves_flash hwrites _ _⟩

end Hvac
