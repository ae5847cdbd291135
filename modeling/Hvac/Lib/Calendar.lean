import Mathlib.Init

/-!
# Calendar dates

Dates of the Gregorian calendar, the day after a date, and what a normalising
conversion makes of a day past the end of its month.
-/

namespace Calendar

def isLeap (year : Nat) : Bool := year % 4 = 0 && (year % 100 ≠ 0 || year % 400 = 0)

/-- The days of a month, the months counted from one. -/
def daysIn (leap : Bool) (month : Nat) : Nat :=
  match month with
  | 2 => if leap then 29 else 28
  | 4 | 6 | 9 | 11 => 30
  | _ => 31

theorem daysIn_le (leap : Bool) (month : Nat) : daysIn leap month ≤ 31 := by
  unfold daysIn
  split <;> cases leap <;> decide

theorem le_daysIn (leap : Bool) (month : Nat) : 28 ≤ daysIn leap month := by
  unfold daysIn
  split <;> cases leap <;> decide

theorem daysIn_of_ne (leap leap' : Bool) (h : month ≠ 2) :
    daysIn leap month = daysIn leap' month := by
  unfold daysIn
  split <;> first | rfl | exact absurd rfl h

/-- February is the shortest month. -/
theorem daysIn_two_le (leap : Bool) (month : Nat) : daysIn leap 2 ≤ daysIn leap month := by
  cases leap
  · exact le_daysIn false month
  · change 29 ≤ daysIn true month
    unfold daysIn
    split <;> decide

structure Date where
  year : Nat
  month : Nat
  day : Nat
  deriving DecidableEq, Repr

namespace Date

variable {d : Date}

def lastDay (d : Date) : Nat := daysIn (isLeap d.year) d.month

structure Valid (d : Date) : Prop where
  month_pos : 1 ≤ d.month
  month_le : d.month ≤ 12
  day_pos : 1 ≤ d.day
  day_le : d.day ≤ d.lastDay

theorem Valid.day_le_31 (h : Valid d) : d.day ≤ 31 := Nat.le_trans h.day_le (daysIn_le _ _)

/-- The day after. -/
def next (d : Date) : Date :=
  if d.day < d.lastDay then { d with day := d.day + 1 }
  else if d.month < 12 then { d with month := d.month + 1, day := 1 }
  else { year := d.year + 1, month := 1, day := 1 }

theorem next_valid (h : Valid d) : d.next.Valid := by
  obtain ⟨hmonth, hmonth', hday, -⟩ := h
  unfold next
  split
  · rename_i hlt
    exact ⟨hmonth, hmonth', Nat.succ_pos _, hlt⟩
  split
  · rename_i hlt
    exact ⟨Nat.succ_pos _, hlt, Nat.le_refl 1, Nat.le_trans (show 1 ≤ 28 by decide) (le_daysIn ..)⟩
  · exact ⟨Nat.le_refl 1, show 1 ≤ 12 by decide, Nat.le_refl 1, show 1 ≤ 31 by decide⟩

theorem next_year (d : Date) : d.year ≤ d.next.year ∧ d.next.year ≤ d.year + 1 := by
  unfold next
  repeat' split
  · exact ⟨Nat.le_refl _, Nat.le_succ _⟩
  · exact ⟨Nat.le_refl _, Nat.le_succ _⟩
  · exact ⟨Nat.le_succ _, Nat.le_refl _⟩

/-- The days past the end of a month are those of the next. -/
def carry (d : Date) : Date :=
  if d.day ≤ d.lastDay then d else { d with month := d.month + 1, day := d.day - d.lastDay }

theorem carry_of_le (h : d.day ≤ d.lastDay) : d.carry = d := if_pos h

theorem carry_of_lt (h : d.lastDay < d.day) :
    d.carry = { d with month := d.month + 1, day := d.day - d.lastDay } :=
  if_neg (Nat.not_le_of_lt h)

@[simp] theorem carry_year (d : Date) : d.carry.year = d.year := by
  unfold carry
  split <;> rfl

/-- No month is so short that 31 days reach past the next, and December has as many. -/
theorem carry_valid (hmonth : 1 ≤ d.month) (hmonth' : d.month ≤ 12) (hday : 1 ≤ d.day)
    (hday' : d.day ≤ 31) : d.carry.Valid := by
  by_cases h : d.day ≤ d.lastDay
  · rw [carry_of_le h]
    exact ⟨hmonth, hmonth', hday, h⟩
  · have hlt := Nat.lt_of_not_le h
    have hlong := le_daysIn (isLeap d.year) d.month
    have hnext := le_daysIn (isLeap d.year) (d.month + 1)
    have hdecember : d.month ≠ 12 := by
      intro hmonth
      have hlast : d.lastDay = 31 := by simp [lastDay, hmonth, daysIn]
      omega
    rw [carry_of_lt hlt]
    simp only [lastDay] at hlt ⊢
    constructor <;> simp only [lastDay] <;> omega

end Date

end Calendar
