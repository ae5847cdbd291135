import Mathlib.Logic.Function.Basic

/-!
# Stores

A store keeps one value for each key. A key may keep less of a value than was
written to it: `fit k v` is what key `k` keeps of `v`. After any writes a key
holds what it keeps of the last value written to it.
-/

namespace Store

variable {κ ν : Type*} [DecidableEq κ]

def put (fit : κ → ν → ν) (write : κ × ν) (file : κ → ν) : κ → ν :=
  Function.update file write.1 (fit write.1 write.2)

def putAll (fit : κ → ν → ν) : List (κ × ν) → (κ → ν) → κ → ν
  | [], file => file
  | write :: rest, file => putAll fit rest (put fit write file)

def lastWrite : List (κ × ν) → κ → Option ν
  | [], _ => none
  | (key, v) :: rest, k => (lastWrite rest k).or (if key = k then some v else none)

variable {fit : κ → ν → ν} {file : κ → ν} {k : κ}

theorem put_self (v : ν) : put fit (k, v) file k = fit k v := Function.update_self ..

theorem put_of_ne (h : k ≠ key) (v : ν) : put fit (key, v) file k = file k :=
  Function.update_of_ne h ..

theorem putAll_eq_lastWrite (writes : List (κ × ν)) :
    putAll fit writes file k = ((lastWrite writes k).map (fit k)).getD (file k) := by
  induction writes generalizing file with
  | nil => rfl
  | cons write rest ih =>
    obtain ⟨key, v⟩ := write
    rw [putAll, ih, lastWrite]
    cases lastWrite rest k with
    | some last => rfl
    | none =>
      by_cases h : key = k
      · subst h
        simp [put_self]
      · simp [h, put_of_ne (Ne.symm h)]

end Store
