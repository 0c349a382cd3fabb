import Mathlib

/-! Unsigned 64-bit arithmetic on natural numbers: additions that stop at the top
instead of wrapping. -/
namespace CriKey.Base

def u64Max : Nat := 18446744073709551615

def satAdd (a b : Nat) : Nat := min (a + b) u64Max

lemma satAdd_le_add (a b : Nat) : satAdd a b ≤ a + b := Nat.min_le_left _ _

lemma satAdd_le_max (a b : Nat) : satAdd a b ≤ u64Max := Nat.min_le_right _ _

/-- Machine subtraction: `none` is the underflow. -/
def checkedSub (a b : Nat) : Option Nat := if b ≤ a then some (a - b) else none

/-- Machine addition: `none` is the overflow. -/
def checkedAdd (a b : Nat) : Option Nat := if a + b ≤ u64Max then some (a + b) else none

variable {a b : Nat}

lemma checkedSub_of_le (h : b ≤ a) : checkedSub a b = some (a - b) := if_pos h

lemma checkedSub_eq_some {c : Nat} (h : checkedSub a b = some c) : a = c + b := by
  unfold checkedSub at h
  by_cases hle : b ≤ a
  · rw [if_pos hle, Option.some.injEq] at h
    omega
  · simp [hle] at h

lemma checkedAdd_of_le (h : a + b ≤ u64Max) : checkedAdd a b = some (a + b) :=
  if_pos h

lemma checkedAdd_eq_some {c : Nat} (h : checkedAdd a b = some c) : c = a + b := by
  unfold checkedAdd at h
  by_cases hle : a + b ≤ u64Max
  · rw [if_pos hle, Option.some.injEq] at h
    exact h.symm
  · simp [hle] at h

lemma satAdd_of_lt (h : satAdd a b < u64Max) : satAdd a b = a + b := by
  unfold satAdd at *
  omega

/-- Adding to a count that saturated is adding to the true count. -/
lemma satAdd_min (a n : Nat) : satAdd (min a u64Max) n = min (a + n) u64Max := by
  unfold satAdd
  generalize u64Max = m
  omega

lemma satAdd_min_right (a n : Nat) : satAdd a (min n u64Max) = satAdd a n := by
  unfold satAdd
  generalize u64Max = m
  omega

lemma min_add_satAdd (a b n : Nat) : min (a + satAdd b n) u64Max = min (a + b + n) u64Max := by
  unfold satAdd
  generalize u64Max = m
  omega

end CriKey.Base
