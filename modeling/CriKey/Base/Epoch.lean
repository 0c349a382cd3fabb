import Mathlib

/-! A moving epoch: at most one active stamp and a floor below which none can be active
again. Stamps that were passed stay passed. -/
namespace CriKey.Base
open Option

structure Epoch (γ : Type*) where
  floor : γ
  active : Option γ

namespace Epoch
variable {γ : Type*} [LinearOrder γ]

def start (e : Epoch γ) (g : γ) : Epoch γ :=
  if g < e.floor then e
  else if e.active.any fun active => g ≤ active then e
  else { e with active := some g }

def retire (e : Epoch γ) (g : γ) : Epoch γ :=
  if g ≤ e.floor then e
  else ⟨g, if e.active.any fun active => active < g then none else e.active⟩

/-- The stamp is not above anything that can still be active. -/
def Below (e : Epoch γ) (g : γ) : Prop :=
  match e.active with
  | some active => g ≤ active
  | none => g < e.floor

/-- One move of an epoch. -/
inductive Turn (e : Epoch γ) : Epoch γ → Prop
  | still : Turn e e
  | started (g : γ) : Turn e (e.start g)
  | retired (g : γ) : Turn e (e.retire g)

variable {e e' : Epoch γ} {g h a : γ}

lemma below_of_some (ha : e.active = some a) : e.Below g ↔ g ≤ a := by
  simp only [Below, ha]

lemma below_of_none (ha : e.active = none) : e.Below g ↔ g < e.floor := by
  simp only [Below, ha]

lemma start_below (hg : e.Below g) (h : γ) :
    (e.start h).Below g ∧ ((e.start h).active = some g → e.active = some g) := by
  unfold start
  by_cases hfloor : h < e.floor
  · rw [if_pos hfloor]
    exact ⟨hg, id⟩
  rw [if_neg hfloor]
  by_cases hold : (e.active.any fun active => decide (h ≤ active)) = true
  · rw [if_pos hold]
    exact ⟨hg, id⟩
  rw [if_neg hold]
  have hlt : g < h := by
    cases ha : e.active with
    | none => exact ((below_of_none ha).mp hg).trans_le (not_lt.mp hfloor)
    | some a =>
      have hah : a < h := by simpa [ha] using hold
      exact ((below_of_some ha).mp hg).trans_lt hah
  refine ⟨(below_of_some rfl).mpr hlt.le, ?_⟩
  intro hsome
  exact absurd (some.inj hsome) hlt.ne'

lemma retire_below (hg : e.Below g) (h : γ) :
    (e.retire h).Below g ∧ ((e.retire h).active = some g → e.active = some g) := by
  unfold retire
  by_cases hfloor : h ≤ e.floor
  · rw [if_pos hfloor]
    exact ⟨hg, id⟩
  rw [if_neg hfloor]
  cases ha : e.active with
  | none =>
    refine ⟨(below_of_none rfl).mpr ?_, id⟩
    exact ((below_of_none ha).mp hg).trans (not_le.mp hfloor)
  | some a =>
    have hle := (below_of_some ha).mp hg
    by_cases hlt : a < h
    · simp only [any_some, hlt, decide_true, if_true]
      exact ⟨(below_of_none rfl).mpr (hle.trans_lt hlt), by simp⟩
    · simp only [any_some, hlt, decide_false, Bool.false_eq_true, if_false]
      exact ⟨(below_of_some rfl).mpr hle, id⟩

lemma Turn.below (h : Turn e e') (hg : e.Below g) : e'.Below g := by
  cases h with
  | still => exact hg
  | started h => exact (start_below hg h).1
  | retired h => exact (retire_below hg h).1

lemma Turn.active_of (h : Turn e e') (hg : e.Below g) (ha : e'.active = some g) :
    e.active = some g := by
  cases h with
  | still => exact ha
  | started h => exact (start_below hg h).2 ha
  | retired h => exact (retire_below hg h).2 ha

end Epoch
end CriKey.Base
