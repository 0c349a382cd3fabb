import CriKey.Base.Word

/-! Query generations and the tracker that mints them. -/
namespace CriKey.Core
open CriKey.Base

/-- Identifier of one complete launcher search state. -/
structure Generation where
  get : Nat
deriving DecidableEq, Repr

def Generation.zero : Generation := ⟨0⟩

lemma Generation.get_injective : Function.Injective Generation.get := by
  rintro ⟨a⟩ ⟨b⟩ h
  exact congrArg Generation.mk h

instance : LinearOrder Generation := LinearOrder.lift' Generation.get Generation.get_injective

lemma Generation.le_iff (a b : Generation) : a ≤ b ↔ a.get ≤ b.get := .rfl

lemma Generation.lt_iff (a b : Generation) : a < b ↔ a.get < b.get := .rfl

inductive CoreError where
  | staleGeneration (got current : Nat)
  | cancelled
  | capacityExceeded (what : String)
  | invalid (message : String)

structure GenerationTracker where
  counter : Nat

namespace GenerationTracker

def new : GenerationTracker := ⟨0⟩

def current (t : GenerationTracker) : Generation := ⟨t.counter⟩

/-- The counter never wraps: at the top the call fails and leaves it there. -/
def tryAdvance (t : GenerationTracker) : Except CoreError (GenerationTracker × Generation) :=
  if t.counter < u64Max then .ok (⟨t.counter + 1⟩, ⟨t.counter + 1⟩)
  else .error (.capacityExceeded "query generations")

/-- `none` is the panic of the infallible variant. -/
def advance (t : GenerationTracker) : Option (GenerationTracker × Generation) :=
  match t.tryAdvance with
  | .ok r => some r
  | .error _ => none

lemma advance_eq_some {t t' : GenerationTracker} {g : Generation}
    (h : t.advance = some (t', g)) : t'.counter = t.counter + 1 ∧ g = t'.current := by
  unfold advance tryAdvance at h
  by_cases hlt : t.counter < u64Max
  · simp only [hlt, if_true, Option.some.injEq, Prod.mk.injEq] at h
    obtain ⟨rfl, rfl⟩ := h
    exact ⟨rfl, rfl⟩
  · simp [hlt] at h

lemma advance_of_lt {t : GenerationTracker} (h : t.counter < u64Max) :
    t.advance = some (⟨t.counter + 1⟩, ⟨t.counter + 1⟩) := by
  simp [advance, tryAdvance, h]

end GenerationTracker
end CriKey.Core
