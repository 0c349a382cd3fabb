import Mathlib

/-! Computations that may be refused: a result tells that every step before it gave one. -/
namespace CriKey.Base
open List Except
universe u
variable {ε : Type*} {α β : Type u}

variable {f : α → Except ε β}

lemma bind_eq_ok {x : Except ε α} {b : β} : (x >>= f) = .ok b ↔ ∃ a, x = .ok a ∧ f a = .ok b := by
  cases x with
  | error e => exact ⟨nofun, nofun⟩
  | ok a =>
    constructor
    · intro h
      exact ⟨a, rfl, h⟩
    · intro ⟨_, h, hf⟩
      cases h
      exact hf

lemma toOption_eq_some {x : Except ε α} {a : α} : x.toOption = some a ↔ x = .ok a := by
  cases x with
  | error e => exact ⟨nofun, nofun⟩
  | ok b => exact ⟨fun h => congrArg ok (Option.some_inj.mp h), fun h => congrArg some (ok.inj h)⟩

lemma check_eq_ok {c : Prop} [Decidable c] {e : ε} {x : Except ε β} {b : β} :
    (if c then .error e else x) = .ok b ↔ ¬ c ∧ x = .ok b := by
  by_cases hc : c
  · simp [hc]
  · simp [hc]

lemma mapM_eq_ok {xs : List α} {ys : List β} :
    xs.mapM f = .ok ys ↔ List.Forall₂ (fun x y => f x = .ok y) xs ys := by
  induction xs generalizing ys with
  | nil =>
    rw [mapM_nil, forall₂_nil_left_iff]
    exact ⟨fun h => (ok.inj h).symm, fun h => h ▸ rfl⟩
  | cons x xs ih =>
    simp only [mapM_cons, bind_eq_ok, forall₂_cons_left_iff, ih]
    constructor
    · intro ⟨y, hx, ys', hxs, hys⟩
      exact ⟨y, ys', hx, hxs, (ok.inj hys).symm⟩
    · intro ⟨y, ys', hx, hxs, hys⟩
      exact ⟨y, hx, ys', hxs, hys ▸ rfl⟩

lemma exists_mapM_eq_ok {xs : List α} :
    (∃ ys, xs.mapM f = .ok ys) ↔ ∀ x ∈ xs, ∃ y, f x = .ok y := by
  induction xs with
  | nil => exact ⟨fun _ => by simp, fun _ => ⟨[], rfl⟩⟩
  | cons x xs ih =>
    rw [forall_mem_cons, ← ih]
    simp only [mapM_eq_ok, forall₂_cons_left_iff]
    constructor
    · intro ⟨_, y, ys, hx, hxs, _⟩
      exact ⟨⟨y, hx⟩, ys, hxs⟩
    · intro ⟨⟨y, hx⟩, ys, hxs⟩
      exact ⟨y :: ys, y, ys, hx, hxs, rfl⟩

end CriKey.Base
