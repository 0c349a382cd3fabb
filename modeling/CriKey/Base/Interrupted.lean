import Mathlib

/-! Programs whose operations may fail or be cut short, and the slots they move things between. -/
namespace CriKey.Base
open Function
variable {σ ρ κ α : Type*}

/-- What becomes of one operation: it may also be the last thing the process lives to do. -/
inductive Fate where
  | works
  | fails
  | stopsBefore
  | stopsAfter
deriving DecidableEq, Repr

/-- How a program ends, and the state it leaves. -/
inductive Ending (σ ρ : Type*) where
  | stopped (state : σ)
  | returned (state : σ) (result : ρ)
deriving DecidableEq, Repr

def Ending.state : Ending σ ρ → σ
  | stopped state => state
  | returned state _ => state

/-- One operation. It has no effect to offer in a state that refuses it, and then it fails however
kind its fate is. -/
def Fate.perform (fate : Fate) (effect : Option σ) (s : σ) (failed next : σ → Ending σ ρ) :
    Ending σ ρ :=
  match fate, effect with
  | works, some t => next t
  | works, none => failed s
  | fails, _ => failed s
  | stopsBefore, _ => .stopped s
  | stopsAfter, some t => .stopped t
  | stopsAfter, none => .stopped s

section
variable {fate : Fate} {effect : Option σ} {s t : σ} {failed next : σ → Ending σ ρ}

@[simp] lemma Fate.works_perform : works.perform (some t) s failed next = next t := rfl

@[simp] lemma Fate.works_perform_none : works.perform none s failed next = failed s := rfl

/-- What an operation leaves is what one of its four fates leaves. -/
lemma Fate.perform_rule {motive : Ending σ ρ → Prop} (hstop : motive (.stopped s))
    (hdone : ∀ t, effect = some t → fate = stopsAfter → motive (.stopped t))
    (hfail : motive (failed s)) (hnext : ∀ t, effect = some t → fate = works → motive (next t)) :
    motive (fate.perform effect s failed next) := by
  cases fate with
  | works =>
    cases effect with
    | none => exact hfail
    | some t => exact hnext t rfl rfl
  | fails => exact hfail
  | stopsBefore => exact hstop
  | stopsAfter =>
    cases effect with
    | none => exact hstop
    | some t => exact hdone t rfl rfl

end

abbrev Slots (κ α : Type*) := κ → Option α

namespace Slots
variable [DecidableEq κ]

def move (slots : Slots κ α) (a b : κ) : Slots κ α :=
  Function.update (Function.update slots b (slots a)) a none

variable {slots : Slots κ α} {a b k : κ}

@[simp] lemma move_source : slots.move a b a = none := update_self ..

lemma move_target (h : b ≠ a) : slots.move a b b = slots a := by
  rw [move, update_of_ne h, update_self]

lemma move_of_ne (ha : k ≠ a) (hb : k ≠ b) : slots.move a b k = slots k := by
  rw [move, update_of_ne ha, update_of_ne hb]

/-- Moving keeps what every slot outside a set may hold, when it moves between such slots. -/
lemma move_invariant {p : κ → Prop} {q : α → Prop} (ha : p a)
    (h : ∀ k, p k → ∀ x, slots k = some x → q x) :
    ∀ k, p k → ∀ x, slots.move a b k = some x → q x := by
  intro k hk x hx
  by_cases hka : k = a
  · rw [hka, move_source] at hx
    cases hx
  by_cases hkb : k = b
  · rw [hkb, move_target (fun heq => hka (hkb.trans heq))] at hx
    exact h a ha x hx
  · rw [move_of_ne hka hkb] at hx
    exact h k hk x hx

lemma update_invariant {p : κ → Prop} {q : α → Prop} {value : Option α}
    (hvalue : p a → ∀ x, value = some x → q x) (h : ∀ k, p k → ∀ x, slots k = some x → q x) :
    ∀ k, p k → ∀ x, Function.update slots a value k = some x → q x := by
  intro k hk x hx
  by_cases hka : k = a
  · rw [hka, update_self] at hx
    exact hvalue (hka ▸ hk) x hx
  · rw [update_of_ne hka] at hx
    exact h k hk x hx

end Slots

end CriKey.Base
