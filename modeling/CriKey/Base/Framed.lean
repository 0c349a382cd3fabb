import Mathlib

/-! Fields that carry their length in front of them: a row of fields can be read in one way only. -/
namespace CriKey.Base
open List
variable {α : Type*} (number : Nat → List α) (sep stop : α)

/-- The length, a separator, the field, and a stop. -/
def frame (value : List α) : List α := number value.length ++ sep :: (value ++ [stop])

def frames (values : List (List α)) : List α := values.flatMap (frame number sep stop)

variable {number sep stop}

/-- What stands before the first separator is the same on both sides. -/
lemma append_separator_inj {xs ys as bs : List α} (hxs : sep ∉ xs) (hys : sep ∉ ys)
    (h : xs ++ sep :: as = ys ++ sep :: bs) : xs = ys ∧ as = bs := by
  induction xs generalizing ys with
  | nil =>
    cases ys with
    | nil => exact ⟨rfl, (cons.inj h).2⟩
    | cons y ys => exact absurd ((cons.inj h).1 ▸ mem_cons_self) hys
  | cons x xs ih =>
    cases ys with
    | nil => exact absurd ((cons.inj h).1.symm ▸ mem_cons_self) hxs
    | cons y ys =>
      obtain ⟨hhead, htail⟩ := cons.inj h
      obtain ⟨hrest, hab⟩ := ih (fun hmem => hxs (mem_cons_of_mem _ hmem))
        (fun hmem => hys (mem_cons_of_mem _ hmem)) htail
      exact ⟨by rw [hhead, hrest], hab⟩

lemma frame_append_inj (hnumber : Function.Injective number) (hsep : ∀ n, sep ∉ number n)
    {a b x y : List α} (h : frame number sep stop a ++ x = frame number sep stop b ++ y) :
    a = b ∧ x = y := by
  rw [frame, frame, append_assoc, append_assoc, cons_append, cons_append] at h
  obtain ⟨hlength, hrest⟩ := append_separator_inj (hsep _) (hsep _) h
  rw [append_assoc, append_assoc] at hrest
  obtain ⟨hab, hxy⟩ := append_inj hrest (hnumber hlength)
  exact ⟨hab, (cons.inj hxy).2⟩

lemma frames_injective (hnumber : Function.Injective number) (hsep : ∀ n, sep ∉ number n) :
    Function.Injective (frames number sep stop) := by
  intro as bs h
  induction as generalizing bs with
  | nil =>
    cases bs with
    | nil => rfl
    | cons b bs => simp [frames, frame] at h
  | cons a as ih =>
    cases bs with
    | nil => simp [frames, frame] at h
    | cons b bs =>
      rw [frames, frames, flatMap_cons, flatMap_cons] at h
      obtain ⟨hab, hrest⟩ := frame_append_inj hnumber hsep h
      rw [hab, ih hrest]

end CriKey.Base
