import Mathlib

/-! Lists cut at a separator and joined again. -/
namespace CriKey.Base
open List
variable {α : Type*} [DecidableEq α] {sep : α} {xs ys part : List α} {parts : List (List α)}

lemma notMem_of_mem_splitOn (h : part ∈ xs.splitOn sep) : sep ∉ part := by
  induction xs generalizing part with
  | nil =>
    rw [splitOn_nil, mem_singleton] at h
    simp [h]
  | cons x xs ih =>
    rw [splitOn_cons_eq_if_modifyHead] at h
    split at h
    case isTrue =>
      cases mem_cons.mp h with
      | inl hempty => simp [hempty]
      | inr hrest => exact ih hrest
    case isFalse hne =>
      obtain ⟨head, tail, hsplit⟩ := exists_cons_of_ne_nil (splitOn_ne_nil sep xs)
      rw [hsplit, modifyHead_cons, mem_cons] at h
      cases h with
      | inl hhead =>
        have hsep : sep ∉ head := ih (hsplit ▸ mem_cons_self)
        have hx : sep ≠ x := fun heq => hne (by simp [heq])
        simp [hhead, hsep, hx]
      | inr htail => exact ih (hsplit ▸ mem_cons_of_mem _ htail)

lemma splitOn_of_notMem (h : sep ∉ xs) : xs.splitOn sep = [xs] := by
  refine splitOnP_eq_singleton fun x hx => ?_
  rw [beq_eq_false_iff_ne]
  exact fun heq => h (heq ▸ hx)

omit [DecidableEq α] in
lemma intercalate_cons (first : List α) (parts : List (List α)) :
    [sep].intercalate (first :: parts) = first ++ parts.flatMap (sep :: ·) := by
  induction parts generalizing first with
  | nil => simp [intercalate]
  | cons second parts ih =>
    rw [intercalate_cons_cons, ih, flatMap_cons, append_assoc]
    rfl

lemma mem_iff_splitOn {x : α} (hx : x ≠ sep) : x ∈ xs ↔ ∃ part ∈ xs.splitOn sep, x ∈ part := by
  obtain ⟨first, rest, hsplit⟩ := exists_cons_of_ne_nil (splitOn_ne_nil sep xs)
  have hjoined : xs = first ++ rest.flatMap (sep :: ·) := by
    rw [← intercalate_cons, ← hsplit, intercalate_splitOn]
  rw [hsplit, hjoined, mem_append, mem_flatMap]
  simp only [mem_cons, exists_eq_or_imp, hx, false_or]

lemma splitOn_injective (h : xs.splitOn sep = ys.splitOn sep) : xs = ys := by
  have hjoined := congrArg [sep].intercalate h
  rwa [intercalate_splitOn, intercalate_splitOn] at hjoined

/-- The parts of one list continue those of another exactly when a separator follows it. -/
lemma splitOn_append_iff : (∃ rest, rest ≠ [] ∧ ys.splitOn sep = xs.splitOn sep ++ rest) ↔
    ∃ rest, ys = xs ++ sep :: rest := by
  constructor
  · intro ⟨rest, hne, hsplit⟩
    obtain ⟨second, rest, rfl⟩ := exists_cons_of_ne_nil hne
    obtain ⟨first, mid, hfirst⟩ := exists_cons_of_ne_nil (splitOn_ne_nil sep xs)
    have hx : xs = first ++ mid.flatMap (sep :: ·) := by
      rw [← intercalate_cons, ← hfirst, intercalate_splitOn]
    have hy : ys = first ++ (mid ++ second :: rest).flatMap (sep :: ·) := by
      rw [← intercalate_cons, ← cons_append, ← hfirst, ← hsplit, intercalate_splitOn]
    refine ⟨second ++ rest.flatMap (sep :: ·), ?_⟩
    rw [hy, hx, flatMap_append, flatMap_cons]
    simp
  · intro ⟨rest, hrest⟩
    refine ⟨rest.splitOn sep, splitOn_ne_nil _ _, ?_⟩
    rw [hrest, splitOn_append_cons_self]

end CriKey.Base
