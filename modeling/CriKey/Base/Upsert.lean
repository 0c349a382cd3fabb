import Mathlib

/-! Keyed lists in first-insertion order: a value with a known key replaces the old one in
place, any other value goes to the end. An index that knows the slot of every key finds
the place without searching. -/
namespace CriKey.Base
open List Option
variable {α κ : Type*} [DecidableEq κ] (key : α → κ)

def upsert (x : α) : List α → List α
  | [] => [x]
  | y :: ys => if key y = key x then x :: ys else y :: upsert x ys

/-- Upserting the values of a list, first to last. -/
def upsertAll (xs new : List α) : List α := new.foldl (fun xs x => upsert key x xs) xs

omit [DecidableEq κ] in
/-- `lookup` knows the slot of every key of the list, and nothing else. -/
def Indexed (lookup : κ → Option Nat) (xs : List α) : Prop :=
  ∀ k i, lookup k = some i ↔ (xs.map key)[i]? = some k

variable {key} {xs : List α} {x : α}

lemma upsert_of_notMem (h : key x ∉ xs.map key) : upsert key x xs = xs ++ [x] := by
  induction xs with
  | nil => rfl
  | cons y ys ih =>
    rw [map_cons, mem_cons, not_or] at h
    rw [upsert, if_neg fun he => h.1 he.symm, ih h.2, cons_append]

lemma map_upsert : (upsert key x xs).map key =
      if key x ∈ xs.map key then xs.map key else xs.map key ++ [key x] := by
  induction xs with
  | nil => rfl
  | cons y ys ih =>
    by_cases hy : key y = key x
    · simp [upsert, hy]
    rw [upsert, if_neg hy, map_cons, ih]
    by_cases hmem : key x ∈ ys.map key
    · simp only [hmem, if_true, map_cons, mem_cons, or_true]
    have hmem' : key x ∉ (y :: ys).map key := by
      rw [map_cons, mem_cons, not_or]
      exact ⟨Ne.symm hy, hmem⟩
    rw [if_neg hmem, if_neg hmem', map_cons, cons_append]

variable {i : Nat}

lemma upsert_of_slot (hn : (xs.map key).Nodup) (hi : (xs.map key)[i]? = some (key x)) :
    upsert key x xs = xs.set i x := by
  induction xs generalizing i with
  | nil => simp at hi
  | cons y ys ih =>
    rw [map_cons, nodup_cons] at hn
    cases i with
    | zero =>
      have hy : key y = key x := by simpa using hi
      rw [upsert, if_pos hy, set_cons_zero]
    | succ i =>
      have hi' : (ys.map key)[i]? = some (key x) := by simpa using hi
      have hmem : key x ∈ ys.map key := mem_of_getElem? hi'
      have hy : key y ≠ key x := fun he => hn.1 (he ▸ hmem)
      rw [upsert, if_neg hy, set_cons_succ, ih hn.2 hi']

omit [DecidableEq κ] in
lemma map_set_of_slot (hi : (xs.map key)[i]? = some (key x)) :
    (xs.set i x).map key = xs.map key := by
  rw [map_set]
  apply ext_getElem?
  intro j
  by_cases hj : i = j
  · subst hj
    have hlt : i < (xs.map key).length := (List.getElem?_eq_some_iff.mp hi).1
    rw [getElem?_set_self hlt, hi]
  · rw [getElem?_set_ne hj]

/-! The list upserting builds, said without the building. -/

variable (key) in
/-- Each key where it comes first, with the value that comes last. -/
def firstLast (xs : List α) : List α :=
  ((xs.map key).eraseDups).filterMap fun k => xs.reverse.find? (key · = k)

lemma nodup_upsert (h : (xs.map key).Nodup) : ((upsert key x xs).map key).Nodup := by
  rw [map_upsert]
  split
  · exact h
  rename_i hx
  exact nodup_append.mpr ⟨h, nodup_singleton _, by
    intro a ha b hb
    rw [mem_singleton.mp hb]
    exact fun he => hx (he ▸ ha)⟩

variable {new : List α}

lemma nodup_upsertAll (h : (xs.map key).Nodup) : ((upsertAll key xs new).map key).Nodup := by
  induction new generalizing xs with
  | nil => exact h
  | cons x new ih => exact ih (nodup_upsert h)

lemma upsertAll_append (xs a b : List α) :
    upsertAll key xs (a ++ b) = upsertAll key (upsertAll key xs a) b := foldl_append

/-- Values with new and distinct keys are appended as they are. -/
lemma upsertAll_of_nodup (h : ((xs ++ new).map key).Nodup) : upsertAll key xs new = xs ++ new := by
  induction new generalizing xs with
  | nil => exact (append_nil xs).symm
  | cons x new ih =>
    have hx : key x ∉ xs.map key := by
      rw [map_append, nodup_append] at h
      exact fun hmem => h.2.2 _ hmem _ mem_cons_self rfl
    have hstep : upsertAll key xs (x :: new) = upsertAll key (upsert key x xs) new := rfl
    rw [hstep, upsert_of_notMem hx, ih (by simpa using h), append_assoc, singleton_append]

/-- With a known key, upserting replaces the values that carry it. -/
lemma upsert_of_mem (hn : (xs.map key).Nodup) (h : key x ∈ xs.map key) :
    upsert key x xs = xs.map fun y => if key y = key x then x else y := by
  induction xs with
  | nil => simp at h
  | cons y ys ih =>
    rw [map_cons, nodup_cons] at hn
    by_cases hy : key y = key x
    · rw [upsert, if_pos hy, map_cons, if_pos hy]
      have hrest : ys.map (fun y => if key y = key x then x else y) = ys.map id := by
        apply map_congr_left
        intro z hz
        refine if_neg fun he => hn.1 ?_
        rw [hy, ← he]
        exact mem_map_of_mem hz
      rw [hrest, List.map_id]
    · have hmem : key x ∈ ys.map key := by
        rw [map_cons, mem_cons] at h
        exact h.resolve_left (Ne.symm hy)
      rw [upsert, if_neg hy, map_cons, if_neg hy, ih hn.2 hmem]

lemma eraseDups_concat (ks : List κ) (k : κ) :
    (ks ++ [k]).eraseDups = if k ∈ ks then ks.eraseDups else ks.eraseDups ++ [k] := by
  rw [eraseDups_append]
  by_cases h : k ∈ ks
  · simp [removeAll, h]
  · simp [removeAll, h, eraseDups_cons]

lemma find?_reverse_concat (xs : List α) (x : α) (k : κ) : (xs ++ [x]).reverse.find? (key · = k) =
      if key x = k then some x else xs.reverse.find? (key · = k) := by
  by_cases h : key x = k
  · simp [h]
  · simp [h]

lemma exists_last {k : κ} (h : k ∈ xs.map key) :
    ∃ y, xs.reverse.find? (key · = k) = some y ∧ key y = k := by
  obtain ⟨y, hy, rfl⟩ := mem_map.mp h
  cases hfind : xs.reverse.find? (key · = key y) with
  | none =>
    have hnone := find?_eq_none.mp hfind y (mem_reverse.mpr hy)
    simp at hnone
  | some z => exact ⟨z, rfl, by simpa using find?_some hfind⟩

lemma map_firstLast (xs : List α) : (firstLast key xs).map key = (xs.map key).eraseDups := by
  have hkeys : ((xs.map key).eraseDups).filterMap
      (fun k => (xs.reverse.find? (key · = k)).map key) =
        ((xs.map key).eraseDups).filterMap some := by
    apply filterMap_congr
    intro k hk
    obtain ⟨y, hy, rfl⟩ := exists_last (mem_eraseDups.mp hk)
    rw [hy, map_some]
  rw [firstLast, map_filterMap, hkeys, filterMap_some]

lemma firstLast_concat (hn : ((firstLast key xs).map key).Nodup) (x : α) :
    firstLast key (xs ++ [x]) = upsert key x (firstLast key xs) := by
  have hkeys : (firstLast key xs).map key = _ := map_firstLast xs
  by_cases h : key x ∈ xs.map key
  · have hmem : key x ∈ (firstLast key xs).map key := by rwa [hkeys, mem_eraseDups]
    rw [upsert_of_mem hn hmem, firstLast, map_append, map_singleton, eraseDups_concat,
      if_pos h, firstLast, map_filterMap]
    apply filterMap_congr
    intro k hk
    obtain ⟨y, hy, rfl⟩ := exists_last (mem_eraseDups.mp hk)
    rw [find?_reverse_concat, hy, map_some]
    by_cases hxy : key x = key y
    · rw [if_pos hxy, if_pos hxy.symm]
    · rw [if_neg hxy, if_neg (Ne.symm hxy)]
  · have hmem : key x ∉ (firstLast key xs).map key := by rwa [hkeys, mem_eraseDups]
    rw [upsert_of_notMem hmem, firstLast, map_append, map_singleton, eraseDups_concat,
      if_neg h, filterMap_append]
    congr 1
    · apply filterMap_congr
      intro k hk
      have hne : key x ≠ k := fun he => h (he ▸ mem_eraseDups.mp hk)
      rw [find?_reverse_concat, if_neg hne]
    · rw [filterMap_cons_some (b := x) (by rw [find?_reverse_concat, if_pos rfl])]
      rfl

lemma upsertAll_nil (xs : List α) : upsertAll key [] xs = firstLast key xs := by
  induction xs using reverseRecOn with
  | nil => rfl
  | append_singleton xs x ih =>
    have hn : ((firstLast key xs).map key).Nodup := ih ▸ nodup_upsertAll nodup_nil
    rw [firstLast_concat hn, ← ih, upsertAll_append]
    rfl

section
variable {β κ' : Type*} [DecidableEq κ'] {key' : β → κ'} {f : β → α}

variable (h : ∀ a b, key (f a) = key (f b) ↔ key' a = key' b)
include h

lemma upsert_map (b : β) (bs : List β) :
    upsert key (f b) (bs.map f) = (upsert key' b bs).map f := by
  induction bs with
  | nil => rfl
  | cons c bs ih =>
    rw [map_cons, upsert, upsert, ih]
    by_cases hc : key' c = key' b
    · rw [if_pos hc, if_pos ((h c b).mpr hc), map_cons]
    · rw [if_neg hc, if_neg fun heq => hc ((h c b).mp heq), map_cons]

lemma firstLast_map (bs : List β) : firstLast key (bs.map f) = (firstLast key' bs).map f := by
  rw [← upsertAll_nil, ← upsertAll_nil]
  induction bs using reverseRecOn with
  | nil => rfl
  | append_singleton bs b ih =>
    rw [map_append, upsertAll_append, upsertAll_append, ih]
    exact upsert_map h b _

end

lemma firstLast_of_nodup (h : (xs.map key).Nodup) : firstLast key xs = xs := by
  have hall : upsertAll key [] xs = [] ++ xs := upsertAll_of_nodup (by simpa using h)
  rw [← upsertAll_nil, hall, nil_append]

/-- Upserting into a list with distinct keys: both lists count as supplied, in order. -/
lemma upsertAll_eq_firstLast (h : (xs.map key).Nodup) :
    upsertAll key xs new = firstLast key (xs ++ new) := by
  have hxs : upsertAll key [] xs = [] ++ xs := upsertAll_of_nodup (by simpa using h)
  rw [← upsertAll_nil, upsertAll_append, hxs, nil_append]

lemma mem_map_upsertAll (h : (xs.map key).Nodup) (k : κ) :
    k ∈ (upsertAll key xs new).map key ↔ k ∈ xs.map key ∨ k ∈ new.map key := by
  rw [upsertAll_eq_firstLast h, map_firstLast, mem_eraseDups, map_append, mem_append]

lemma mem_of_mem_upsert {y : α} (h : y ∈ upsert key x xs) : y = x ∨ y ∈ xs := by
  induction xs with
  | nil => exact .inl (mem_singleton.mp h)
  | cons z zs ih =>
    by_cases hz : key z = key x
    · rw [upsert, if_pos hz, mem_cons] at h
      exact h.imp_right (mem_cons_of_mem z)
    rw [upsert, if_neg hz, mem_cons] at h
    cases h with
    | inl h => exact .inr (h ▸ mem_cons_self)
    | inr h => exact (ih h).imp_right (mem_cons_of_mem z)

lemma mem_of_mem_upsertAll {y : α} (h : y ∈ upsertAll key xs new) : y ∈ xs ∨ y ∈ new := by
  induction new generalizing xs with
  | nil => exact .inl h
  | cons x new ih =>
    cases ih h with
    | inr h => exact .inr (mem_cons_of_mem x h)
    | inl h =>
      cases mem_of_mem_upsert h with
      | inl h => exact .inr (h ▸ mem_cons_self)
      | inr h => exact .inl h

lemma length_upsertAll (h : (xs.map key).Nodup) : (upsertAll key xs new).length =
      xs.length + ((new.map key).dedup.filter (· ∉ xs.map key)).length := by
  have hfresh : ((new.map key).dedup.filter (· ∉ xs.map key)).Nodup :=
    (nodup_dedup _).filter _
  have happ : (xs.map key ++ (new.map key).dedup.filter (· ∉ xs.map key)).Nodup := by
    refine nodup_append.mpr ⟨h, hfresh, ?_⟩
    intro a ha b hb he
    exact of_decide_eq_true (mem_filter.mp hb).2 (he ▸ ha)
  have hperm : List.Perm ((upsertAll key xs new).map key)
      (xs.map key ++ (new.map key).dedup.filter (· ∉ xs.map key)) := by
    rw [perm_ext_iff_of_nodup (nodup_upsertAll h) happ]
    intro k
    rw [mem_map_upsertAll h, mem_append, mem_filter, mem_dedup, decide_eq_true_iff]
    tauto
  have hlen := hperm.length_eq
  rwa [length_append, length_map, length_map] at hlen

namespace Indexed
variable {lookup : κ → Option Nat}

omit [DecidableEq κ] in
lemma empty (h : ∀ k, lookup k = none) : Indexed key lookup ([] : List α) := by
  intro k i
  simp [h]

section
variable (h : Indexed key lookup xs)
include h

omit [DecidableEq κ] in
lemma nodup : (xs.map key).Nodup := by
  rw [nodup_iff_injective_getElem]
  intro i j he
  have hi := (h _ i.1).mpr (getElem?_eq_getElem i.2)
  have hj := (h _ j.1).mpr (getElem?_eq_getElem j.2)
  have hij : some i.1 = some j.1 := hi.symm.trans ((congrArg lookup he).trans hj)
  exact Fin.ext (some_inj.mp hij)

omit [DecidableEq κ] in
lemma mem_iff (k : κ) : k ∈ xs.map key ↔ (lookup k).isSome := by
  rw [mem_iff_getElem?, isSome_iff_exists]
  exact exists_congr fun i => (h k i).symm

/-- A known key: the slot is overwritten and the index stays exact. -/
lemma replace (hi : lookup (key x) = some i) :
    upsert key x xs = xs.set i x ∧ Indexed key lookup (xs.set i x) := by
  have hslot := (h _ _).mp hi
  refine ⟨upsert_of_slot h.nodup hslot, ?_⟩
  intro k j
  rw [map_set_of_slot hslot]
  exact h k j

end

/-- A new key: the value goes to the end and the index learns its slot. -/
lemma append (lookup' : κ → Option Nat) (h : Indexed key lookup xs) (hx : lookup (key x) = none)
    (hself : lookup' (key x) = some xs.length) (hother : ∀ k, k ≠ key x → lookup' k = lookup k) :
    upsert key x xs = xs ++ [x] ∧ Indexed key lookup' (xs ++ [x]) := by
  have hmem : key x ∉ xs.map key := by
    rw [h.mem_iff, hx]
    simp
  refine ⟨upsert_of_notMem hmem, ?_⟩
  intro k i
  rw [map_append, map_singleton, getElem?_append, length_map]
  by_cases hk : k = key x
  · subst hk
    rw [hself, some.injEq]
    by_cases hi : i < xs.length
    · rw [if_pos hi]
      constructor
      · omega
      · intro he
        exact absurd (mem_of_getElem? he) hmem
    · rw [if_neg hi, getElem?_singleton]
      by_cases hz : i - xs.length = 0
      · simp only [hz, if_true, iff_true]
        omega
      · simp only [hz, if_false, reduceCtorEq, iff_false]
        omega
  · rw [hother k hk, h k i]
    by_cases hi : i < xs.length
    · rw [if_pos hi]
    rw [getElem?_eq_none (by simpa using hi)]
    by_cases hz : i - xs.length = 0
    · simp [hz, Ne.symm hk]
    · simp [hz]

end Indexed
/-! Under a cap. -/

lemma upsert_of_findIdx? (h : xs.findIdx? (key · = key x) = some i) :
    upsert key x xs = xs.set i x := by
  induction xs generalizing i with
  | nil => simp at h
  | cons y ys ih =>
    rw [findIdx?_cons] at h
    by_cases hy : key y = key x
    · have hi : 0 = i := by simpa [hy] using h
      rw [upsert, if_pos hy, ← hi, set_cons_zero]
    · have hrest : (ys.findIdx? (key · = key x)).map (· + 1) = some i := by simpa [hy] using h
      obtain ⟨j, hj, rfl⟩ := map_eq_some_iff.mp hrest
      rw [upsert, if_neg hy, ih hj, set_cons_succ]

lemma take_upsert (n : Nat) : (upsert key x xs).take n =
    if key x ∈ (xs.take n).map key then upsert key x (xs.take n)
    else if n ≤ xs.length then xs.take n else xs.take n ++ [x] := by
  induction xs generalizing n with
  | nil => cases n <;> simp [upsert]
  | cons y ys ih =>
    cases n with
    | zero => simp
    | succ n =>
      by_cases hy : key y = key x
      · simp [upsert, hy]
      have hne : ¬ key x = key y := fun he => hy he.symm
      have hcons : key x ∈ (y :: ys.take n).map key ↔ key x ∈ (ys.take n).map key := by
        rw [map_cons, mem_cons, or_iff_right hne]
      rw [upsert, if_neg hy, take_succ_cons, ih, take_succ_cons]
      by_cases hmem : key x ∈ (ys.take n).map key
      · rw [if_pos hmem, if_pos (hcons.mpr hmem), upsert, if_neg hy]
      rw [if_neg hmem, if_neg (hcons.not.mpr hmem)]
      have hle : n + 1 ≤ (y :: ys).length ↔ n ≤ ys.length := by simp
      by_cases hlen : n ≤ ys.length
      · rw [if_pos hlen, if_pos (hle.mpr hlen)]
      · rw [if_neg hlen, if_neg (hle.not.mpr hlen), cons_append]

end CriKey.Base
