import Mathlib

/-! Who wins a key: the first value of a list, also after a stable sort, and the last name that
displaced all others. -/
namespace CriKey.Base
open List Option
variable {α κ : Type*} [DecidableEq κ] {key : α → κ}

/-! The first value of every key. -/

/-- A value is kept unless its key is taken. -/
def claimFirst (key : α → κ) (kept : List α) (x : α) : List α :=
  if key x ∈ kept.map key then kept else kept ++ [x]

def keepFirst (key : α → κ) (xs : List α) : List α := xs.foldl (claimFirst key) []

lemma keepFirst_concat (xs : List α) (x : α) :
    keepFirst key (xs ++ [x]) = claimFirst key (keepFirst key xs) x := by
  rw [keepFirst, foldl_append]
  rfl

lemma nodup_keepFirst (xs : List α) : ((keepFirst key xs).map key).Nodup := by
  induction xs using reverseRecOn with
  | nil => exact nodup_nil
  | append_singleton xs x ih =>
    rw [keepFirst_concat, claimFirst]
    split
    · exact ih
    case isFalse hx =>
      rw [map_append, map_singleton]
      exact nodup_append.mpr ⟨ih, nodup_singleton _, fun a ha b hb heq =>
        hx (by rw [mem_singleton.mp hb] at heq; exact heq ▸ ha)⟩

lemma mem_map_keepFirst (xs : List α) (k : κ) :
    k ∈ (keepFirst key xs).map key ↔ k ∈ xs.map key := by
  induction xs using reverseRecOn with
  | nil => rfl
  | append_singleton xs x ih =>
    rw [keepFirst_concat, claimFirst, map_append, mem_append, ← ih]
    split
    case isTrue hx =>
      refine ⟨.inl, fun h => h.elim id fun hk => ?_⟩
      rw [map_singleton, mem_singleton] at hk
      exact hk ▸ hx
    case isFalse => rw [map_append, mem_append]

lemma mem_keepFirst (xs : List α) (x : α) :
    x ∈ keepFirst key xs ↔ xs.find? (key · = key x) = some x := by
  induction xs using reverseRecOn with
  | nil => simp [keepFirst]
  | append_singleton xs y ih =>
    have hnone : key x ∉ (keepFirst key xs).map key → xs.find? (key · = key x) = none := by
      rw [mem_map_keepFirst, find?_eq_none]
      intro hx z hz heq
      exact hx (mem_map.mpr ⟨z, hz, by simpa using heq⟩)
    rw [keepFirst_concat, claimFirst, find?_append]
    split
    case isTrue hy =>
      rw [ih]
      cases hfind : xs.find? (key · = key x) with
      | some z => simp
      | none =>
        have hne : key y ≠ key x := by
          intro heq
          rw [heq, mem_map_keepFirst] at hy
          obtain ⟨z, hz, hzx⟩ := mem_map.mp hy
          have := find?_eq_none.mp hfind z hz
          simp [hzx] at this
        simp [hne]
    case isFalse hy =>
      rw [mem_append, mem_singleton, ih]
      constructor
      · intro h
        cases h with
        | inl hold => rw [hold, some_or]
        | inr hnew =>
          subst hnew
          rw [hnone hy]
          simp
      · intro h
        cases hfind : xs.find? (key · = key x) with
        | some z =>
          rw [hfind, some_or] at h
          exact .inl h
        | none =>
          rw [hfind, none_or] at h
          have hx := mem_of_find?_eq_some h
          exact .inr (mem_singleton.mp hx)

/-! A sort by key that keeps the order of equal keys. -/

section Stable
variable {κ : Type*} [LinearOrder κ] {key : α → κ}

lemma filter_insertionSort (xs : List α) (k : κ) :
    (xs.insertionSort fun a b => key a ≤ key b).filter (key · = k) = xs.filter (key · = k) := by
  have hequal : (xs.filter (key · = k)).Pairwise fun a b => key a ≤ key b := by
    refine pairwise_of_forall_mem_list fun a ha b hb => ?_
    have hka : key a = k := by simpa using (mem_filter.mp ha).2
    have hkb : key b = k := by simpa using (mem_filter.mp hb).2
    exact (hka.trans hkb.symm).le
  have hsub := sublist_insertionSort hequal filter_sublist
  have hfilter := hsub.filter (key · = k)
  rw [List.filter_filter] at hfilter
  refine (hfilter.eq_of_length ?_).symm.trans (by simp)
  have hperm := (perm_insertionSort (fun a b => key a ≤ key b) xs).filter (key · = k)
  simpa using hperm.length_eq.symm

lemma find?_insertionSort (xs : List α) (k : κ) :
    (xs.insertionSort fun a b => key a ≤ key b).find? (key · = k) = xs.find? (key · = k) := by
  rw [← head?_filter, filter_insertionSort, head?_filter]

lemma find?_flatMap_insertionSort {β : Type*} (f : β → List α) (bs : List β) (k : κ) :
    (bs.flatMap fun b => (f b).insertionSort fun x y => key x ≤ key y).find? (key · = k) =
      (bs.flatMap f).find? (key · = k) := by
  induction bs with
  | nil => rfl
  | cons b bs ih => rw [flatMap_cons, flatMap_cons, find?_append, find?_append,
      find?_insertionSort, ih]

end Stable

/-! Names of which a new one displaces all others. -/

open Classical in
/-- A name that is there stays; one that is not displaces all others. -/
noncomputable def displace {ν : Type*} (names : Set ν) (n : ν) : Set ν :=
  if n ∈ names then names else {n}

section Displace
variable {ν : Type*} {names : Set ν} {ns : List ν}

lemma foldl_displace_of_subset (h : ∀ n ∈ ns, n ∈ names) : ns.foldl displace names = names := by
  induction ns with
  | nil => rfl
  | cons n ns ih =>
    rw [foldl_cons, displace, if_pos (h n mem_cons_self)]
    exact ih fun m hm => h m (mem_cons_of_mem _ hm)

/-- Once a name displaced the others, only the last name of the list is left. -/
lemma foldl_displace_of_missing {n : ν} (hn : n ∈ ns) (hmissing : n ∉ names) :
    ∃ last, ns.getLast? = some last ∧ ns.foldl displace names = {last} := by
  induction ns using reverseRecOn generalizing n with
  | nil => cases hn
  | append_singleton ns m ih =>
    refine ⟨m, by simp, ?_⟩
    rw [foldl_append, foldl_cons, foldl_nil, displace]
    by_cases hold : ∃ k ∈ ns, k ∉ names
    · obtain ⟨k, hk, hkm⟩ := hold
      obtain ⟨last, -, heq⟩ := ih hk hkm
      rw [heq]
      split
      case isTrue hm => rw [Set.mem_singleton_iff.mp hm]
      case isFalse => rfl
    · push Not at hold
      rw [foldl_displace_of_subset hold]
      have hm : n = m := by
        cases mem_append.mp hn with
        | inl hmem => exact absurd (hold n hmem) hmissing
        | inr hmem => exact mem_singleton.mp hmem
      rw [if_neg (hm ▸ hmissing)]

/-- A name of the list survives when none was missing, or when it is also the last. -/
lemma mem_foldl_displace {n : ν} (hn : n ∈ ns) :
    n ∈ ns.foldl displace names ↔ (∀ m ∈ ns, m ∈ names) ∨ ns.getLast? = some n := by
  by_cases hall : ∀ m ∈ ns, m ∈ names
  · rw [foldl_displace_of_subset hall]
    exact iff_of_true (hall n hn) (.inl hall)
  · obtain ⟨m, hm, hmissing⟩ : ∃ m ∈ ns, m ∉ names := by push Not at hall; exact hall
    obtain ⟨last, hlast, heq⟩ := foldl_displace_of_missing hm hmissing
    rw [heq, Set.mem_singleton_iff, hlast, some_inj, or_iff_right hall, eq_comm]

end Displace
end CriKey.Base
