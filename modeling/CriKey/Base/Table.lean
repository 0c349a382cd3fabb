import Mathlib

/-! Finite maps kept in insertion order, one entry a key. Inserting at a key that
is present replaces its value in place, so the keys also list the order in which
they were first inserted. -/
namespace CriKey.Base
open Option Finset Function List

structure Table (κ β : Type*) where
  entries : List (κ × β)
  nodup : (entries.map Prod.fst).Nodup

namespace Table
variable {κ β γ : Type*}

def empty : Table κ β := ⟨[], nodup_nil⟩

def keys (t : Table κ β) : List κ := t.entries.map Prod.fst

def values (t : Table κ β) : List β := t.entries.map Prod.snd

def mapValues (f : β → γ) (t : Table κ β) : Table κ γ where
  entries := t.entries.map fun e => (e.1, f e.2)
  nodup := by simpa [Function.comp_def] using t.nodup

/-- Sum of a weight over the stored values. -/
def sum (w : β → Nat) (t : Table κ β) : Nat := (t.values.map w).sum

variable {s t : Table κ β}

lemma ext (h : s.entries = t.entries) : s = t := by
  cases t
  subst h
  rfl

lemma keys_nodup (t : Table κ β) : t.keys.Nodup := t.nodup

@[simp] lemma keys_mapValues (t : Table κ β) (f : β → γ) : (t.mapValues f).keys = t.keys := by
  simp [keys, mapValues]

variable [DecidableEq κ]

def get? (t : Table κ β) (k : κ) : Option β := t.entries.lookup k

def contains (t : Table κ β) (k : κ) : Bool := (t.get? k).isSome

def modify (k : κ) (f : β → β) (t : Table κ β) : Table κ β where
  entries := t.entries.map fun e => if e.1 = k then (e.1, f e.2) else e
  nodup := by
    have h : (Prod.fst ∘ fun e : κ × β => if e.1 = k then (e.1, f e.2) else e) = Prod.fst := by
      funext e
      by_cases he : e.1 = k <;> simp [he]
    rw [List.map_map, h]
    exact t.nodup

def erase (k : κ) (t : Table κ β) : Table κ β where
  entries := t.entries.filter fun e => e.1 ≠ k
  nodup := (filter_sublist.map Prod.fst).nodup t.nodup

def insert (k : κ) (v : β) (t : Table κ β) : Table κ β :=
  if h : k ∈ t.keys then t.modify k fun _ => v
  else ⟨t.entries ++ [(k, v)], by
    rw [map_append, nodup_append]
    refine ⟨t.nodup, by simp, ?_⟩
    intro a ha b hb hab
    simp only [List.map_cons, List.map_nil, List.mem_singleton] at hb
    exact h (hb ▸ hab ▸ ha)⟩

lemma lookup_cons_ite (k : κ) (e : κ × β) (es : List (κ × β)) :
    (e :: es).lookup k = if k = e.1 then some e.2 else es.lookup k := by
  obtain ⟨a, b⟩ := e
  by_cases h : k = a
  · subst k
    simp
  · rw [lookup_cons, beq_eq_false_iff_ne.mpr h, if_neg h]

lemma lookup_map_ite (k k' : κ) (f : β → β) (es : List (κ × β)) :
    (es.map fun e => if e.1 = k then (e.1, f e.2) else e).lookup k' =
      if k' = k then (es.lookup k').map f else es.lookup k' := by
  induction es with
  | nil => simp
  | cons e es ih =>
    simp only [List.map_cons, lookup_cons_ite, ih]
    by_cases hek : e.1 = k
    · by_cases hk : k' = k <;> simp [hek, hk]
    · by_cases hk : k' = e.1
      · simp [hk, hek]
      · simp [hk, hek]

section
variable (t : Table κ β)

lemma get?_modify (k k' : κ) (f : β → β) :
    (t.modify k f).get? k' = if k' = k then (t.get? k').map f else t.get? k' :=
  lookup_map_ite k k' f t.entries

@[simp] lemma get?_modify_self (k : κ) (f : β → β) : (t.modify k f).get? k = (t.get? k).map f := by
  rw [get?_modify, if_pos rfl]

lemma get?_modify_ne {k k' : κ} (f : β → β) (h : k' ≠ k) : (t.modify k f).get? k' = t.get? k' := by
  rw [get?_modify, if_neg h]

@[simp] lemma keys_modify (k : κ) (f : β → β) : (t.modify k f).keys = t.keys := by
  have h : (Prod.fst ∘ fun e : κ × β => if e.1 = k then (e.1, f e.2) else e) = Prod.fst := by
    funext e
    by_cases he : e.1 = k <;> simp [he]
  rw [keys, keys, modify, List.map_map, h]

@[simp] lemma get?_mapValues (f : β → γ) (k : κ) : (t.mapValues f).get? k = (t.get? k).map f := by
  obtain ⟨es, hn⟩ := t
  simp only [get?, mapValues]
  clear hn
  induction es with
  | nil => rfl
  | cons e es ih =>
    simp only [List.map_cons, lookup_cons_ite, ih]
    by_cases hk : k = e.1 <;> simp [hk]

lemma mem_keys_iff (k : κ) : k ∈ t.keys ↔ (t.get? k).isSome := by
  obtain ⟨es, hn⟩ := t
  simp only [get?, keys]
  induction es with
  | nil => simp
  | cons e es ih =>
    by_cases hk : k = e.1 <;> simp [hk]

lemma get?_eq_none_iff (k : κ) : t.get? k = none ↔ k ∉ t.keys := by
  rw [mem_keys_iff]
  cases t.get? k <;> simp

end

variable {t : Table κ β} {k : κ} {v : β}

lemma mem_keys_of_get? (h : t.get? k = some v) : k ∈ t.keys := by
  simp [mem_keys_iff, h]

@[simp] lemma get?_empty (k : κ) : (empty : Table κ β).get? k = none := rfl

lemma mem_entries_of_get? (h : t.get? k = some v) : (k, v) ∈ t.entries := by
  obtain ⟨es, hn⟩ := t
  simp only [get?] at h ⊢
  clear hn
  induction es with
  | nil => simp at h
  | cons e es ih =>
    rw [lookup_cons_ite] at h
    by_cases hk : k = e.1
    · rw [if_pos hk, some_inj] at h
      exact mem_cons.mpr (Or.inl (Prod.ext hk h.symm))
    · rw [if_neg hk] at h
      exact mem_cons_of_mem e (ih h)

lemma get?_of_mem_entries (h : (k, v) ∈ t.entries) : t.get? k = some v := by
  obtain ⟨es, hn⟩ := t
  simp only [get?] at h ⊢
  induction es with
  | nil => simp at h
  | cons e es ih =>
    have hn' := nodup_cons.mp hn
    rw [lookup_cons_ite]
    rcases mem_cons.mp h with heq | htail
    · simp [← heq]
    have hne : k ≠ e.1 := by
      intro hk
      exact hn'.1 (mem_map.mpr ⟨(k, v), htail, hk⟩)
    rw [if_neg hne]
    exact ih hn'.2 htail

lemma mem_values_iff (t : Table κ β) (v : β) : v ∈ t.values ↔ ∃ k, t.get? k = some v := by
  constructor
  · intro h
    obtain ⟨⟨k, b⟩, he, rfl⟩ := mem_map.mp h
    exact ⟨k, get?_of_mem_entries he⟩
  · rintro ⟨k, hk⟩
    exact mem_map.mpr ⟨(k, v), mem_entries_of_get? hk, rfl⟩

lemma modify_eq_self (f : β → β) (h : t.get? k = none) : t.modify k f = t := by
  have hk := (get?_eq_none_iff t k).mp h
  apply ext
  calc
    (t.modify k f).entries = t.entries.map id := by
      apply map_congr_left
      intro e he
      have hne : e.1 ≠ k := fun hek => hk (hek ▸ mem_map_of_mem he)
      simp [hne]
    _ = t.entries := map_id _

lemma modify_modify (t : Table κ β) (k : κ) (f g : β → β) :
    (t.modify k f).modify k g = t.modify k (fun v => g (f v)) := by
  apply ext
  simp only [modify, List.map_map]
  apply List.map_congr_left
  intro e _
  by_cases he : e.1 = k <;> simp [he]

/-- A modification only depends on what it does to the value that is present. -/
lemma modify_congr (f g : β → β) (h : t.get? k = some v)
    (hfg : f v = g v) : t.modify k f = t.modify k g := by
  apply ext
  apply map_congr_left
  rintro ⟨a, b⟩ he
  by_cases hk : a = k
  · subst a
    have hb : b = v := by simpa [get?_of_mem_entries he] using h
    simp [hb, hfg]
  · simp [hk]

lemma modify_fixed (f : β → β) (h : t.get? k = some v) (hf : f v = v) : t.modify k f = t := by
  have hid : t.modify k f = t.modify k id := modify_congr f id h hf
  rw [hid]
  simp [modify]

lemma get?_erase (t : Table κ β) (k k' : κ) :
    (t.erase k).get? k' = if k' = k then none else t.get? k' := by
  obtain ⟨es, hn⟩ := t
  simp only [get?, erase]
  clear hn
  induction es with
  | nil => simp
  | cons e es ih =>
    by_cases hek : e.1 = k
    · rw [filter_cons_of_neg (by simp [hek]), ih, lookup_cons_ite, hek]
      by_cases hk : k' = k <;> simp [hk]
    rw [List.filter_cons_of_pos (by simp [hek]), lookup_cons_ite, lookup_cons_ite, ih]
    by_cases hk : k' = e.1
    · simp [hk, hek]
    · simp [hk]

lemma keys_erase (t : Table κ β) (k : κ) : (t.erase k).keys = t.keys.filter fun a => a ≠ k := by
  simp [keys, erase, List.filter_map, comp_def]

lemma erase_eq_self (h : t.get? k = none) : t.erase k = t := by
  apply ext
  apply filter_eq_self.mpr
  intro e he
  have hne : e.1 ≠ k := fun hek => (get?_eq_none_iff t k).mp h (hek ▸ mem_map_of_mem he)
  exact decide_eq_true hne

lemma insert_of_get? {b : β} (v : β) (h : t.get? k = some b) :
    t.insert k v = t.modify k fun _ => v := by
  rw [insert, dif_pos (mem_keys_of_get? h)]

lemma get?_insert (t : Table κ β) (k k' : κ) (v : β) :
    (t.insert k v).get? k' = if k' = k then some v else t.get? k' := by
  cases hk : t.get? k with
  | some b =>
    rw [insert_of_get? v hk, get?_modify]
    by_cases h : k' = k
    · subst k'
      simp [hk]
    · simp [h]
  | none =>
    rw [insert, dif_neg ((get?_eq_none_iff t k).mp hk)]
    simp only [get?] at hk ⊢
    rw [lookup_append, lookup_cons_ite]
    by_cases h : k' = k
    · subst k'
      simp [hk]
    · simp [h]

lemma keys_insert (t : Table κ β) (k : κ) (v : β) :
    (t.insert k v).keys = if k ∈ t.keys then t.keys else t.keys ++ [k] := by
  by_cases h : k ∈ t.keys
  · rw [insert, dif_pos h, keys_modify, if_pos h]
  · rw [insert, dif_neg h, if_neg h]
    simp [keys]

/-! Sums. A change at one key moves the sum by the change of that key's weight. -/

section
variable (w : β → Nat)

omit [DecidableEq κ] in
lemma sum_eq (t : Table κ β) : t.sum w = (t.entries.map fun e => w e.2).sum := by
  simp [sum, values, comp_def]

lemma sum_eq_finset_sum (t : Table κ β) : t.sum w = ∑ k ∈ t.keys.toFinset, (t.get? k).elim 0 w := by
  rw [List.sum_toFinset _ t.keys_nodup, sum_eq, keys, List.map_map]
  congr 1
  apply map_congr_left
  intro e he
  simp [get?_of_mem_entries (t := t) (k := e.1) (v := e.2) he]

variable {t : Table κ β} {k : κ}

lemma sum_eq_add {v : β} (h : t.get? k = some v) :
    t.sum w = w v + ∑ a ∈ t.keys.toFinset.erase k, (t.get? a).elim 0 w := by
  rw [sum_eq_finset_sum, ← add_sum_erase _ _ (mem_toFinset.mpr (mem_keys_of_get? h)), h, elim_some]

lemma sum_modify {v : β} (f : β → β)
    (h : t.get? k = some v) : (t.modify k f).sum w + w v = t.sum w + w (f v) := by
  have hnew : (t.modify k f).get? k = some (f v) := by simp [h]
  rw [sum_eq_add w h, sum_eq_add w hnew, keys_modify, sum_congr rfl fun a ha => by
    rw [get?_modify_ne t f (ne_of_mem_erase ha)]]
  omega

lemma sum_modify_of_eq (t : Table κ β) (k : κ) (f : β → β)
    (h : ∀ v, t.get? k = some v → w (f v) = w v) : (t.modify k f).sum w = t.sum w := by
  cases hk : t.get? k with
  | none => rw [modify_eq_self f hk]
  | some v =>
    have hs := sum_modify w f hk
    have hw := h v hk
    omega

lemma sum_erase {v : β} (h : t.get? k = some v) : (t.erase k).sum w + w v = t.sum w := by
  have hkeys : (t.erase k).keys.toFinset = t.keys.toFinset.erase k := by
    ext a
    simp [keys_erase, and_comm]
  rw [sum_eq_add w h, sum_eq_finset_sum, hkeys, sum_congr rfl fun a ha => by
    rw [get?_erase, if_neg (ne_of_mem_erase ha)]]
  omega

lemma sum_insert_of_get? {b : β} (v : β)
    (h : t.get? k = some b) : (t.insert k v).sum w + w b = t.sum w + w v := by
  rw [insert_of_get? v h]
  exact sum_modify w (fun _ => v) h

lemma sum_insert_of_none (v : β) (h : t.get? k = none) : (t.insert k v).sum w = t.sum w + w v := by
  rw [insert, dif_neg ((get?_eq_none_iff t k).mp h)]
  simp [sum_eq]

/-- A written key counts with its new value instead of the old one, if it had one. -/
lemma sum_insert_add (t : Table κ β) (k : κ) (v : β) :
    (t.insert k v).sum w + ((t.get? k).map w).getD 0 = t.sum w + w v := by
  cases hk : t.get? k with
  | none => exact sum_insert_of_none w v hk
  | some b => exact sum_insert_of_get? w v hk

lemma sum_erase_add (t : Table κ β) (k : κ) :
    (t.erase k).sum w + ((t.get? k).map w).getD 0 = t.sum w := by
  cases hk : t.get? k with
  | some b => exact sum_erase w hk
  | none => rw [erase_eq_self hk]; rfl

end

omit [DecidableEq κ] in
lemma sum_mapValues (w : γ → Nat) (f : β → γ) (t : Table κ β) :
    (t.mapValues f).sum w = t.sum fun v => w (f v) := by
  simp [sum, values, mapValues, comp_def]

omit [DecidableEq κ] in
lemma sum_empty (w : β → Nat) : (empty : Table κ β).sum w = 0 := rfl

lemma le_sum (w : β → Nat) (h : t.get? k = some v) : w v ≤ t.sum w := by
  have hs := sum_erase w h
  omega

lemma sum_le_sum (w w' : β → Nat) (t : Table κ β) (h : ∀ k v, t.get? k = some v → w v ≤ w' v) :
    t.sum w ≤ t.sum w' := by
  apply List.sum_le_sum
  intro v hv
  obtain ⟨k, hk⟩ := (mem_values_iff t v).mp hv
  exact h k v hk

lemma sum_congr {w w' : β → Nat} (h : ∀ k v, t.get? k = some v → w v = w' v) :
    t.sum w = t.sum w' := by
  apply Nat.le_antisymm
  · exact sum_le_sum w w' t fun k v hk => (h k v hk).le
  · exact sum_le_sum w' w t fun k v hk => (h k v hk).ge

/-- A sum only falls when no value outgrows the one it replaces. -/
lemma sum_le_sum_of_get? (w : β → Nat) (h : ∀ k v, t.get? k = some v → w v ≤ (s.get? k).elim 0 w) :
    t.sum w ≤ s.sum w := by
  have hzero : ∀ (u : Table κ β) k, k ∉ u.keys.toFinset → (u.get? k).elim 0 w = 0 := by
    intro u k hk
    rw [List.mem_toFinset, ← get?_eq_none_iff] at hk
    simp [hk]
  rw [sum_eq_finset_sum, sum_eq_finset_sum]
  calc ∑ k ∈ t.keys.toFinset, (t.get? k).elim 0 w
      ≤ ∑ k ∈ t.keys.toFinset ∪ s.keys.toFinset, (t.get? k).elim 0 w :=
        sum_le_sum_of_subset subset_union_left
    _ ≤ ∑ k ∈ t.keys.toFinset ∪ s.keys.toFinset, (s.get? k).elim 0 w := by
        apply Finset.sum_le_sum
        intro k _
        cases hk : t.get? k with
        | none => simp
        | some v => exact h k v hk
    _ = ∑ k ∈ s.keys.toFinset, (s.get? k).elim 0 w :=
        (sum_subset subset_union_right fun k _ hk => hzero s k hk).symm

lemma entries_eq (t : Table κ β) :
    t.entries = t.keys.filterMap fun k => (t.get? k).map fun v => (k, v) := by
  rw [keys, filterMap_map]
  conv_lhs => rw [← filterMap_some (l := t.entries)]
  apply filterMap_congr
  intro e he
  simp [get?_of_mem_entries (t := t) (k := e.1) (v := e.2) he]

lemma ext_get? (hk : s.keys = t.keys) (h : ∀ k, s.get? k = t.get? k) : s = t := by
  apply ext
  rw [entries_eq, entries_eq t, hk]
  simp only [h]

/-! A loop over the keys that changes one value at a time. -/

lemma foldl_modify_get? (f : β → β) (ks : List κ) (t : Table κ β) (k : κ) (hn : ks.Nodup) :
    (ks.foldl (fun t k => t.modify k f) t).get? k =
      if k ∈ ks then (t.get? k).map f else t.get? k := by
  induction ks generalizing t with
  | nil => simp
  | cons a ks ih =>
    have hn' := nodup_cons.mp hn
    rw [foldl_cons, ih _ hn'.2, get?_modify]
    by_cases hk : k = a
    · subst k
      simp [hn'.1]
    · simp [hk]

lemma foldl_modify_keys (f : β → β) (ks : List κ) (t : Table κ β) :
    (ks.foldl (fun t k => t.modify k f) t).keys = t.keys := by
  induction ks generalizing t with
  | nil => rfl
  | cons a ks ih => rw [foldl_cons, ih, keys_modify]

/-- Changing every key's value in turn is changing all values at once. -/
lemma foldl_modify_all (f : β → β) (t : Table κ β) :
    t.keys.foldl (fun t k => t.modify k f) t = t.mapValues f := by
  apply ext_get?
  · rw [foldl_modify_keys, keys_mapValues]
  · intro k
    rw [foldl_modify_get? f t.keys t k t.keys_nodup, get?_mapValues]
    by_cases hk : k ∈ t.keys
    · rw [if_pos hk]
    · rw [if_neg hk, (get?_eq_none_iff t k).mpr hk, map_none]

/-- A view of the values commutes with a change that it can follow. -/
lemma mapValues_modify (w : β → γ) (f : β → β) (g : γ → γ) (t : Table κ β) (k : κ)
    (h : ∀ v, t.get? k = some v → w (f v) = g (w v)) :
    (t.modify k f).mapValues w = (t.mapValues w).modify k g := by
  apply ext_get?
  · simp
  · intro j
    by_cases hj : j = k
    · subst hj
      cases hv : t.get? j with
      | none => simp [hv]
      | some v => simp [hv, h v hv]
    · simp [get?_modify_ne _ _ hj]

lemma mapValues_modify_of_same (w : β → γ) (f : β → β) (t : Table κ β) (k : κ)
    (h : ∀ v, w (f v) = w v) : (t.modify k f).mapValues w = t.mapValues w := by
  apply ext_get?
  · simp
  · intro j
    by_cases hj : j = k
    · subst hj
      cases hv : t.get? j <;> simp [hv, h]
    · simp [get?_modify_ne _ _ hj]

lemma mapValues_insert (w : β → γ) (t : Table κ β) (k : κ) (v : β) :
    (t.insert k v).mapValues w = (t.mapValues w).insert k (w v) := by
  apply ext_get?
  · simp [keys_insert]
  · intro j
    simp only [get?_mapValues, get?_insert]
    split <;> rfl

omit [DecidableEq κ] in
lemma mapValues_mapValues {δ : Type*} (f : β → γ) (g : γ → δ) (t : Table κ β) :
    (t.mapValues f).mapValues g = t.mapValues fun v => g (f v) := by
  apply ext
  simp [mapValues, comp_def]

end Table
end CriKey.Base
