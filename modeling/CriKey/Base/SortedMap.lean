import CriKey.Base.Table

/-! Ordered maps as lists of entries in ascending key order. -/
namespace CriKey.Base
open List Table
variable {κ ν : Type*} [LinearOrder κ]

/-- Keys in strictly ascending order. -/
def Ascending (m : List (κ × ν)) : Prop := (m.map Prod.fst).Pairwise (· < ·)

instance (m : List (κ × ν)) : Decidable (Ascending m) :=
  inferInstanceAs (Decidable (List.Pairwise _ _))

def insertEntry (key : κ) (value : ν) : List (κ × ν) → List (κ × ν)
  | [] => [(key, value)]
  | (k, v) :: m =>
    if key < k then (key, value) :: (k, v) :: m
    else if key = k then (k, value) :: m
    else (k, v) :: insertEntry key value m

/-- The map that holds the entries of a list, inserted first to last. -/
def ofEntries (entries : List (κ × ν)) : List (κ × ν) :=
  entries.foldl (fun m entry => insertEntry entry.1 entry.2 m) []

variable {key : κ} {value : ν} {m entries : List (κ × ν)}

lemma mem_keys_insertEntry (k : κ) :
    k ∈ (insertEntry key value m).map Prod.fst ↔ k = key ∨ k ∈ m.map Prod.fst := by
  induction m with
  | nil => simp [insertEntry]
  | cons entry m ih =>
    rw [insertEntry]
    split
    · simp
    split
    · rename_i he
      simp [he]
    · rw [map_cons, mem_cons, map_cons, mem_cons]
      tauto

lemma ascending_insertEntry (key : κ) (value : ν) (h : Ascending m) :
    Ascending (insertEntry key value m) := by
  induction m with
  | nil => exact pairwise_singleton _ _
  | cons entry m ih =>
    obtain ⟨hlt, hm⟩ := pairwise_cons.mp h
    rw [insertEntry]
    split
    · rename_i hk
      refine pairwise_cons.mpr ⟨fun k hmem => ?_, h⟩
      rcases mem_cons.mp hmem with rfl | hmem
      · exact hk
      · exact hk.trans (hlt k hmem)
    · split
      · exact h
      rename_i hnot hne
      refine pairwise_cons.mpr ⟨fun k hmem => ?_, ih hm⟩
      rcases (mem_keys_insertEntry k).mp hmem with rfl | hmem
      · exact lt_of_le_of_ne (le_of_not_gt hnot) (Ne.symm hne)
      · exact hlt k hmem

lemma insertEntry_perm (value : ν) (h : key ∉ m.map Prod.fst) :
    (insertEntry key value m).Perm ((key, value) :: m) := by
  induction m with
  | nil => rfl
  | cons entry m ih =>
    rw [map_cons, mem_cons, not_or] at h
    rw [insertEntry]
    split
    · rfl
    · rw [if_neg h.1]
      exact ((ih h.2).cons entry).trans (List.Perm.swap _ _ _)

lemma length_insertEntry_of_mem (value : ν) (h : Ascending m) (hk : key ∈ m.map Prod.fst) :
    (insertEntry key value m).length = m.length := by
  induction m with
  | nil => simp at hk
  | cons entry m ih =>
    obtain ⟨hlt, hm⟩ := pairwise_cons.mp h
    rw [map_cons, mem_cons] at hk
    rw [insertEntry]
    split
    · rename_i hnew
      rcases hk with rfl | hk
      · exact absurd hnew (lt_irrefl _)
      · exact absurd (hnew.trans (hlt key hk)) (lt_irrefl _)
    · split
      · rfl
      · rename_i hne
        rw [length_cons, ih hm (hk.resolve_left hne), length_cons]

lemma insertEntry_last (h : Ascending (m ++ [(key, value)])) :
    insertEntry key value m = m ++ [(key, value)] := by
  induction m with
  | nil => rfl
  | cons entry m ih =>
    obtain ⟨hlt, hm⟩ := pairwise_cons.mp h
    have hk : entry.1 < key := hlt key (by simp)
    rw [insertEntry, if_neg (not_lt_of_gt hk), if_neg (ne_of_gt hk), ih hm, cons_append]

lemma ascending_foldl_insertEntry (entries : List (κ × ν)) (h : Ascending m) :
    Ascending (entries.foldl (fun m entry => insertEntry entry.1 entry.2 m) m) := by
  induction entries generalizing m with
  | nil => exact h
  | cons entry entries ih => exact ih (ascending_insertEntry _ _ h)

lemma ascending_ofEntries (entries : List (κ × ν)) : Ascending (ofEntries entries) :=
  ascending_foldl_insertEntry entries .nil

/-- No entry is lost exactly when no key comes twice; the map is then a rearrangement. -/
lemma ofEntries_perm (h : (ofEntries entries).length = entries.length) :
    (ofEntries entries).Perm entries := by
  have hfold : ∀ m : List (κ × ν), Ascending m →
      (entries.foldl (fun m entry => insertEntry entry.1 entry.2 m) m).length ≤
        m.length + entries.length ∧
      ((entries.foldl (fun m entry => insertEntry entry.1 entry.2 m) m).length =
        m.length + entries.length →
        (entries.foldl (fun m entry => insertEntry entry.1 entry.2 m) m).Perm (m ++ entries)) := by
    clear h
    induction entries with
    | nil => simp
    | cons entry entries ih =>
      intro m hm
      rw [foldl_cons, length_cons]
      obtain ⟨hle, hperm⟩ := ih _ (ascending_insertEntry entry.1 entry.2 hm)
      by_cases hmem : entry.1 ∈ m.map Prod.fst
      · have hlen := length_insertEntry_of_mem entry.2 hm hmem
        exact ⟨by omega, fun heq => by omega⟩
      have hnew := insertEntry_perm entry.2 hmem
      have hlen : (insertEntry entry.1 entry.2 m).length = m.length + 1 := hnew.length_eq
      refine ⟨by omega, fun heq => (hperm (by omega)).trans ?_⟩
      exact (hnew.append_right entries).trans (perm_middle.symm)
  have hmain := (hfold [] .nil).2
  simpa [ofEntries] using hmain (by simpa [ofEntries] using h)

lemma ofEntries_concat (entries : List (κ × ν)) (entry : κ × ν) :
    ofEntries (entries ++ [entry]) = insertEntry entry.1 entry.2 (ofEntries entries) := by
  rw [ofEntries, foldl_append]
  rfl

lemma ofEntries_of_ascending (h : Ascending entries) : ofEntries entries = entries := by
  induction entries using reverseRecOn with
  | nil => rfl
  | append_singleton entries entry ih =>
    have hinit : Ascending entries := by
      rw [Ascending, map_append] at h
      exact (pairwise_append.mp h).1
    rw [ofEntries_concat, ih hinit]
    exact insertEntry_last h

/-! What a map holds at a key. -/

lemma lookup_insertEntry (key : κ) (value : ν) (m : List (κ × ν)) (k : κ) :
    (insertEntry key value m).lookup k = if k = key then some value else m.lookup k := by
  induction m with
  | nil => rw [insertEntry, lookup_cons_ite]
  | cons entry m ih =>
    rw [insertEntry]
    split
    · rw [lookup_cons_ite]
    split
    case isTrue heq =>
      rw [lookup_cons_ite, lookup_cons_ite, ← heq]
      by_cases hk : k = key
      · rw [if_pos hk, if_pos hk]
      · rw [if_neg hk, if_neg hk, if_neg hk]
    case isFalse hne =>
      rw [lookup_cons_ite, lookup_cons_ite, ih]
      by_cases hk : k = key
      · rw [if_pos hk, if_neg (hk ▸ hne), if_pos hk]
      · rw [if_neg hk, if_neg hk]

lemma mem_iff_lookup (h : Ascending m) (k : κ) (v : ν) : (k, v) ∈ m ↔ m.lookup k = some v := by
  induction m with
  | nil => simp
  | cons entry m ih =>
    obtain ⟨hlt, hm⟩ := pairwise_cons.mp h
    rw [lookup_cons_ite, mem_cons, ih hm]
    by_cases hk : k = entry.1
    · have hout : m.lookup k ≠ some v := fun hlookup =>
        lt_irrefl k (hk ▸ hlt k (mem_map_of_mem ((ih hm).mpr hlookup)))
      rw [or_iff_left hout, if_pos hk, Option.some_inj]
      constructor
      · intro heq
        rw [← heq]
      · intro heq
        rw [hk, ← heq]
    · have hne : (k, v) ≠ entry := fun heq => hk (congrArg Prod.fst heq)
      rw [or_iff_right hne, if_neg hk]

lemma ascending_ext {m' : List (κ × ν)} (h : Ascending m) (h' : Ascending m')
    (hsame : ∀ k, m.lookup k = m'.lookup k) : m = m' := by
  have hnodup : ∀ {m : List (κ × ν)}, Ascending m → m.Nodup := fun h =>
    List.Nodup.of_map Prod.fst (h.imp ne_of_lt)
  have hperm : m.Perm m' := (perm_ext_iff_of_nodup (hnodup h) (hnodup h')).mpr fun entry => by
    rw [mem_iff_lookup h entry.1 entry.2, mem_iff_lookup h' entry.1 entry.2, hsame]
  exact hperm.eq_of_pairwise (fun a b _ _ hab hba => absurd (hab.trans hba) (lt_irrefl _))
    (pairwise_map.mp h) (pairwise_map.mp h')

lemma lookup_eq_none_of_notMem {k : κ} (h : k ∉ m.map Prod.fst) : m.lookup k = none := by
  rw [lookup_eq_none_iff]
  intro entry hentry
  simp only [bne_iff_ne]
  exact fun heq => h (heq ▸ mem_map_of_mem hentry)

lemma lookup_ofEntries_of_notMem {k : κ} (h : k ∉ entries.map Prod.fst) :
    (ofEntries entries).lookup k = none := by
  induction entries using reverseRecOn with
  | nil => rfl
  | append_singleton entries entry ih =>
    rw [map_append, mem_append, not_or, map_singleton, mem_singleton] at h
    rw [ofEntries_concat, lookup_insertEntry, if_neg h.2, ih h.1]

lemma lookup_ofEntries {k : κ} {v : ν} (h : (k, v) ∈ entries)
    (hall : ∀ entry ∈ entries, entry.1 = k → entry.2 = v) :
    (ofEntries entries).lookup k = some v := by
  induction entries using reverseRecOn with
  | nil => cases h
  | append_singleton entries entry ih =>
    rw [ofEntries_concat, lookup_insertEntry]
    by_cases hk : k = entry.1
    · rw [if_pos hk, hall entry (by simp) hk.symm]
    have hin : (k, v) ∈ entries := by
      cases mem_append.mp h with
      | inl hin => exact hin
      | inr hlast => exact absurd (congrArg Prod.fst (mem_singleton.mp hlast)) hk
    rw [if_neg hk, ih hin fun e he => hall e (mem_append_left _ he)]

lemma mem_keys_ofEntries (entries : List (κ × ν)) (k : κ) :
    k ∈ (ofEntries entries).map Prod.fst ↔ k ∈ entries.map Prod.fst := by
  induction entries using reverseRecOn with
  | nil => rfl
  | append_singleton entries entry ih =>
    rw [ofEntries_concat, mem_keys_insertEntry, ih, map_append, mem_append, or_comm,
      map_singleton, mem_singleton]

/-! Ordered sets, as maps to nothing. -/

variable {β : Type*} (f : β → Option κ)

/-- The keys that some of the values have are added to a set. -/
def collect (xs : List β) (m : List (κ × Unit)) : List (κ × Unit) :=
  xs.foldl (fun m x =>
    match f x with
    | none => m
    | some k => insertEntry k () m) m

lemma collect_cons (x : β) (xs : List β) (m : List (κ × Unit)) :
    collect f (x :: xs) m = collect f xs (match f x with
      | none => m
      | some k => insertEntry k () m) :=
  rfl

lemma ascending_collect (xs : List β) {m : List (κ × Unit)}
    (hm : Ascending m) : Ascending (collect f xs m) := by
  induction xs generalizing m with
  | nil => exact hm
  | cons x xs ih =>
    rw [collect_cons]
    split
    · exact ih hm
    · exact ih (ascending_insertEntry _ _ hm)

lemma mem_collect (xs : List β) (m : List (κ × Unit)) (k : κ) :
    k ∈ (collect f xs m).map Prod.fst ↔ k ∈ m.map Prod.fst ∨ ∃ x ∈ xs, f x = some k := by
  induction xs generalizing m with
  | nil => simp [collect]
  | cons x xs ih =>
    rw [collect_cons, ih]
    cases hx : f x with
    | none => simp [hx]
    | some k' =>
      rw [mem_keys_insertEntry]
      simp only [mem_cons, exists_eq_or_imp, hx, Option.some_inj]
      tauto

lemma ascending_ext_keys {m m' : List (κ × Unit)} (h : Ascending m) (h' : Ascending m')
    (hsame : ∀ k, k ∈ m.map Prod.fst ↔ k ∈ m'.map Prod.fst) : m = m' := by
  have hmem : ∀ (m : List (κ × Unit)) (k : κ), (k, ()) ∈ m ↔ k ∈ m.map Prod.fst := by
    intro m k
    refine ⟨fun hin => mem_map_of_mem hin, fun hin => ?_⟩
    obtain ⟨⟨k', u⟩, hentry, rfl⟩ := mem_map.mp hin
    exact hentry
  refine ascending_ext h h' fun k => ?_
  cases hlookup : m'.lookup k with
  | some u => exact (mem_iff_lookup h k u).mp ((hmem m k).mpr
      ((hsame k).mpr ((hmem m' k).mp ((mem_iff_lookup h' k u).mpr hlookup))))
  | none =>
    refine lookup_eq_none_of_notMem fun hin => ?_
    have hin' := (mem_iff_lookup h' k ()).mp ((hmem m' k).mpr ((hsame k).mp hin))
    rw [hlookup] at hin'
    cases hin'

end CriKey.Base
