import Mathlib

/-! Bounded selection: the `limit` smallest elements by a key, kept while the elements come
one after another. -/
namespace CriKey.Base
open List
variable {α κ : Type*} [LinearOrder κ] (key : α → κ)

/-- Inserts an element that belongs to the best `limit`; the weakest one makes room. -/
def retainBest (limit : Nat) (kept : List α) (x : α) : List α :=
  if kept.length < limit then kept.orderedInsert (fun a b => key a ≤ key b) x
  else match kept.getLast? with
    | some weakest =>
      if key x < key weakest then kept.dropLast.orderedInsert (fun a b => key a ≤ key b) x else kept
    | none => kept

/-- The best `limit` elements of a list, best first. -/
def best (limit : Nat) (xs : List α) : List α :=
  (xs.insertionSort fun a b => key a ≤ key b).take limit

/-- In order, and no two with one key. -/
def Ranked (xs : List α) : Prop := xs.Pairwise fun a b => key a < key b

variable {key} {xs ys : List α} {x : α} {limit : Nat}

lemma Ranked.nodup (h : Ranked key xs) : xs.Nodup := by
  refine h.imp ?_
  intro a b hab he
  rw [he] at hab
  exact lt_irrefl _ hab

lemma Ranked.eq_of_mem (hx : Ranked key xs) (hy : Ranked key ys) (h : ∀ a, a ∈ xs ↔ a ∈ ys) :
    xs = ys := by
  have hperm : xs.Perm ys := (perm_ext_iff_of_nodup hx.nodup hy.nodup).mpr h
  refine hperm.eq_of_pairwise ?_ hx hy
  intro a b _ _ hab hba
  exact absurd (hab.trans hba) (lt_irrefl _)

lemma ranked_of_nodup (hs : xs.Pairwise fun a b => key a ≤ key b) (hn : (xs.map key).Nodup) :
    Ranked key xs := by
  rw [List.Nodup, pairwise_map] at hn
  exact (hs.and hn).imp fun h => lt_of_le_of_ne h.1 h.2

lemma ranked_insertionSort (hn : (xs.map key).Nodup) :
    Ranked key (xs.insertionSort fun a b => key a ≤ key b) := by
  apply ranked_of_nodup
  · exact pairwise_insertionSort _ xs
  · exact (((perm_insertionSort _ xs).map key).nodup_iff).mpr hn

lemma ranked_orderedInsert (h : Ranked key xs) (hx : key x ∉ xs.map key) :
    Ranked key (xs.orderedInsert (fun a b => key a ≤ key b) x) := by
  have hnodup : (xs.map key).Nodup := by
    rw [List.Nodup, pairwise_map]
    exact h.imp fun hab => ne_of_lt hab
  apply ranked_of_nodup
  · exact List.Pairwise.orderedInsert x xs (h.imp fun hab => le_of_lt hab)
  · rw [((perm_orderedInsert _ x xs).map key).nodup_iff, map_cons, nodup_cons]
    exact ⟨hx, hnodup⟩

lemma take_orderedInsert_take (x : α) (xs : List α) (limit : Nat) :
    ((xs.take limit).orderedInsert (fun a b => key a ≤ key b) x).take limit =
      (xs.orderedInsert (fun a b => key a ≤ key b) x).take limit := by
  induction xs generalizing limit with
  | nil => rw [take_nil]
  | cons y ys ih =>
    cases limit with
    | zero => rw [take_zero, take_zero]
    | succ limit =>
      rw [take_succ_cons, orderedInsert_cons, orderedInsert_cons]
      by_cases hxy : key x ≤ key y
      · rw [if_pos hxy, if_pos hxy, take_succ_cons, take_succ_cons]
        cases limit with
        | zero => rfl
        | succ limit =>
          rw [take_succ_cons, take_succ_cons, take_take, Nat.min_eq_left (Nat.le_succ limit)]
      · rw [if_neg hxy, if_neg hxy, take_succ_cons, take_succ_cons, ih]

lemma retainBest_eq (h : Ranked key xs) (hlen : xs.length ≤ limit) (hx : key x ∉ xs.map key) :
    retainBest key limit xs x = (xs.orderedInsert (fun a b => key a ≤ key b) x).take limit := by
  rw [retainBest]
  by_cases hroom : xs.length < limit
  · rw [if_pos hroom, take_of_length_le]
    rw [orderedInsert_length]
    omega
  rw [if_neg hroom]
  cases hlast : xs.getLast? with
  | none =>
    have hnil : xs = [] := getLast?_eq_none_iff.mp hlast
    subst hnil
    have hzero : limit = 0 := by simpa using hroom
    subst hzero
    rfl
  | some weakest =>
    obtain ⟨init, rfl⟩ := getLast?_eq_some_iff.mp hlast
    obtain ⟨-, -, hbelow⟩ := pairwise_append.mp h
    have hinit : ∀ a ∈ init, key a < key weakest := fun a ha => hbelow a ha weakest (by simp)
    have hne : key x ≠ key weakest := fun he => hx (by simp [he])
    rw [length_append, length_singleton] at hlen hroom
    simp only [dropLast_concat]
    have hinsert (l : List α) (hl : ∀ a ∈ l, key a < key weakest) :
        (l ++ [weakest]).orderedInsert (fun a b => key a ≤ key b) x =
          if key x < key weakest then
            l.orderedInsert (fun a b => key a ≤ key b) x ++ [weakest]
          else l ++ [weakest] ++ [x] := by
      induction l with
      | nil =>
        rw [nil_append, orderedInsert_cons]
        by_cases hlt : key x < key weakest
        · rw [if_pos hlt.le, if_pos hlt]
          rfl
        · rw [if_neg (not_le.mpr (lt_of_le_of_ne (not_lt.mp hlt) (Ne.symm hne))), if_neg hlt]
          rfl
      | cons a l ih =>
        have ha := hl a mem_cons_self
        rw [cons_append, orderedInsert_cons, orderedInsert_cons,
          ih fun b hb => hl b (mem_cons_of_mem a hb)]
        by_cases hxa : key x ≤ key a
        · rw [if_pos hxa, if_pos hxa, if_pos (hxa.trans_lt ha)]
          rfl
        · rw [if_neg hxa, if_neg hxa]
          split <;> rfl
    rw [hinsert init hinit]
    have hfull : limit = init.length + 1 := by omega
    split
    · rw [take_left']
      rw [orderedInsert_length, hfull]
    · rw [take_left']
      rw [length_append, length_singleton, hfull]

lemma ranked_best (hn : (xs.map key).Nodup) : Ranked key (best key limit xs) :=
  (ranked_insertionSort hn).sublist (take_sublist _ _)

lemma insertionSort_concat (hn : ((xs ++ [x]).map key).Nodup) :
    (xs ++ [x]).insertionSort (fun a b => key a ≤ key b) =
      (xs.insertionSort fun a b => key a ≤ key b).orderedInsert (fun a b => key a ≤ key b) x := by
  have hsplit := hn
  rw [map_append, nodup_append] at hsplit
  have hx : key x ∉ xs.map key := fun hmem => hsplit.2.2 _ hmem _ (by simp) rfl
  refine (ranked_insertionSort hn).eq_of_mem
    (ranked_orderedInsert (ranked_insertionSort hsplit.1) ?_) ?_
  · rwa [((perm_insertionSort _ xs).map key).mem_iff]
  · intro a
    rw [(perm_insertionSort _ _).mem_iff, (perm_orderedInsert _ _ _).mem_iff,
      mem_cons, (perm_insertionSort _ _).mem_iff, mem_append, mem_singleton, or_comm]

lemma foldl_retainBest (hn : (xs.map key).Nodup) :
    xs.foldl (retainBest key limit) [] = best key limit xs := by
  induction xs using reverseRecOn with
  | nil => exact take_nil.symm
  | append_singleton xs x ih =>
    have hsplit := hn
    rw [map_append, nodup_append] at hsplit
    have hx : key x ∉ (best key limit xs).map key := by
      intro hmem
      obtain ⟨a, ha, hkey⟩ := mem_map.mp hmem
      have hmem' := (perm_insertionSort _ xs).mem_iff.mp (mem_of_mem_take ha)
      exact hsplit.2.2 _ (mem_map_of_mem hmem') _ (by simp) hkey
    have hlen : (best key limit xs).length ≤ limit := length_take_le _ _
    rw [foldl_append, ih hsplit.1, foldl_cons, foldl_nil,
      retainBest_eq (ranked_best hsplit.1) hlen hx, best, take_orderedInsert_take, best,
      insertionSort_concat hn]

lemma Ranked.mem_take (h : Ranked key xs) (x : α) (limit : Nat) :
    x ∈ xs.take limit ↔ x ∈ xs ∧ xs.countP (fun a => key a < key x) < limit := by
  induction xs generalizing limit with
  | nil => simp
  | cons a xs ih =>
    obtain ⟨hfirst, hrest⟩ := pairwise_cons.mp h
    cases limit with
    | zero => simp
    | succ limit =>
      rw [take_succ_cons, mem_cons, ih hrest]
      by_cases hxa : x = a
      · have hnone : xs.countP (fun b => key b < key x) = 0 := by
          rw [countP_eq_zero]
          intro b hb
          have hlt := hfirst b hb
          rw [← hxa] at hlt
          simpa using hlt.le
        simp [hxa, hxa ▸ hnone]
      · by_cases hmem : x ∈ xs
        · have hlt := hfirst x hmem
          simp [hxa, hlt]
        · simp [hxa, hmem]

/-- An element is among the best when fewer than `limit` come before it. -/
lemma mem_best (hn : (xs.map key).Nodup) :
    x ∈ best key limit xs ↔ x ∈ xs ∧ xs.countP (fun a => key a < key x) < limit := by
  have hperm := perm_insertionSort (fun a b => key a ≤ key b) xs
  rw [best, (ranked_insertionSort hn).mem_take, hperm.mem_iff, hperm.countP_eq]

lemma best_subperm : (best key limit xs).Subperm xs :=
  (take_sublist _ _).subperm.trans (perm_insertionSort _ xs).subperm

omit [LinearOrder κ] in
lemma nodup_of_subperm (h : xs.Subperm ys) (hn : (ys.map key).Nodup) : (xs.map key).Nodup := by
  obtain ⟨zs, hperm, hsub⟩ := h
  exact ((hperm.map key).nodup_iff).mp ((hsub.map key).nodup hn)

lemma countP_lt_le {y : α} (h : key x ≤ key y) (xs : List α) :
    xs.countP (fun a => key a < key x) ≤ xs.countP fun a => key a < key y := by
  apply countP_mono_left
  intro a _ ha
  rw [decide_eq_true_iff] at ha ⊢
  exact ha.trans_le h

lemma mem_best_of_lt {y : α} (hn : (xs.map key).Nodup) (hx : x ∈ best key limit xs) (hy : y ∈ xs)
    (h : key y < key x) : y ∈ best key limit xs := by
  rw [mem_best hn] at hx ⊢
  exact ⟨hy, (countP_lt_le h.le xs).trans_lt hx.2⟩

lemma full_of_not_mem_best (hn : (xs.map key).Nodup) (hx : x ∈ xs) (hout : x ∉ best key limit xs) :
    (best key limit xs).length = limit ∧ ∀ y ∈ best key limit xs, key y < key x := by
  have hcount : limit ≤ xs.countP fun a => key a < key x := by
    by_contra hlt
    exact hout ((mem_best hn).mpr ⟨hx, Nat.lt_of_not_le hlt⟩)
  constructor
  · rw [best, length_take, length_insertionSort]
    exact Nat.min_eq_left (hcount.trans countP_le_length)
  · intro y hy
    by_contra hle
    have hmono := countP_lt_le (not_lt.mp hle) xs
    have hlt := ((mem_best hn).mp hy).2
    omega

lemma length_le_countP (hn : xs.Nodup) (hsub : ∀ a ∈ xs, a ∈ ys) (hlt : ∀ a ∈ xs, key a < key x) :
    xs.length ≤ ys.countP fun a => key a < key x := by
  rw [countP_eq_length_filter]
  refine (subperm_of_subset hn ?_).length_le
  intro a ha
  exact mem_filter.mpr ⟨hsub a ha, decide_eq_true (hlt a ha)⟩

/-! Passing elements over. An element is shaded by a kept one that shows it cannot get in. -/
section shading
variable (key) (shade : α → α → Bool)

/-- Keeps the best, and does not look at an element the weakest kept one shades. -/
def retainUnshaded (limit : Nat) (kept : List α) (x : α) : List α :=
  if kept.length == limit && kept.getLast?.any (shade · x) then kept
  else retainBest key limit kept x

/-- The elements looked at, after those seen before. -/
def unshaded (limit : Nat) : List α → List α → List α
  | seen, [] => seen
  | seen, x :: xs =>
    if limit ≤ seen.countP (shade · x) then unshaded limit seen xs
    else unshaded limit (seen ++ [x]) xs

variable {key shade}

/-- The weakest of the best shades an element when `limit` of all do. -/
lemma weakest_shades (hn : (xs.map key).Nodup) (hpos : 0 < limit)
    (hmono : ∀ v w y, key v ≤ key w → shade w y → shade v y) :
    ((best key limit xs).length == limit && (best key limit xs).getLast?.any (shade · x)) = true ↔
      limit ≤ xs.countP (shade · x) := by
  rw [Bool.and_eq_true, beq_iff_eq]
  constructor
  · intro h
    obtain ⟨hlen, hlast⟩ := h
    cases hw : (best key limit xs).getLast? with
    | none =>
      rw [hw] at hlast
      cases hlast
    | some weakest =>
      rw [hw] at hlast
      obtain ⟨init, hinit⟩ := getLast?_eq_some_iff.mp hw
      have hranked : Ranked key (best key limit xs) := ranked_best hn
      rw [hinit] at hranked
      have hall : ∀ y ∈ best key limit xs, shade y x := by
        intro y hy
        rw [hinit, mem_append] at hy
        cases hy with
        | inl hy =>
          have hlt := (pairwise_append.mp hranked).2.2 y hy weakest (by simp)
          exact hmono y weakest x hlt.le hlast
        | inr hy => exact mem_singleton.mp hy ▸ hlast
      have hcount := countP_eq_length.mpr hall
      exact (hlen.symm.trans hcount.symm).le.trans (best_subperm.countP_le _)
  · intro h
    have hlen : (best key limit xs).length = limit := by
      rw [best, length_take, length_insertionSort]
      exact Nat.min_eq_left (h.trans countP_le_length)
    refine ⟨hlen, ?_⟩
    cases hw : (best key limit xs).getLast? with
    | none =>
      rw [getLast?_eq_none_iff] at hw
      rw [hw, length_nil] at hlen
      omega
    | some weakest =>
      by_contra hout
      -- whatever shades is better than the weakest one, and there are too many of these
      have hmem := (mem_best hn).mp (mem_of_getLast? hw)
      have hbelow : xs.countP (shade · x) ≤ xs.countP fun a => key a < key weakest := by
        apply countP_mono_left
        intro a _ ha
        rw [decide_eq_true_iff]
        by_contra hle
        exact hout (hmono weakest a x (not_lt.mp hle) ha)
      omega

lemma retainBest_best (hn : ((xs ++ [x]).map key).Nodup) :
    retainBest key limit (best key limit xs) x = best key limit (xs ++ [x]) := by
  have hxs : (xs.map key).Nodup := by
    rw [map_append] at hn
    exact hn.of_append_left
  rw [← foldl_retainBest hn, foldl_append, foldl_retainBest hxs]
  rfl

/-- A run that passes shaded elements over keeps the best of those it looked at. -/
lemma foldl_retainUnshaded (hpos : 0 < limit)
    (hmono : ∀ v w y, key v ≤ key w → shade w y → shade v y) {seen : List α}
    (hn : ((seen ++ xs).map key).Nodup) :
    xs.foldl (retainUnshaded key shade limit) (best key limit seen) =
      best key limit (unshaded shade limit seen xs) := by
  induction xs generalizing seen with
  | nil => rfl
  | cons x xs ih =>
    have hseen : (seen.map key).Nodup := by
      rw [map_append] at hn
      exact hn.of_append_left
    rw [foldl_cons, retainUnshaded, unshaded]
    by_cases hshade : limit ≤ seen.countP (shade · x)
    · rw [if_pos ((weakest_shades hseen hpos hmono).mpr hshade), if_pos hshade]
      refine ih (hn.sublist ?_)
      exact (List.Sublist.append_left (sublist_cons_self x xs) seen).map key
    · have hlook := fun h => hshade ((weakest_shades hseen hpos hmono).mp h)
      have hsplit : seen ++ x :: xs = seen ++ [x] ++ xs := by rw [append_assoc]; rfl
      rw [hsplit] at hn
      have hfirst : ((seen ++ [x]).map key).Nodup := by
        rw [map_append] at hn
        exact hn.of_append_left
      rw [if_neg hlook, if_neg hshade, retainBest_best hfirst]
      exact ih hn

lemma unshaded_sublist (shade : α → α → Bool) (limit : Nat) (seen xs : List α) :
    (unshaded shade limit seen xs).Sublist (seen ++ xs) := by
  induction xs generalizing seen with
  | nil => rw [unshaded, append_nil]
  | cons x xs ih =>
    rw [unshaded]
    split
    · exact (ih seen).trans (List.Sublist.append_left (sublist_cons_self x xs) seen)
    · have hstep := ih (seen ++ [x])
      rwa [append_assoc] at hstep

lemma seen_subset_unshaded (shade : α → α → Bool) (limit : Nat) (seen xs : List α) :
    ∀ y ∈ seen, y ∈ unshaded shade limit seen xs := by
  induction xs generalizing seen with
  | nil => exact fun y hy => hy
  | cons x xs ih =>
    intro y hy
    rw [unshaded]
    split
    · exact ih seen y hy
    · exact ih (seen ++ [x]) y (mem_append_left [x] hy)

lemma unshaded_of_all {seen : List α} (h : ∀ x ∈ xs, limit ≤ seen.countP (shade · x)) :
    unshaded shade limit seen xs = seen := by
  induction xs with
  | nil => rfl
  | cons x xs ih =>
    rw [unshaded, if_pos (h x mem_cons_self)]
    exact ih fun y hy => h y (mem_cons_of_mem x hy)

lemma unshaded_append (shade : α → α → Bool) (limit : Nat) (seen xs ys : List α) :
    unshaded shade limit seen (xs ++ ys) =
      unshaded shade limit (unshaded shade limit seen xs) ys := by
  induction xs generalizing seen with
  | nil => rfl
  | cons x xs ih =>
    rw [cons_append, unshaded, unshaded]
    split
    · exact ih seen
    · exact ih (seen ++ [x])

/-- An element is looked at unless enough of those before it shade it. -/
lemma mem_unshaded_iff {seen before after : List α} (hn : (seen ++ (before ++ x :: after)).Nodup) :
    x ∈ unshaded shade limit seen (before ++ x :: after) ↔
      ¬limit ≤ (unshaded shade limit seen before).countP (shade · x) := by
  rw [unshaded_append, unshaded]
  by_cases hshade : limit ≤ (unshaded shade limit seen before).countP (shade · x)
  · rw [if_pos hshade]
    refine iff_of_false ?_ (not_not.mpr hshade)
    intro hmem
    have hrest := (unshaded_sublist shade limit _ after).subset hmem
    rw [mem_append] at hrest
    rw [← append_assoc, nodup_middle, nodup_cons, mem_append] at hn
    apply hn.1
    cases hrest with
    | inl hbefore => exact Or.inl ((unshaded_sublist shade limit seen before).subset hbefore)
    | inr hafter => exact Or.inr hafter
  · rw [if_neg hshade]
    refine iff_of_true (seen_subset_unshaded shade limit _ after x ?_) hshade
    exact mem_append_right _ mem_cons_self

end shading

section groups
variable {ι : Type*} {owners : List ι}

lemma subperm_flatMap {f g : ι → List α} (h : ∀ o ∈ owners, (f o).Subperm (g o)) :
    (owners.flatMap f).Subperm (owners.flatMap g) := by
  induction owners with
  | nil => exact List.Subperm.refl _
  | cons o owners ih =>
    exact (h o mem_cons_self).append (ih fun p hp => h p (mem_cons_of_mem o hp))

/-- Every group is cut to its best `k`, then all of them to the best `g`. Leaving elements out
beforehand is harmless exactly when none of them belongs to the final answer. -/
lemma best_groups_iff {all kept : ι → List α} {k g : Nat}
    (hn : ((owners.flatMap all).map key).Nodup) (hkept : ∀ o ∈ owners, (kept o).Subperm (all o))
    (hdisj : ∀ o ∈ owners, ∀ p ∈ owners, ∀ x, x ∈ all o → x ∈ all p → o = p) :
    best key g (owners.flatMap fun o => best key k (kept o)) =
        best key g (owners.flatMap fun o => best key k (all o)) ↔ ∀ o ∈ owners, ∀ x ∈ all o,
        x ∈ best key g (owners.flatMap fun o => best key k (all o)) → x ∈ kept o := by
  have hall : ∀ o ∈ owners, ((all o).map key).Nodup := by
    intro o ho
    refine nodup_of_subperm (List.Sublist.subperm ?_) hn
    exact sublist_flatten_of_mem (mem_map_of_mem ho)
  have hkeep : ∀ o ∈ owners, ((kept o).map key).Nodup := fun o ho =>
    nodup_of_subperm (hkept o ho) (hall o ho)
  have hnU : ((owners.flatMap fun o => best key k (all o)).map key).Nodup :=
    nodup_of_subperm (subperm_flatMap fun o _ => best_subperm) hn
  have hnU' : ((owners.flatMap fun o => best key k (kept o)).map key).Nodup :=
    nodup_of_subperm (subperm_flatMap fun o ho => best_subperm.trans (hkept o ho)) hn
  constructor
  · intro heq o ho x hx hfinal
    rw [← heq] at hfinal
    obtain ⟨p, hp, hxp⟩ := mem_flatMap.mp ((mem_best hnU').mp hfinal).1
    have hxp := best_subperm.subset hxp
    rwa [hdisj o ho p hp x hx ((hkept p hp).subset hxp)]
  · intro hcond
    have hmem {f : ι → List α} {x : α} {o : ι} (ho : o ∈ owners) (hx : x ∈ f o) :
        x ∈ owners.flatMap f := mem_flatMap.mpr ⟨o, ho, hx⟩
    -- what is left out of a group because of `k` others is beaten by `k` kept ones
    have hgroup : ∀ o ∈ owners, ∀ x ∈ best key k (kept o), x ∉ best key k (all o) →
        ∃ w ∈ best key k (all o), key w < key x ∧
          w ∉ best key g (owners.flatMap fun o => best key k (all o)) := by
      intro o ho x hx hout
      obtain ⟨hxkept, hcount⟩ := (mem_best (hkeep o ho)).mp hx
      obtain ⟨hlen, hbelow⟩ := full_of_not_mem_best (hall o ho) ((hkept o ho).subset hxkept) hout
      by_contra hnone
      push Not at hnone
      have hle := length_le_countP (ranked_best (hall o ho)).nodup
        (fun w hw => hcond o ho w (best_subperm.subset hw) (hnone w hw (hbelow w hw))) hbelow
      omega
    have hinto : ∀ x ∈ best key g (owners.flatMap fun o => best key k (all o)),
        x ∈ owners.flatMap fun o => best key k (kept o) := by
      intro x hx
      obtain ⟨o, ho, hxo⟩ := mem_flatMap.mp ((mem_best hnU).mp hx).1
      obtain ⟨hxall, hcount⟩ := (mem_best (hall o ho)).mp hxo
      refine hmem ho ((mem_best (hkeep o ho)).mpr ⟨hcond o ho x hxall hx, ?_⟩)
      exact ((hkept o ho).countP_le _).trans_lt hcount
    refine (ranked_best hnU').eq_of_mem (ranked_best hnU) fun x => ⟨fun hx => ?_, fun hx => ?_⟩
    · obtain ⟨hxU', hcount⟩ := (mem_best hnU').mp hx
      obtain ⟨o, ho, hxo⟩ := mem_flatMap.mp hxU'
      by_contra hout
      have hbeaten : ∃ w ∈ owners.flatMap fun o => best key k (all o),
          key w ≤ key x ∧ w ∉ best key g (owners.flatMap fun o => best key k (all o)) := by
        by_cases hxall : x ∈ best key k (all o)
        · exact ⟨x, hmem ho hxall, le_refl _, hout⟩
        · obtain ⟨w, hw, hlt, hwout⟩ := hgroup o ho x hxo hxall
          exact ⟨w, hmem ho hw, hlt.le, hwout⟩
      obtain ⟨w, hw, hle, hwout⟩ := hbeaten
      obtain ⟨hlen, hbelow⟩ := full_of_not_mem_best hnU hw hwout
      have hge := length_le_countP (ranked_best hnU).nodup hinto
        fun r hr => (hbelow r hr).trans_le hle
      omega
    · refine (mem_best hnU').mpr ⟨hinto x hx, ?_⟩
      have hcount := ((mem_best hnU).mp hx).2
      -- below `x` the kept groups offer nothing new
      have hle : (owners.flatMap fun o => best key k (kept o)).countP (fun a => key a < key x) ≤
          (owners.flatMap fun o => best key k (all o)).countP fun a => key a < key x := by
        rw [countP_eq_length_filter]
        apply length_le_countP
        · exact ((List.Nodup.of_map key hnU').filter _)
        · intro u hu
          obtain ⟨hu, hlt⟩ := mem_filter.mp hu
          obtain ⟨o, ho, huo⟩ := mem_flatMap.mp hu
          by_contra hout
          obtain ⟨w, hw, hwlt, hwout⟩ := hgroup o ho u huo fun hin => hout (hmem ho hin)
          exact hwout (mem_best_of_lt hnU hx (hmem ho hw) (hwlt.trans (of_decide_eq_true hlt)))
        · exact fun u hu => of_decide_eq_true (mem_filter.mp hu).2
      omega

end groups

end CriKey.Base
