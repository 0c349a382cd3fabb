import CriKey.Base.Upsert
import CriKey.Catalog.Index

/-! Merging into a slice upserts its items and keeps every index exact. -/
namespace CriKey.Catalog
open CriKey.Base CriKey.Core CriKey.Query PluginCatalog ItemIndex Bits List Item

def testAt (postings : List Bits) (bit position : Nat) : Bool :=
  (postings.getD bit []).test position

lemma testAt_modify (postings : List Bits) (f : Bits → Bits) (pair bit position : Nat) :
    testAt (postings.modify pair f) bit position =
      if pair = bit ∧ bit < postings.length then (f (postings.getD bit [])).test position
      else testAt postings bit position := by
  rw [testAt, testAt, getD_eq_getElem?_getD, getElem?_modify]
  by_cases hlt : bit < postings.length
  · by_cases hp : pair = bit
    · simp [hp, hlt]
    · simp [hp]
  · rw [getElem?_eq_none (Nat.le_of_not_lt hlt)]
    simp [hlt]

@[simp] lemma length_setPostings (position : Nat) (mask : Word) (postings : List Bits) :
    (setPostings position mask postings).length = postings.length := by
  rw [setPostings, length_mapIdx]

variable {postings : List Bits}

lemma testAt_setPostings {bit : Nat} (h : bit < postings.length) (position i : Nat) (mask : Word) :
    testAt (setPostings position mask postings) bit i =
      if i = position then mask.getLsbD bit else testAt postings bit i := by
  have hgrow : position / 64 < (postings[bit].grow (position / 64)).length := by
    rw [length_grow]
    omega
  rw [testAt, testAt, setPostings, getD_eq_getElem?_getD, getElem?_mapIdx,
    getD_eq_getElem?_getD, getElem?_eq_getElem h, Option.map_some, Option.getD_some,
    Option.getD_some, test_put _ hgrow, test_grow]

lemma long_setPostings {n position : Nat} {mask : Word}
    (h : ∀ posting ∈ postings, n ≤ posting.length) :
    ∀ posting ∈ setPostings position mask postings, max n (position / 64 + 1) ≤ posting.length := by
  intro posting hmem
  obtain ⟨i, hi, rfl⟩ := mem_mapIdx.mp hmem
  have hlen := h _ (getElem_mem hi)
  rw [length_put, length_grow]
  omega

lemma test_markPosition (position : Nat) (present : Bool) (posting : Bits) (i : Nat) :
    (markPosition position present posting).test i =
      if i = position then present else posting.test i := by
  cases present with
  | true =>
    have hgrow : position / 64 < (posting.grow (position / 64)).length := by
      rw [length_grow]
      omega
    rw [markPosition, if_pos rfl, test_put true hgrow, test_grow]
  | false => rw [markPosition, if_neg Bool.false_ne_true, test_clear]

lemma foldl_markPosition (position : Nat) (present : Bool) (pairs : List Nat)
    (postings : List Bits) :
    (pairs.foldl (fun postings pair =>
      postings.modify pair (markPosition position present)) postings).length = postings.length ∧
    ∀ pair < postings.length, ∀ i, testAt (pairs.foldl (fun postings pair =>
        postings.modify pair (markPosition position present)) postings) pair i =
        if pair ∈ pairs ∧ i = position then present else testAt postings pair i := by
  induction pairs generalizing postings with
  | nil => simp
  | cons first pairs ih =>
    obtain ⟨hlen, htest⟩ := ih (postings.modify first (markPosition position present))
    rw [length_modify] at hlen htest
    refine ⟨hlen, fun pair hpair i => ?_⟩
    have hone : testAt (postings.modify first (markPosition position present)) pair i =
        if first = pair ∧ i = position then present else testAt postings pair i := by
      rw [testAt_modify, test_markPosition]
      by_cases hfirst : first = pair
      · simp [hfirst, hpair, testAt]
      · simp [hfirst]
    rw [foldl_cons, htest pair hpair i, hone]
    by_cases hi : i = position
    · by_cases hmem : pair ∈ pairs
      · simp [hi, hmem]
      · simp [hmem, eq_comm]
    · simp [hi]

lemma length_setOrderedPairPostings (position : Nat) (signature : Bits) (present : Bool)
    (postings : List Bits) :
    (setOrderedPairPostings position signature present postings).length = postings.length :=
  (foldl_markPosition position present signature.elements postings).1

lemma testAt_setOrderedPairPostings (position : Nat) (signature : Bits) (present : Bool)
    {pair : Nat} (h : pair < postings.length) (i : Nat) :
    testAt (setOrderedPairPostings position signature present postings) pair i =
      if signature.test pair ∧ i = position then present else testAt postings pair i := by
  rw [setOrderedPairPostings, (foldl_markPosition _ _ _ _).2 pair h i]
  simp only [mem_elements]

lemma prefixPositions_set {index : List ItemIndex} {position : Nat} {old new : ItemIndex}
    {pair : Nat} (hold : index[position]? = some old)
    (hsame : prefixPair old.prepared.normalized = some pair ↔
      prefixPair new.prepared.normalized = some pair) :
    PluginCatalog.prefixPositions (index.set position new) pair =
      PluginCatalog.prefixPositions index pair := by
  rw [prefixPositions, length_set]
  apply filter_congr
  intro i _
  rw [getElem?_set]
  by_cases hi : position = i
  · subst hi
    have hlt : position < index.length := (List.getElem?_eq_some_iff.mp hold).1
    rw [if_pos rfl, if_pos hlt, hold, Option.any_some, Option.any_some, Bool.eq_iff_iff, beq_iff_eq,
      beq_iff_eq]
    exact hsame.symm
  · rw [if_neg hi]

lemma prefixPositions_append (index : List ItemIndex) (new : ItemIndex) (pair : Nat) :
    PluginCatalog.prefixPositions (index ++ [new]) pair =
      PluginCatalog.prefixPositions index pair ++
        if prefixPair new.prepared.normalized = some pair then [index.length] else [] := by
  rw [prefixPositions, length_append, length_singleton, range_succ, filter_append]
  congr 1
  · apply filter_congr
    intro i hi
    rw [getElem?_append_left (mem_range.mp hi)]
  · rw [filter_singleton, getElem?_concat_length, Option.any_some]
    by_cases h : prefixPair new.prepared.normalized = some pair
    · simp [h]
    · rw [if_neg h, beq_eq_false_iff_ne.mpr h]
      rfl

/-- Every index of a slice agrees with its items. -/
structure Exact [Unicode] (c : PluginCatalog) : Prop where
  indexed : Indexed stableId c.positions.get? c.items
  entries : c.index = c.items.map ItemIndex.new
  width : c.postings.length = dedicatedBits
  long : ∀ posting ∈ c.postings, (c.items.length + 63) / 64 ≤ posting.length
  present : ∀ bit < dedicatedBits, ∀ i item, c.items[i]? = some item →
    testAt c.postings bit i = (ItemIndex.new item).mask.getLsbD bit
  absent : ∀ bit < dedicatedBits, ∀ i, c.items.length ≤ i → testAt c.postings bit i = false
  pairWidth : c.orderedPairPostings.length = orderedPairCount
  pairs : ∀ pair < orderedPairCount, ∀ i item, c.items[i]? = some item →
    testAt c.orderedPairPostings pair i = (orderedPairSignature (preparedLabel item)).test pair
  clear : ∀ pair < orderedPairCount, ∀ i, c.items.length ≤ i →
    testAt c.orderedPairPostings pair i = false
  prefixWidth : c.prefixPostings.length = orderedPairCount

/-- The prefix buckets are right, except for those still to be rebuilt. -/
def PrefixExact (dirty : List Nat) (c : PluginCatalog) : Prop :=
  ∀ pair < orderedPairCount, pair ∉ dirty →
    c.prefixPostings.getD pair [] = PluginCatalog.prefixPositions c.index pair

variable [Unicode] {c : PluginCatalog} {dirty : List Nat}

lemma Exact.length_index (h : Exact c) : c.index.length = c.items.length := by
  rw [h.entries, length_map]

lemma Exact.getElem?_index (h : Exact c) (i : Nat) :
    c.index[i]? = c.items[i]?.map ItemIndex.new := by
  rw [h.entries, getElem?_map]

omit [Unicode] in
lemma testAt_replacePairs {pair : Nat} (h : pair < postings.length) (position i : Nat)
    (old new : Bits) (hold : testAt postings pair position = old.test pair) :
    testAt (setOrderedPairPostings position new true
      (setOrderedPairPostings position old false postings)) pair i =
        if i = position then new.test pair else testAt postings pair i := by
  have hlen : pair < (setOrderedPairPostings position old false postings).length := by
    rwa [length_setOrderedPairPostings]
  rw [testAt_setOrderedPairPostings _ _ _ hlen, testAt_setOrderedPairPostings _ _ _ h]
  by_cases hi : i = position
  · subst hi
    cases hnew : new.test pair <;> cases ho : old.test pair <;> simp [hold, ho]
  · simp [hi]

/-- An item put at a position keeps the indexes exact when the postings say the same of it. -/
lemma Exact.put (h : Exact c) {c' : PluginCatalog} {position : Nat} {item : Item}
    (hindexed : Indexed stableId c'.positions.get? c'.items)
    (hentries : c'.index = c'.items.map ItemIndex.new)
    (hget : ∀ i, c'.items[i]? = if i = position then some item else c.items[i]?)
    (hlong : (c'.items.length + 63) / 64 ≤ max ((c.items.length + 63) / 64) (position / 64 + 1))
    (hpostings : c'.postings = setPostings position (ItemIndex.new item).mask c.postings)
    (hwidth : c'.orderedPairPostings.length = orderedPairCount)
    (hpairs : ∀ pair < orderedPairCount, ∀ i, testAt c'.orderedPairPostings pair i =
      if i = position then (orderedPairSignature (preparedLabel item)).test pair
      else testAt c.orderedPairPostings pair i)
    (hstarts : c'.prefixPostings.length = orderedPairCount) : Exact c' := by
  have hfar : ∀ i, c'.items.length ≤ i → i ≠ position ∧ c.items.length ≤ i := by
    intro i hi
    have hnone := hget i
    rw [getElem?_eq_none hi] at hnone
    by_cases hne : i = position
    · simp [hne] at hnone
    · rw [if_neg hne] at hnone
      exact ⟨hne, getElem?_eq_none_iff.mp hnone.symm⟩
  refine ⟨hindexed, hentries, ?_, ?_, ?_, ?_, hwidth, ?_, ?_, hstarts⟩
  · rw [hpostings, length_setPostings, h.width]
  · intro posting hmem
    rw [hpostings] at hmem
    exact hlong.trans (long_setPostings h.long posting hmem)
  · intro bit hbit i item' hitem
    rw [hget] at hitem
    rw [hpostings, testAt_setPostings (h.width ▸ hbit)]
    by_cases hi : i = position
    · rw [if_pos hi] at hitem ⊢
      rw [Option.some.inj hitem]
    · rw [if_neg hi] at hitem ⊢
      exact h.present bit hbit i item' hitem
  · intro bit hbit i hi
    obtain ⟨hne, hold⟩ := hfar i hi
    rw [hpostings, testAt_setPostings (h.width ▸ hbit), if_neg hne]
    exact h.absent bit hbit i hold
  · intro pair hpair i item' hitem
    rw [hget] at hitem
    rw [hpairs pair hpair]
    by_cases hi : i = position
    · rw [if_pos hi] at hitem ⊢
      rw [Option.some.inj hitem]
    · rw [if_neg hi] at hitem ⊢
      exact h.pairs pair hpair i item' hitem
  · intro pair hpair i hi
    obtain ⟨hne, hold⟩ := hfar i hi
    rw [hpairs pair hpair, if_neg hne]
    exact h.clear pair hpair i hold

/-- What a merge of `items` comes to, with the items added to `added` and the dirty buckets. -/
def Merges (c : PluginCatalog) (added : Nat) (items : List Item)
    (result : Option (PluginCatalog × Nat × List Nat)) : Prop :=
  ∃ c' added' dirty', result = some (c', added', dirty') ∧ Exact c' ∧ PrefixExact dirty' c' ∧
    c'.items = upsertAll stableId c.items items ∧
    c'.items.length + added = c.items.length + added'

section
variable (h : Exact c) (hp : PrefixExact dirty c) (added : Nat)
include h hp

lemma mergeOne_known (item : Item) {position : Nat}
    (hpos : c.positions.get? item.stableId = some position) :
    Merges c added [item] (PluginCatalog.mergeOne (c, added, dirty) item) := by
  obtain ⟨hup, hidx⟩ := h.indexed.replace hpos
  have hslot := (h.indexed _ _).mp hpos
  rw [getElem?_map, Option.map_eq_some_iff] at hslot
  obtain ⟨old, hold, -⟩ := hslot
  have hlt : position < c.items.length := (List.getElem?_eq_some_iff.mp hold).1
  have hentry : c.index[position]? = some (new old) := by
    rw [h.getElem?_index, hold, Option.map_some]
  simp only [mergeOne, hpos, hentry, hold]
  refine ⟨_, _, _, rfl, h.put hidx ?_ ?_ ?_ rfl ?_ ?_ h.prefixWidth, ?_, hup.symm,
    congrArg (· + added) length_set⟩
  · show c.index.set position _ = (c.items.set position item).map _
    rw [h.entries, map_set]
  · intro i
    rw [getElem?_set]
    by_cases hi : position = i
    · rw [if_pos hi, if_pos hlt, if_pos hi.symm]
    · rw [if_neg hi, if_neg (Ne.symm hi)]
  · rw [length_set]
    omega
  · rw [length_setOrderedPairPostings, length_setOrderedPairPostings, h.pairWidth]
  · intro pair hpair i
    exact testAt_replacePairs (h.pairWidth ▸ hpair) position i _ _
      (h.pairs pair hpair position old hold)
  · -- a bucket that is not dirty has neither lost nor gained the position
    intro pair hpair hclean
    have hsame : prefixPair (new old).prepared.normalized = some pair ↔
        prefixPair (new item).prepared.normalized = some pair := by
      by_cases heq : prefixPair (new old).prepared.normalized =
          prefixPair (new item).prepared.normalized
      · rw [heq]
      rw [if_neg heq] at hclean
      constructor
      · intro he
        exact absurd (by simp [he]) hclean
      · intro he
        exact absurd (by simp [he]) hclean
    have hstill : pair ∉ dirty := by
      intro hmem
      apply hclean
      split
      · exact hmem
      · exact mem_append_right _ hmem
    rw [prefixPositions_set hentry hsame]
    exact hp pair hpair hstill

lemma mergeOne_fresh (item : Item) (hpos : c.positions.get? item.stableId = none) :
    Merges c added [item] (PluginCatalog.mergeOne (c, added, dirty) item) := by
  obtain ⟨hup, hidx⟩ := h.indexed.append (c.positions.insert item.stableId c.items.length).get? hpos
    (by rw [Table.get?_insert, if_pos rfl])
    (fun k hk => by rw [Table.get?_insert, if_neg hk])
  simp only [mergeOne, hpos]
  refine ⟨_, _, _, rfl, h.put hidx ?_ ?_ ?_ rfl ?_ ?_ ?_, ?_, hup.symm, by simp; omega⟩
  · show c.index ++ [_] = (c.items ++ [item]).map _
    rw [h.entries, map_append, map_singleton]
  · intro i
    by_cases hi : i = c.items.length
    · rw [hi, getElem?_concat_length, if_pos rfl]
    rw [if_neg hi]
    by_cases hlt : i < c.items.length
    · rw [getElem?_append_left hlt]
    · rw [getElem?_eq_none (by simp; omega), getElem?_eq_none (by omega)]
  · rw [length_append, length_singleton]
    omega
  · rw [length_setOrderedPairPostings, h.pairWidth]
  · intro pair hpair i
    rw [testAt_setOrderedPairPostings _ _ _ (h.pairWidth ▸ hpair)]
    by_cases hi : i = c.items.length
    · rw [h.clear pair hpair i hi.ge]
      simp only [hi, and_true]
      show (if (orderedPairSignature (preparedLabel item)).test pair = true then true
        else false) = _
      cases (orderedPairSignature (preparedLabel item)).test pair <;> rfl
    · rw [if_neg hi, if_neg fun hand => hi hand.2]
  · cases prefixPair (new item).prepared.normalized with
    | none => exact h.prefixWidth
    | some new => exact (length_modify _ _ _).trans h.prefixWidth
  · intro pair hpair hclean
    have hold := hp pair hpair hclean
    rw [prefixPositions_append, ← hold, h.length_index]
    cases hnew : prefixPair (new item).prepared.normalized with
    | none => simp
    | some new =>
      have hlt : pair < c.prefixPostings.length := h.prefixWidth ▸ hpair
      simp only [getElem?_modify, getD_eq_getElem?_getD, getElem?_eq_getElem hlt]
      by_cases hsame : new = pair
      · simp [hsame]
      · simp [hsame]

lemma mergeAll (items : List Item) :
    Merges c added items (items.foldlM PluginCatalog.mergeOne (c, added, dirty)) := by
  induction items generalizing c added dirty with
  | nil => exact ⟨c, added, dirty, rfl, h, hp, rfl, rfl⟩
  | cons item items ih =>
    obtain ⟨c₁, added₁, dirty₁, hone, h₁, hp₁, hitems, hlen⟩ :
        Merges c added [item] (PluginCatalog.mergeOne (c, added, dirty) item) := by
      cases hpos : c.positions.get? item.stableId with
      | none => exact mergeOne_fresh h hp added item hpos
      | some position => exact mergeOne_known h hp added item hpos
    obtain ⟨c', added', dirty', hrest, h', hp', hall, hcount⟩ := ih h₁ hp₁ added₁
    rw [hitems] at hall
    refine ⟨c', added', dirty', ?_, h', hp', hall, by omega⟩
    rw [foldlM_cons, hone]
    exact hrest

end

lemma merge_spec (h : Exact c) (hp : PrefixExact [] c) (items : List Item) :
    ∃ c' added, c.merge items = some (c', added) ∧ Exact c' ∧ PrefixExact [] c' ∧
      c'.items = upsertAll stableId c.items items ∧ c'.items.length = c.items.length + added := by
  obtain ⟨c', added, dirty, hall, h', hp', hitems, hcount⟩ := mergeAll h hp 0 items
  rw [PluginCatalog.merge, hall]
  refine ⟨_, _, rfl, { h' with prefixWidth := ?_ }, ?_, hitems, hcount⟩
  · rw [length_mapIdx, h'.prefixWidth]
  · intro pair hpair _
    have hlt : pair < c'.prefixPostings.length := h'.prefixWidth ▸ hpair
    show (c'.prefixPostings.mapIdx _).getD pair [] = _
    rw [getD_eq_getElem?_getD, getElem?_mapIdx, getElem?_eq_getElem hlt, Option.map_some]
    split
    · rfl
    · rename_i hclean
      rw [← hp' pair hpair hclean, getD_eq_getElem?_getD, getElem?_eq_getElem hlt]

lemma exact_empty : Exact PluginCatalog.empty where
  indexed := Indexed.empty fun _ => rfl
  entries := rfl
  width := length_replicate
  long := by
    intro posting _
    exact Nat.zero_le _
  present := by
    intro bit _ i item hitem
    cases hitem
  absent := by
    intro bit hbit i _
    rw [testAt, empty, getD_eq_getElem?_getD, getElem?_replicate_of_lt hbit, test]
    simp
  pairWidth := length_replicate
  pairs := by
    intro pair _ i item hitem
    cases hitem
  clear := by
    intro pair hpair i _
    rw [testAt, empty, getD_eq_getElem?_getD, getElem?_replicate_of_lt hpair, test]
    simp
  prefixWidth := length_replicate

omit [Unicode] in
lemma prefixExact_empty : PrefixExact [] PluginCatalog.empty := by
  intro pair hpair _
  rw [empty, getD_eq_getElem?_getD, getElem?_replicate_of_lt hpair]
  rfl

lemma fromItems_spec (items : List Item) :
    ∃ c', PluginCatalog.fromItems items = some c' ∧ Exact c' ∧ PrefixExact [] c' ∧
      c'.items = upsertAll stableId [] items := by
  obtain ⟨c', added, hmerge, h, hp, hitems, -⟩ := merge_spec exact_empty prefixExact_empty items
  exact ⟨c', by rw [fromItems, hmerge]; rfl, h, hp, hitems⟩

end CriKey.Catalog
