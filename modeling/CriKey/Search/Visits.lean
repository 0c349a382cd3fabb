import CriKey.Base.TopK
import CriKey.Catalog.Prefilter
import CriKey.Query.Bands

/-! The visits of a slice. Whatever index they come from, they are visits of the slice's items,
and the index decides only which of them come and in which order. -/
namespace CriKey.Catalog
open CriKey.Base CriKey.Core CriKey.Query List Option PluginCatalog ItemIndex

section
variable [Unicode]

/-- The visits of all items of a slice, in stable order. -/
def visitsOf (items : List Item) : List (Nat × Item × ItemIndex) :=
  items.zipIdx.map fun entry => (entry.2, entry.1, new entry.1)

/-- The visit of a position, when its entry passes a test. -/
def visitWhere (items : List Item) (test : ItemIndex → Bool) (position : Nat) :
    Option (Nat × Item × ItemIndex) :=
  items[position]?.bind fun item =>
    if test (new item) then some (position, item, new item) else none

variable {items : List Item}

variable {visit : Nat × Item × ItemIndex}

lemma mem_visitsOf : visit ∈ visitsOf items ↔
      items[visit.1]? = some visit.2.1 ∧ visit.2.2 = new visit.2.1 := by
  rw [visitsOf, List.mem_map]
  constructor
  · intro h
    obtain ⟨entry, hentry, hvisit⟩ := h
    rw [← hvisit]
    exact ⟨mem_zipIdx_iff_getElem?.mp hentry, rfl⟩
  · intro h
    refine ⟨(visit.2.1, visit.1), mem_zipIdx_iff_getElem?.mpr h.1, ?_⟩
    rw [← h.2]

lemma ranked_visitsOf (items : List Item) : Ranked Prod.fst (visitsOf items) := by
  have hpositions : (visitsOf items).map Prod.fst = range items.length := by
    rw [visitsOf, List.map_map]
    exact zipIdx_map_snd 0 items ▸ range_eq_range'.symm
  rw [Ranked, ← pairwise_map, hpositions]
  exact pairwise_lt_range

variable {test : ItemIndex → Bool}

lemma visitWhere_eq_some {position : Nat} : visitWhere items test position = some visit ↔
      visit.1 = position ∧ visit ∈ visitsOf items ∧ test visit.2.2 := by
  rw [visitWhere, mem_visitsOf, bind_eq_some_iff]
  constructor
  · intro h
    obtain ⟨item, hitem, hvisit⟩ := h
    split at hvisit
    · rename_i htest
      cases hvisit
      exact ⟨rfl, ⟨hitem, rfl⟩, htest⟩
    · cases hvisit
  · intro h
    obtain ⟨hposition, ⟨hitem, hentry⟩, htest⟩ := h
    refine ⟨visit.2.1, hposition ▸ hitem, ?_⟩
    rw [hentry] at htest
    rw [if_pos htest, ← hposition, ← hentry]

lemma filterMap_visitWhere {positions : List Nat} (hsorted : positions.Pairwise (· < ·))
    (hall : ∀ visit ∈ visitsOf items, test visit.2.2 → visit.1 ∈ positions) :
    positions.filterMap (visitWhere items test) = (visitsOf items).filter fun visit =>
      test visit.2.2 := by
  have hranked : Ranked Prod.fst (positions.filterMap (visitWhere items test)) := by
    rw [Ranked, pairwise_filterMap]
    refine hsorted.imp ?_
    intro a b hab visit hvisit visit' hvisit'
    rw [(visitWhere_eq_some.mp hvisit).1, (visitWhere_eq_some.mp hvisit').1]
    exact hab
  refine hranked.eq_of_mem ((ranked_visitsOf items).filter _) fun visit => ?_
  rw [mem_filterMap, mem_filter]
  constructor
  · intro h
    obtain ⟨position, -, hvisit⟩ := h
    exact (visitWhere_eq_some.mp hvisit).2
  · intro h
    exact ⟨visit.1, hall visit h.1 h.2, visitWhere_eq_some.mpr ⟨rfl, h⟩⟩

variable {c : PluginCatalog}

lemma Exact.visitWhere_eq (h : Exact c) (test : ItemIndex → Bool) (position : Nat) : (do
      let item ← c.items[position]?
      let entry ← c.index[position]?
      if test entry then some (position, item, entry) else none) =
      visitWhere c.items test position := by
  rw [visitWhere, h.getElem?_index]
  cases c.items[position]? with
  | none | some item => rfl

omit [Unicode] in
lemma prefixPair_of_prefix {token text : Text} {pair : Nat} (hp : prefixPair token = some pair)
    (h : token <+: text) : prefixPair text = some pair := by
  obtain ⟨rest, rfl⟩ := h
  cases token with
  | nil => cases hp
  | cons first token =>
    cases token with
    | nil => cases hp
    | cons second token => exact hp

omit [Unicode] in
lemma prefixPair_lt {text : Text} {pair : Nat} (h : prefixPair text = some pair) :
    pair < orderedPairCount := by
  cases text with
  | nil => cases h
  | cons first text =>
    cases text with
    | nil => cases h
    | cons second text =>
      simp only [prefixPair, bind_eq_bind, bind_eq_some_iff] at h
      obtain ⟨before, hbefore, after, hafter, hpair⟩ := h
      cases hpair
      exact pair_lt (dedicatedIndex_lt hbefore) (dedicatedIndex_lt hafter)

/-- The prefix index answers with the labels that begin with the token, in stable order. -/
lemma visitPrefix_eq (h : Exact c) (hp : PrefixExact [] c) {token : Text} (hne : token ≠ []) :
    c.visitPrefix token =
      (visitsOf c.items).filter fun visit => token.isPrefixOf visit.2.2.prepared.normalized := by
  have hinside : ∀ visit ∈ visitsOf c.items, visit.1 ∈ range c.items.length := by
    intro visit hvisit
    exact List.mem_range.mpr (List.getElem?_eq_some_iff.mp (mem_visitsOf.mp hvisit).1).1
  rw [visitPrefix, if_neg hne]
  simp only [h.visitWhere_eq fun entry => token.isPrefixOf entry.prepared.normalized]
  cases hpair : prefixPair token with
  | none =>
    exact filterMap_visitWhere pairwise_lt_range fun visit hvisit _ => hinside visit hvisit
  | some pair =>
    simp only
    rw [hp pair (prefixPair_lt hpair) not_mem_nil, prefixPositions]
    refine filterMap_visitWhere (pairwise_lt_range.filter _) fun visit hvisit htest => ?_
    obtain ⟨hitem, hentry⟩ := mem_visitsOf.mp hvisit
    rw [mem_filter, h.length_index, h.getElem?_index, hitem]
    refine ⟨hinside visit hvisit, ?_⟩
    rw [map_some, any_some, ← hentry, beq_iff_eq]
    exact prefixPair_of_prefix hpair <| isPrefixOf_iff_prefix.mp htest

/-- What merging leaves: every index of the slice is right. -/
lemma exists_merges (batches : List (List Item)) (h : Exact c) (hp : PrefixExact [] c) :
    ∃ c', batches.foldlM (fun c items => (merge c items).map Prod.fst) c = some c' ∧
      Exact c' ∧ PrefixExact [] c' := by
  induction batches generalizing c with
  | nil => exact ⟨c, rfl, h, hp⟩
  | cons items batches ih =>
    obtain ⟨c₁, added, hmerge, h₁, hp₁, -⟩ := merge_spec h hp items
    obtain ⟨c', hrest, hexact⟩ := ih h₁ hp₁
    exact ⟨c', by rw [foldlM_cons, hmerge]; exact hrest, hexact⟩

/-- After any merges into a new slice its indexes are what a scan of its items gives, and so are the
visits of a prefix, except that the empty one visits nothing. -/
theorem slice_indexes_exact (batches : List (List Item)) :
    ∃ c, batches.foldlM (fun c items => (merge c items).map Prod.fst) .empty = some c ∧
      (∀ id i, c.positions.get? id = some i ↔ (c.items.map Item.stableId)[i]? = some id) ∧
      c.index = c.items.map new ∧
      (∀ bit < dedicatedBits, ∀ i, testAt c.postings bit i ↔
        ∃ item, c.items[i]? = some item ∧ (new item).mask.getLsbD bit) ∧
      (∀ pair < orderedPairCount, ∀ i, testAt c.orderedPairPostings pair i ↔
        ∃ item, c.items[i]? = some item ∧ (orderedPairSignature (preparedLabel item)).test pair) ∧
      (∀ pair < orderedPairCount, (c.prefixPostings.getD pair []).Pairwise (· < ·) ∧
        ∀ i, i ∈ c.prefixPostings.getD pair [] ↔
          ∃ item, c.items[i]? = some item ∧
            prefixPair (preparedLabel item).normalized = some pair) ∧
      ∀ token, c.visitPrefix token =
        if token = [] then [] else (visitsOf c.items).filter fun visit =>
        token.isPrefixOf visit.2.2.prepared.normalized := by
  obtain ⟨c, hrun, h, hp⟩ := exists_merges batches exact_empty prefixExact_empty
  refine ⟨c, hrun, h.indexed, h.entries, fun bit hbit i => ?_, fun pair hpair i => ?_,
    fun pair hpair => ?_, fun token => ?_⟩
  · cases hitem : c.items[i]? with
    | none => simp [h.absent bit hbit i (getElem?_eq_none_iff.mp hitem)]
    | some item => simp [h.present bit hbit i item hitem]
  · cases hitem : c.items[i]? with
    | none => simp [h.clear pair hpair i (getElem?_eq_none_iff.mp hitem)]
    | some item => simp [h.pairs pair hpair i item hitem]
  · rw [hp pair hpair not_mem_nil, prefixPositions]
    refine ⟨pairwise_lt_range.filter _, fun i => ?_⟩
    rw [mem_filter, h.getElem?_index, h.length_index, List.mem_range]
    cases hitem : c.items[i]? with
    | none => simp
    | some item => simp [(List.getElem?_eq_some_iff.mp hitem).1, new]
  · split
    case isTrue hnil => rw [hnil]; rfl
    case isFalse hne => exact visitPrefix_eq h hp hne

lemma visitCandidates_eq (laws : Laws) (h : Exact c) {query : NormalizedQuery}
    (hquery : Consistent query)
    (hshort : ∀ item ∈ c.items, byteLen (normalizeField item.label.toList) < 2 ^ 32) :
    ∃ chosen : Nat × Item × ItemIndex → Bool,
      c.visitCandidates (wantedMask query) (queryOrderedPairs query) =
        some ((visitsOf c.items).filter chosen) ∧
      ∀ visit ∈ visitsOf c.items, ∀ policy, matchesItem policy query visit.2.1 → chosen visit := by
  obtain ⟨visits, hvisits, hsorted, hitems, hcomplete⟩ :=
    visitCandidates_spec h (wantedMask query) fun _ hpair => queryOrderedPairs_lt hpair
  have hall : visits = (visitsOf c.items).filter fun visit => visit ∈ visits := by
    have hranked : Ranked Prod.fst visits := pairwise_map.mp hsorted
    refine hranked.eq_of_mem ((ranked_visitsOf c.items).filter _) fun visit => ?_
    rw [mem_filter, decide_eq_true_iff]
    refine ⟨fun hvisit => ⟨?_, hvisit⟩, fun hvisit => hvisit.2⟩
    exact mem_visitsOf.mpr ⟨(hitems visit hvisit).1, (hitems visit hvisit).2.1⟩
  refine ⟨fun visit => visit ∈ visits, hvisits.trans (congrArg some hall), ?_⟩
  intro visit hvisit policy hmatch
  obtain ⟨hitem, hentry⟩ := mem_visitsOf.mp hvisit
  have hcontained := contained_of_matches (hshort _ (mem_of_getElem? hitem)) hmatch
  have hmem := hcomplete visit.1 visit.2.1 hitem (admits_of_contained laws hquery hcontained)
    fun pair hpair => signature_of_contained hcontained hpair
  rw [decide_eq_true_iff]
  rwa [← hentry] at hmem

end

/-- A scan for labels that start with the empty token would visit the note. -/
theorem empty_token_visits_nothing : ∃ c, @PluginCatalog.fromItems Unicode.ascii [note] = some c ∧
    c.visitPrefix [] = [] ∧ ((@visitsOf Unicode.ascii c.items).filter fun visit =>
      ([] : Text).isPrefixOf visit.2.2.prepared.normalized).map (·.2.1) = [note] := by
  obtain ⟨c, hc, -, -, hitems⟩ := @fromItems_spec Unicode.ascii [note]
  refine ⟨c, hc, rfl, ?_⟩
  rw [hitems]
  rfl

end CriKey.Catalog
