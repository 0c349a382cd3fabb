import CriKey.Base.Codec
import CriKey.Catalog.Signature
import CriKey.Catalog.Updates

/-! The candidate prefilter: the presence masks, the postings and the ordered pairs let every
item through that the matcher can match, once and in stable order. -/
namespace CriKey.Catalog
open CriKey.Base CriKey.Core CriKey.Query PluginCatalog MemoryCatalog List Nat PreparedLabel

/-- The normalized text is normalized, and the tokens are its words. -/
def Consistent [Unicode] (query : NormalizedQuery) : Prop :=
  normalizeText query.normalized = query.normalized ∧
    query.tokens = splitWhitespace query.normalized

section
variable [Unicode]

lemma getLsbD_wantedMask (query : NormalizedQuery) (i : Nat) :
    (wantedMask query).getLsbD i ↔ ∃ token ∈ query.tokens, (presenceMask token).getLsbD i := by
  have hall (tokens : List Text) : ∀ mask : Word,
      (tokens.foldl (fun wanted token => wanted ||| presenceMask token) mask).getLsbD i ↔
        mask.getLsbD i ∨ ∃ token ∈ tokens, (presenceMask token).getLsbD i := by
    induction tokens with
    | nil => simp
    | cons token tokens ih =>
      intro mask
      rw [foldl_cons, ih, BitVec.getLsbD_or, Bool.or_eq_true, exists_mem_cons_iff, or_assoc]
  have hzero : ¬(0 : Word).getLsbD i = true := by simp
  exact (hall query.tokens 0).trans (or_iff_right hzero)

omit [Unicode] in
lemma admits_iff {entry : ItemIndex} {wanted : Word} :
    entry.admits wanted ↔ ∀ i, wanted.getLsbD i → entry.mask.getLsbD i := by
  rw [ItemIndex.admits, beq_iff_eq]
  constructor
  · intro h i hi
    have hbit := congrArg (·.getLsbD i) h
    have hlt := BitVec.lt_of_getLsbD hi
    simpa [hi, hlt] using hbit
  · intro h
    apply BitVec.eq_of_getLsbD_eq
    intro i hi
    have hbit := h i
    cases hw : wanted.getLsbD i with
    | false => simp [hw]
    | true => simp [hw, hbit hw]

variable {item : Item}

lemma mem_text_of_contained {token : Text} (h : Contained (preparedLabel item) token) {c : Char}
    (hc : c ∈ token) : c ∈ (searchableTextWithLabel item).1 := by
  cases h with
  | inl hlabel =>
    obtain ⟨tail, htext, -⟩ := searchableText_split item
    have hmem := hlabel.subset hc
    rw [preparedLabel_normalized] at hmem
    rw [htext]
    exact mem_append_left tail hmem
  | inr hkeywords => exact (keywords_suffix item).subset (hkeywords.subset hc)

variable {query : NormalizedQuery}

lemma admits_of_contained (laws : Laws) (hquery : Consistent query)
    (h : ∀ token ∈ query.tokens, Contained (preparedLabel item) token) :
    (ItemIndex.new item).admits (wantedMask query) := by
  rw [admits_iff]
  intro i hi
  obtain ⟨token, htoken, hbit⟩ := (getLsbD_wantedMask query i).mp hi
  have hfixed : normalizeText token = token := by
    apply laws.part query.normalized token hquery.1
    exact infix_of_mem_splitWhitespace (hquery.2 ▸ htoken)
  rw [presenceMask_eq laws hfixed, getLsbD_maskOf] at hbit
  obtain ⟨c, hc, hbit⟩ := hbit
  show (presenceMask (searchableTextWithLabel item).1).getLsbD i = true
  rw [presenceMask_eq laws (searchableText_fixed laws item), getLsbD_maskOf]
  exact ⟨c, mem_text_of_contained (h token htoken) hc, hbit⟩

lemma signature_of_contained (h : ∀ token ∈ query.tokens, Contained (preparedLabel item) token)
    {pair : Nat} (hpair : pair ∈ queryOrderedPairs query) :
    (orderedPairSignature (preparedLabel item)).test pair := by
  obtain ⟨token, htoken, a, b, hpart, hof⟩ := mem_queryOrderedPairs hpair
  apply signature_test (preparedLabel item) hof
  cases h token htoken with
  | inl hlabel => exact .inl (hpart.sublist.trans hlabel)
  | inr hkeywords => exact .inr (hpart.trans hkeywords)

omit [Unicode] in
lemma queryOrderedPairs_lt {pair : Nat} (h : pair ∈ queryOrderedPairs query) :
    pair < orderedPairCount := by
  obtain ⟨-, -, a, b, -, hof⟩ := mem_queryOrderedPairs h
  exact hof.lt

/-! Visiting. -/

def dedicatedPart (wanted : Word) : Word := wanted &&& (BitVec.twoPow 64 dedicatedBits - 1)

omit [Unicode] in
lemma getLsbD_dedicatedPart (wanted : Word) (i : Nat) :
    (dedicatedPart wanted).getLsbD i ↔ wanted.getLsbD i ∧ i < dedicatedBits := by
  have hmask : ∀ j < 64, (BitVec.twoPow 64 dedicatedBits - 1).getLsbD j =
      decide (j < dedicatedBits) := by
    decide
  rw [dedicatedPart, BitVec.getLsbD_and, Bool.and_eq_true]
  by_cases hi : i < 64
  · rw [hmask i hi, decide_eq_true_iff]
  · have hout := BitVec.getLsbD_of_ge wanted i (Nat.le_of_not_lt hi)
    simp [hout]

variable {c : PluginCatalog}

lemma candidateWord_spec (h : Exact c) {dedicated : Word} {pairs : List Nat} {wordIndex : Nat}
    (hdedicated : ∀ bit ∈ bitsOf dedicated, bit < dedicatedBits)
    (hpairs : ∀ pair ∈ pairs, pair < orderedPairCount)
    (hword : wordIndex < (c.items.length + 63) / 64) :
    ∃ word, c.candidateWord dedicated pairs wordIndex = some word ∧ ∀ i < 64, word.getLsbD i ↔
        (∀ bit ∈ bitsOf dedicated, testAt c.postings bit (wordIndex * 64 + i)) ∧
          ∀ pair ∈ pairs, testAt c.orderedPairPostings pair (wordIndex * 64 + i) := by
  obtain ⟨first, hfirst, hfirstBits⟩ := foldlM_and (g := fun positions bit => do
      let posting ← c.postings[bit]?
      let word ← posting[wordIndex]?
      some (positions &&& word))
    (fun bit => (c.postings.getD bit []).getD wordIndex 0) (bitsOf dedicated)
    (BitVec.allOnes 64) (by
      intro bit hbit word
      have hlt : bit < c.postings.length := h.width ▸ hdedicated bit hbit
      have hlong : wordIndex < c.postings[bit].length := hword.trans_le (h.long _ (getElem_mem hlt))
      simp [getElem?_eq_getElem hlt, getElem?_eq_getElem hlong])
  obtain ⟨word, hwordEq, hwordBits⟩ := foldlM_and (g := fun positions pair => do
      let posting ← c.orderedPairPostings[pair]?
      some (positions &&& posting.getD wordIndex 0))
    (fun pair => (c.orderedPairPostings.getD pair []).getD wordIndex 0) pairs first (by
      intro pair hpair word
      have hlt : pair < c.orderedPairPostings.length := h.pairWidth ▸ hpairs pair hpair
      simp [getElem?_eq_getElem hlt])
  refine ⟨word, ?_, fun i hi => ?_⟩
  · rw [candidateWord, hfirst]
    exact hwordEq
  · have hones : (BitVec.allOnes 64).getLsbD i = true := by
      rw [BitVec.getLsbD_allOnes, decide_eq_true hi]
    rw [hwordBits, hfirstBits, hones]
    simp only [testAt, Bits.test_word _ hi, true_and]

omit [Unicode] in
lemma flatten_words {n : Nat} {f : Nat → Option (List Nat)} {g : Nat → Word}
    (hf : ∀ word < n, f word = some ((bitsOf (g word)).map (word * 64 + ·))) :
    ∃ words, (List.range n).mapM f = some words ∧ words.flatten.Pairwise (· < ·) ∧
      ∀ position, position ∈ words.flatten ↔
        ∃ word < n, ∃ i, (g word).getLsbD i ∧ word * 64 + i = position := by
  refine ⟨(range n).map fun word => (bitsOf (g word)).map (word * 64 + ·), ?_, ?_, ?_⟩
  · rw [mapM_eq_some, forall₂_map_right_iff, forall₂_same]
    exact fun word hword => hf word (mem_range.mp hword)
  · rw [pairwise_flatten]
    constructor
    · intro positions hmem
      obtain ⟨word, -, rfl⟩ := mem_map.mp hmem
      exact (bitsOf_ascending (g word)).map _ fun i j hij => Nat.add_lt_add_left hij _
    · refine pairwise_lt_range.map _ ?_
      intro word word' hlt x hx y hy
      obtain ⟨i, hi, rfl⟩ := mem_map.mp hx
      obtain ⟨j, -, rfl⟩ := mem_map.mp hy
      have hi' := bitsOf_lt hi
      omega
  · intro position
    simp only [mem_flatten, mem_map, mem_range, exists_exists_and_eq_and, mem_bitsOf]

variable {visit : Nat × Item × ItemIndex}

omit [Unicode] in
lemma visitPosition_eq_some {wanted : Word} {position : Nat}
    (h : c.visitPosition wanted position = some visit) :
    visit.1 = position ∧ c.items[position]? = some visit.2.1 ∧
      c.index[position]? = some visit.2.2 := by
  simp only [visitPosition, Option.bind_eq_bind, Option.bind_eq_some_iff] at h
  obtain ⟨item, hitem, entry, hentry, h⟩ := h
  split at h
  · cases h
    exact ⟨rfl, hitem, hentry⟩
  · cases h

lemma visits_of_positions (h : Exact c) (wanted : Word) {positions : List Nat}
    (hsorted : positions.Pairwise (· < ·)) :
    ((positions.filterMap (c.visitPosition wanted)).map Prod.fst).Pairwise (· < ·) ∧
      (∀ visit ∈ positions.filterMap (c.visitPosition wanted),
        c.items[visit.1]? = some visit.2.1 ∧ visit.2.2 = ItemIndex.new visit.2.1) ∧
      ∀ position ∈ positions, ∀ item, c.items[position]? = some item →
        (ItemIndex.new item).admits wanted →
        (position, item, ItemIndex.new item) ∈ positions.filterMap (c.visitPosition wanted) := by
  refine ⟨?_, ?_, ?_⟩
  · rw [pairwise_map, pairwise_filterMap]
    refine hsorted.imp ?_
    intro a b hab visit hvisit visit' hvisit'
    rw [(visitPosition_eq_some hvisit).1, (visitPosition_eq_some hvisit').1]
    exact hab
  · intro visit hmem
    obtain ⟨position, -, hvisit⟩ := mem_filterMap.mp hmem
    obtain ⟨hposition, hitem, hentry⟩ := visitPosition_eq_some hvisit
    rw [h.getElem?_index, hitem, Option.map_some, Option.some.injEq] at hentry
    exact ⟨hposition ▸ hitem, hentry.symm⟩
  · intro position hposition item hitem hadmits
    refine mem_filterMap.mpr ⟨position, hposition, ?_⟩
    simp [visitPosition, hitem, h.getElem?_index, hadmits]

lemma visitCandidates_spec (h : Exact c) (wanted : Word) {pairs : List Nat}
    (hpairs : ∀ pair ∈ pairs, pair < orderedPairCount) :
    ∃ visits, c.visitCandidates wanted pairs = some visits ∧
      (visits.map Prod.fst).Pairwise (· < ·) ∧
      (∀ visit ∈ visits, c.items[visit.1]? = some visit.2.1 ∧ visit.2.2 = ItemIndex.new visit.2.1 ∧
          ∀ pair ∈ pairs, (orderedPairSignature (preparedLabel visit.2.1)).test pair) ∧
      ∀ position item, c.items[position]? = some item → (ItemIndex.new item).admits wanted →
        (∀ pair ∈ pairs, (orderedPairSignature (preparedLabel item)).test pair) →
        (position, item, ItemIndex.new item) ∈ visits := by
  have hinside {position : Nat} {item : Item} (hitem : c.items[position]? = some item) :
      position < c.items.length := (List.getElem?_eq_some_iff.mp hitem).1
  have hdedicated : ∀ bit ∈ bitsOf (dedicatedPart wanted), bit < dedicatedBits := fun bit hbit =>
    ((getLsbD_dedicatedPart wanted bit).mp (mem_bitsOf.mp hbit)).2
  rw [visitCandidates]
  by_cases hall : (dedicatedPart wanted = 0 && pairs = []) = true
  · -- no letters and no pairs: the masks alone decide
    obtain ⟨hsorted, hvisits, hcomplete⟩ :=
      visits_of_positions h wanted (pairwise_lt_range (n := c.items.length))
    have hnone : pairs = [] := of_decide_eq_true (Bool.and_eq_true_iff.mp hall).2
    refine ⟨_, if_pos hall, hsorted, fun visit hvisit =>
      ⟨(hvisits visit hvisit).1, (hvisits visit hvisit).2, by simp [hnone]⟩, ?_⟩
    intro position item hitem hadmits _
    exact hcomplete position (mem_range.mpr (hinside hitem)) item hitem hadmits
  · let word (index : Nat) : Word :=
      (c.candidateWord (dedicatedPart wanted) pairs index).getD 0
    have hword {index : Nat} (hindex : index < (c.items.length + 63) / 64) :
        c.candidateWord (dedicatedPart wanted) pairs index = some (word index) := by
      obtain ⟨value, hvalue, -⟩ := candidateWord_spec h hdedicated hpairs hindex
      simp only [word, hvalue, Option.getD_some]
    obtain ⟨words, hwords, hsorted, hmem⟩ := flatten_words (f := fun index => do
        let word ← c.candidateWord (dedicatedPart wanted) pairs index
        some ((bitsOf word).map (index * 64 + ·)))
      (g := word) (n := (c.items.length + 63) / 64) fun index hindex => by
        rw [hword hindex]
        rfl
    obtain ⟨hpositions, hvisits, hcomplete⟩ := visits_of_positions h wanted hsorted
    refine ⟨words.flatten.filterMap (c.visitPosition wanted), ?_, hpositions, ?_, ?_⟩
    · refine (if_neg hall).trans ?_
      exact congrArg (· >>= fun words => some (words.flatten.filterMap (c.visitPosition wanted)))
        hwords
    · intro visit hvisit
      obtain ⟨hitem, hentry⟩ := hvisits visit hvisit
      refine ⟨hitem, hentry, fun pair hpair => ?_⟩
      obtain ⟨position, hposition, hfound⟩ := mem_filterMap.mp hvisit
      obtain ⟨index, hindex, i, hi, rfl⟩ := (hmem position).mp hposition
      obtain ⟨value, hvalue, hbits⟩ := candidateWord_spec h hdedicated hpairs hindex
      simp only [word, hvalue] at hi
      have htest := ((hbits i (BitVec.lt_of_getLsbD hi)).mp hi).2 pair hpair
      rw [← (visitPosition_eq_some hfound).1] at htest
      rwa [h.pairs pair (hpairs pair hpair) visit.1 visit.2.1 hitem] at htest
    · intro position item hitem hadmits hsignature
      have hlt := hinside hitem
      have hindex : position / 64 < (c.items.length + 63) / 64 := by omega
      have hsplit : position / 64 * 64 + position % 64 = position := by omega
      obtain ⟨value, hvalue, hbits⟩ := candidateWord_spec h hdedicated hpairs hindex
      have hbit : (word (position / 64)).getLsbD (position % 64) = true := by
        simp only [word, hvalue, Option.getD_some]
        rw [hbits _ (mod_lt _ (by decide)), hsplit]
        constructor
        · intro bit hbit
          have hwanted := (getLsbD_dedicatedPart wanted bit).mp (mem_bitsOf.mp hbit)
          rw [h.present bit hwanted.2 position item hitem]
          exact admits_iff.mp hadmits bit hwanted.1
        · intro pair hpair
          rw [h.pairs pair (hpairs pair hpair) position item hitem]
          exact hsignature pair hpair
      have hposition := (hmem position).mpr ⟨_, hindex, _, hbit, hsplit⟩
      exact hcomplete position hposition item hitem hadmits

/-- A matching item is contained in its label, as long as the folded label is addressable. -/
lemma contained_of_matches {policy : MatchPolicy}
    (hshort : byteLen (normalizeField item.label.toList) < 2 ^ 32)
    (h : matchesItem policy query item) :
    ∀ token ∈ query.tokens, Contained (preparedLabel item) token :=
  (scorePrepared_contained (preparedLabel_ordered item hshort) h).2

/-- Every label an operation publishes folds to fewer than four gigabytes. -/
def ShortLabels (op : Op) : Prop :=
  match op with
  | .apply _ _ _ items => ∀ item ∈ items, byteLen (normalizeField item.label.toList) < 2 ^ 32
  | _ => True

lemma Change.short {op : Op} {catalog catalog' : MemoryCatalog}
    {answer : Except CatalogError Unit} (hs : Sound catalog)
    (h : Change catalog op catalog' answer) (hop : ShortLabels op)
    (hold : ∀ plugin, ∀ item ∈ catalog.slice plugin,
      byteLen (normalizeField item.label.toList) < 2 ^ 32) :
    ∀ plugin, ∀ item ∈ catalog'.slice plugin,
      byteLen (normalizeField item.label.toList) < 2 ^ 32 := by
  cases h with
  | refused | activated _ | retired | absent | untouched _ _ _ => exact hold
  | invalidated _ _ =>
    intro plugin item hitem
    rw [slice_replaced (.inl ⟨rfl, rfl⟩)] at hitem
    split at hitem
    · cases hitem
    · exact hold plugin item hitem
  | published _ _ hplugins =>
    intro plugin item hitem
    rw [slice_replaced hplugins] at hitem
    split at hitem
    · cases hs.mem_reference hitem with
      | inl hkept => exact hold _ item hkept
      | inr hnew => exact hop item hnew
    · exact hold plugin item hitem

lemma short_of_exec {limits : CatalogLimits} {tr : List (Op × Except CatalogError Unit)}
    {catalog : MemoryCatalog} (h : Exec step (.withLimits limits) tr catalog)
    (hshort : ∀ event ∈ tr, ShortLabels event.1) : ∀ plugin, ∀ item ∈ catalog.slice plugin,
      byteLen (normalizeField item.label.toList) < 2 ^ 32 := by
  refine Exec.invariant (fun tr catalog => (∀ event ∈ tr, ShortLabels event.1) →
    ∀ plugin, ∀ item ∈ catalog.slice plugin,
      byteLen (normalizeField item.label.toList) < 2 ^ 32) ?_ ?_ h hshort
  · intro _ plugin item hitem
    cases hitem
  · intro tr catalog op catalog' answer hexec hold hstep hall
    have hs := (reachable limits hexec).1
    refine (change_of_step hs hstep).short hs ?_ (hold ?_)
    · exact hall (op, answer) (mem_append_right tr mem_cons_self)
    · exact fun event hevent => hall event (mem_append_left _ hevent)

omit [Unicode] in
lemma filter_position {visits : List (Nat × Item × ItemIndex)}
    (hsorted : (visits.map Prod.fst).Pairwise (· < ·)) (hmem : visit ∈ visits) :
    visits.filter (fun v => v.1 = visit.1) = [visit] := by
  induction visits with
  | nil => cases hmem
  | cons first visits ih =>
    rw [map_cons, pairwise_cons] at hsorted
    have hlater : ∀ v ∈ visits, first.1 < v.1 := fun v hv => hsorted.1 _ (mem_map_of_mem hv)
    cases mem_cons.mp hmem with
    | inl he =>
      have hnone : visits.filter (fun v => v.1 = visit.1) = [] := by
        rw [filter_eq_nil_iff]
        intro v hv
        have hlt := hlater v hv
        rw [← he] at hlt
        simp only [decide_eq_true_eq]
        omega
      rw [← he, filter_cons_of_pos (by simp), hnone]
    | inr hrest =>
      have hlt := hlater visit hrest
      rw [filter_cons_of_neg (by simp only [decide_eq_true_eq]; omega)]
      exact ih hsorted.2 hrest

/-- Over every run that publishes addressable labels, the prefilter hides no match: each item
the matcher matches is visited, once, and the visits go in ascending position. -/
theorem prefilter_complete (laws : Laws) (limits : CatalogLimits)
    {tr : List (Op × Except CatalogError Unit)} {catalog : MemoryCatalog}
    (h : Exec step (.withLimits limits) tr catalog)
    (hshort : ∀ event ∈ tr, ShortLabels event.1)
    (plugin : PluginId) (query : NormalizedQuery) (hquery : Consistent query) :
    ∃ visits, catalog.visitPreparedCandidates plugin query = some visits ∧
      (visits.map Prod.fst).Pairwise (· < ·) ∧
      (∀ visit ∈ visits, (catalog.slice plugin)[visit.1]? = some visit.2.1) ∧
      ∀ policy position item, (catalog.slice plugin)[position]? = some item →
        matchesItem policy query item →
        (visits.filter fun visit => visit.1 = position).map (·.2.1) = [item] := by
  have hs := (reachable limits h).1
  have hlabels := short_of_exec h hshort plugin
  rw [visitPreparedCandidates]
  cases hp : catalog.plugins.get? plugin with
  | none =>
    refine ⟨[], rfl, .nil, by simp, ?_⟩
    intro policy position item hitem
    rw [slice_of_none hp] at hitem
    cases hitem
  | some slice =>
    rw [slice_of_get? hp] at hlabels ⊢
    obtain ⟨visits, hvisits, hsorted, hitems, hcomplete⟩ :=
      visitCandidates_spec (hs.exact plugin slice hp) (wantedMask query)
        fun _ hpair => queryOrderedPairs_lt hpair
    refine ⟨visits, hvisits, hsorted, fun visit hvisit => (hitems visit hvisit).1, ?_⟩
    intro policy position item hitem hmatch
    have hcontained := contained_of_matches (hlabels item (mem_of_getElem? hitem)) hmatch
    have hmem := hcomplete position item hitem (admits_of_contained laws hquery hcontained)
      fun pair hpair => signature_of_contained hcontained hpair
    rw [filter_position hsorted hmem]
    rfl

end

/-- A query of one token. -/
def oneToken (token : Text) : NormalizedQuery := ⟨token, token, [token]⟩

/-- The note is found by a query for its label. -/
theorem prefilter_complete_note :
    ∃ catalog tr visits, Exec (@step Unicode.ascii) (.withLimits .default) tr catalog ∧
      @MemoryCatalog.visitPreparedCandidates catalog Unicode.ascii ⟨"p"⟩ (oneToken "ab".toList) =
        some visits ∧
      (visits.filter fun visit => visit.1 = 0).map (·.2.1) = [note] := by
  obtain ⟨tr, catalog, hexec, htrace, hslice, -⟩ := publishNote_exec
  have hshort : ∀ event ∈ tr, @ShortLabels Unicode.ascii event.1 := by
    intro event hevent
    have hop : event.1 ∈ publishNote := htrace ▸ mem_map_of_mem hevent
    simp only [publishNote, mem_cons, not_mem_nil, or_false] at hop
    cases hop with
    | inl he =>
      rw [he]
      trivial
    | inr he =>
      rw [he]
      intro item hitem
      rw [mem_singleton.mp hitem]
      decide
  have hquery : @Consistent Unicode.ascii (oneToken "ab".toList) :=
    ⟨by decide +kernel, by decide +kernel⟩
  obtain ⟨visits, hvisits, -, -, hfound⟩ := @prefilter_complete Unicode.ascii laws_ascii .default
    tr catalog hexec hshort ⟨"p"⟩ (oneToken "ab".toList) hquery
  refine ⟨catalog, tr, visits, hexec, hvisits, hfound .strict 0 note ?_ (by decide +kernel)⟩
  rw [hslice]
  rfl

/-! A label of more than four gigabytes. -/

def gapLabel (n : Nat) : Text := 'a' :: 'b' :: (List.replicate (n + 1) ' ' ++ ['x'])

def gapItem (n : Nat) : Item := { note with label := String.ofList (gapLabel n) }

local instance asciiTables : Unicode := Unicode.ascii

lemma gapLabel_ascii (n : Nat) : isAscii (gapLabel n) := by
  rw [isAscii, all_eq_true]
  intro c hc
  simp only [gapLabel, mem_cons, mem_append, mem_replicate, not_mem_nil, or_false] at hc
  rcases hc with rfl | rfl | ⟨-, rfl⟩ | rfl <;> decide

lemma gapLabel_folded (n : Nat) : normalizeField (gapLabel n) = gapLabel n := by
  have hspaces : (replicate (n + 1) ' ').map Char.toLower = replicate (n + 1) ' ' := by
    rw [map_replicate]
    rfl
  have hlower : (gapLabel n).map Char.toLower = gapLabel n := by
    rw [gapLabel, map_cons, map_cons, map_append, hspaces]
    rfl
  rw [normalizeField]
  split <;> exact hlower

lemma gapItem_label (n : Nat) : (gapItem n).label.toList = gapLabel n := String.toList_ofList

lemma byteLen_gapLabel (n : Nat) : byteLen (gapLabel n) = n + 4 := by
  have hspaces : byteLen (replicate (n + 1) ' ') = n + 1 := by
    rw [byteLen, map_replicate, sum_replicate]
    exact mul_one _
  have ha : 'a'.utf8Size = 1 := rfl
  have hb : 'b'.utf8Size = 1 := rfl
  have hx : byteLen ['x'] = 1 := rfl
  rw [gapLabel, byteLen_cons, byteLen_cons, byteLen_append]
  omega

lemma length_gapLabel (n : Nat) : (gapLabel n).length = n + 4 := by
  simp only [gapLabel, length_cons, length_append, length_replicate, length_nil]

variable {ranges : List (Nat × Nat)}

lemma asciiWords_space (labelLen fuel : Nat) (previous : Option Char) (index : Nat) (rest : Text)
    (h : ranges.length < wordCapacity) :
    asciiWords labelLen (fuel + 1) previous index (' ' :: rest) ranges =
      asciiWords labelLen fuel (some ' ') (index + 1) rest ranges := by
  have hopens : opensWord previous ' ' rest.head? = false := rfl
  rw [asciiWords, if_neg (not_le.mpr h)]
  rfl

lemma asciiWords_spaces (labelLen fuel : Nat) (rest : Text) (h : ranges.length < wordCapacity)
    (n : Nat) (previous : Option Char) (index : Nat) :
    asciiWords labelLen (fuel + (n + 1)) previous index (List.replicate (n + 1) ' ' ++ rest)
    ranges =
      asciiWords labelLen fuel (some ' ') (index + (n + 1)) rest ranges := by
  induction n generalizing previous index with
  | zero => exact asciiWords_space labelLen fuel previous index rest h
  | succ n ih =>
    rw [replicate_succ, cons_append]
    refine (asciiWords_space labelLen (fuel + (n + 1)) previous index _ h).trans ?_
    rw [ih, add_assoc, add_comm 1]

lemma gapLabel_words (n : Nat) : asciiWords (n + 4) (n + 4) none 0 (gapLabel n) [] =
      [(0, 2), (asU32 (n + 3), asU32 (n + 4))] := by
  have hopens : opensWord none 'a' (some 'b') = true := rfl
  have hrest : asciiWordRest 'a' ('b' :: (replicate (n + 1) ' ' ++ ['x'])) = 1 := rfl
  have hfirst : asciiWords (n + 4) (n + 4) none 0 (gapLabel n) [] =
      asciiWords (n + 4) (2 + (n + 1)) (some 'b') 2 (replicate (n + 1) ' ' ++ ['x']) [(0, 2)] := by
    rw [gapLabel, asciiWords, if_neg (by decide), head?_cons]
    simp only
    rw [add_comm 2 (n + 1)]
    rfl
  have hlast : opensWord (some ' ') 'x' none = true := rfl
  rw [hfirst, asciiWords_spaces _ _ _ (by decide), asciiWords, if_neg (by decide), head?_nil,
    if_pos hlast, asciiWordRest]
  simp only
  rw [if_pos (by omega), add_comm 2 (n + 1)]
  rfl

lemma gapItem_text (n : Nat) : (searchableTextWithLabel (gapItem n)).1 = gapLabel n := by
  have hlabel : pushSearchableField [] (gapItem n).label.toList = gapLabel n := by
    rw [pushSearchableField_nil, gapItem_label, gapLabel_folded]
  show pushSearchableField (pushSearchableField [] (gapItem n).label.toList) "".toList = gapLabel n
  rw [hlabel]
  rfl

lemma gapItem_normalized (n : Nat) : (preparedLabel (gapItem n)).normalized = gapLabel n := by
  rw [preparedLabel_normalized, gapItem_label, gapLabel_folded]

lemma gapItem_keywords (n : Nat) : (preparedLabel (gapItem n)).keywords = [] := by
  have hsplit := splitAtByte_append (gapLabel n) []
  rw [append_nil] at hsplit
  rw [preparedLabel_eq, keywords, gapItem_label, gapLabel_folded, gapItem_text]
  simp only [build, hsplit]
  rfl

lemma wordText_start {label middle after : Text} (h : label = middle ++ after) :
    wordText label (0, byteLen middle) = middle := by
  have hget : getRange label 0 (byteLen middle) = some middle :=
    getRange_eq_some.mpr ⟨[], after, by rw [h, nil_append], rfl, zero_add _⟩
  show (getRange label 0 (byteLen middle)).getD [] = middle
  rw [hget, Option.getD_some]

variable {n : Nat}

lemma gapItem_words (hn : n + 3 = 2 ^ 32) :
    wordTexts (preparedLabel (gapItem n)) = [(0, ['a', 'b']), (0, ['a'])] := by
  have hstart : asU32 (n + 3) = 0 := by
    rw [asU32, hn, mod_self]
  have hstop : asU32 (n + 4) = 1 := by
    rw [asU32]
    omega
  have hwords : (preparedLabel (gapItem n)).words = [(0, 2), (0, 1)] := by
    rw [preparedLabel_eq, gapItem_label, gapLabel_folded, build]
    simp only [if_pos (gapLabel_ascii n)]
    rw [wordRanges, byteLen_gapLabel, length_gapLabel, gapLabel_words, hstart, hstop]
    rfl
  have htwo : wordText (gapLabel n) (0, 2) = ['a', 'b'] :=
    @wordText_start (gapLabel n) ['a', 'b'] (replicate (n + 1) ' ' ++ ['x']) rfl
  have hone : wordText (gapLabel n) (0, 1) = ['a'] :=
    @wordText_start (gapLabel n) ['a'] ('b' :: (replicate (n + 1) ' ' ++ ['x'])) rfl
  rw [wordTexts, hwords, gapItem_normalized, map_cons, map_cons, map_nil, htwo, hone]

lemma wordPrefixQuality_of_words {label : PreparedLabel} {words : List (Nat × Text)}
    (token : Text) (hwords : wordTexts label = words)
    (hcaps : (token = [] || words = [] || maxWordPrefixWords < words.length ||
      maxWordPrefixToken < token.length) = false)
    (hvalue : (gridValue (words.map Prod.snd) token).isSome)
    (hreplay : ((replay words token).2 ≠ [] || (replay words token).1.length < 2) = false) :
    ∃ quality, wordPrefixQuality label token = some quality := by
  obtain ⟨value, hvalue⟩ := Option.isSome_iff_exists.mp hvalue
  rw [wordPrefixQuality, hwords]
  simp only [hcaps, hvalue]
  simp only [hreplay]
  exact ⟨_, rfl⟩

lemma gapItem_matches (hn : n + 3 = 2 ^ 32) :
    matchesItem .strict (oneToken "aba".toList) (gapItem n) := by
  obtain ⟨quality, hquality⟩ := wordPrefixQuality_of_words "aba".toList (gapItem_words hn)
    (by decide) (by decide +kernel) (by decide +kernel)
  have hfront : "aba".toList.isPrefixOf (gapLabel n) = false := rfl
  have hlabel : matchLabel (preparedLabel (gapItem n)) "aba".toList =
      some (.wordPrefix, quality.1, quality.2) := by
    have hmay : mayDecompose ((wordTexts (preparedLabel (gapItem n))).map Prod.snd)
        "aba".toList = true := by
      rw [gapItem_words hn]
      decide
    rw [matchLabel, gapItem_normalized, hfront, if_neg Bool.false_ne_true]
    simp only [hmay, if_true, hquality]
  have hfound : matchTokens .strict (gapItem n) (preparedLabel (gapItem n)) ["aba".toList] =
      some [(.wordPrefix, quality.1, quality.2)] := by
    have hone : matchToken .strict (gapItem n) (preparedLabel (gapItem n)) "aba".toList =
        some (.wordPrefix, quality.1, quality.2) := by
      unfold matchToken
      rw [if_neg (by decide), hlabel]
    simp only [matchTokens, hone]
    rfl
  have husable : (oneToken "aba".toList).usable = true := by decide +kernel
  rw [matchesItem, scorePrepared, husable]
  simp only [Bool.not_true, Bool.false_eq_true, if_false]
  split
  · rfl
  split
  · rfl
  · show (matchTokens .strict (gapItem n) (preparedLabel (gapItem n)) ["aba".toList] >>= _).isSome
    rw [hfound]
    rfl

lemma foldl_addPairs_spaces (n : Nat) (state : Bits × Word) :
    (List.replicate n ' ').foldl addPairs state = state := by
  induction n with
  | zero => rfl
  | succ n ih => exact ih

/-- The letters of the label come in the order a, b, x: there is no pair of b and a. -/
lemma gapItem_signature (n : Nat) :
    (orderedPairSignature (preparedLabel (gapItem n))).test 36 = false := by
  rw [orderedPairSignature, gapItem_normalized, gapItem_keywords, gapLabel, foldl_cons,
    foldl_cons, foldl_append, foldl_addPairs_spaces]
  decide +kernel

lemma foldlM_checkedAdd {amounts : List Nat} {start : Nat} (h : start + amounts.sum ≤ u64Max) :
    amounts.foldlM checkedAdd start = some (start + amounts.sum) := by
  induction amounts generalizing start with
  | nil => rfl
  | cons amount amounts ih =>
    rw [sum_cons] at h ⊢
    rw [foldlM_cons, checkedAdd_of_le (by omega)]
    show amounts.foldlM checkedAdd (start + amount) = _
    rw [ih (by omega), add_assoc]

lemma gapItem_bytes (n : Nat) : (gapItem n).label.utf8ByteSize = n + 4 := by
  rw [← byteLen_toList, gapItem, String.toList_ofList, byteLen_gapLabel]

lemma gapItem_payload (hn : n + 3 = 2 ^ 32) : itemPayloadBytes (gapItem n) = .ok (n + 92) := by
  have hsum : (itemPayload (gapItem n)).sum = n + 92 := by
    have hlist : itemPayload (gapItem n) =
        [8, 1, 8, 1, 1, 8, 5, 8, (gapItem n).label.utf8ByteSize, 8, 0, 8, 1, 8, 1, 1, 1, 4, 8, 8] :=
      rfl
    rw [hlist, gapItem_bytes]
    simp only [sum_cons, sum_nil]
    omega
  have hfold := @foldlM_checkedAdd (itemPayload (gapItem n)) 0 (by rw [hsum, u64Max]; omega)
  rw [itemPayloadBytes, hfold, hsum, zero_add]

def wideLimits : CatalogLimits := ⟨1, 1, 1, 2 ^ 33, 2 ^ 33⟩

def activeCatalog : MemoryCatalog :=
  ((MemoryCatalog.withLimits wideLimits).activateInstance ⟨"p"⟩ 1).1

lemma gapItem_planned (hn : n + 3 = 2 ^ 32) :
    activeCatalog.planUpdate ⟨"p"⟩ .merge [gapItem n] = .ok ⟨1, 1, 1⟩ := by
  have hbytes : batchBytes wideLimits 0 [gapItem n] = .ok (n + 92) := by
    have hadd : checkedAdd 0 (n + 92) = some (n + 92) := by
      rw [checkedAdd_of_le (by rw [u64Max]; omega), zero_add]
    have hlimit : ¬wideLimits.maxItemBytes < n + 92 := by
      simp only [wideLimits]
      omega
    rw [batchBytes, gapItem_payload hn]
    simp only [bind, Except.bind, hlimit, hadd]
    rfl
  have hbatch : ¬wideLimits.maxBatchBytes < n + 92 := by
    simp only [wideLimits]
    omega
  have hlimits : activeCatalog.limits = wideLimits := rfl
  have howner : [gapItem n].any (·.pluginId ≠ ⟨"p"⟩) = false := rfl
  rw [planUpdate, hlimits, hbytes]
  simp only [bind, Except.bind, hbatch]
  rfl

lemma gapItem_published (hn : n + 3 = 2 ^ 32) : ∃ catalog, Exec step (.withLimits wideLimits)
        [(.activate ⟨"p"⟩ 1, .ok ()), (.apply ⟨"p"⟩ 1 .merge [gapItem n], .ok ())] catalog ∧
      catalog.slice ⟨"p"⟩ = [gapItem n] := by
  have hfirst : Exec step (.withLimits wideLimits) [(.activate ⟨"p"⟩ 1, .ok ())] activeCatalog :=
    Exec.one rfl
  have hs := (reachable wideLimits hfirst).1
  have hplan := planUpdate_ok (gapItem_planned hn)
  obtain ⟨plugins, hupdated, hreplaced⟩ := updated_spec hs hplan (by decide)
  have hactive : activeCatalog.isActive ⟨"p"⟩ 1 = true := by decide
  have hstep : step activeCatalog (.apply ⟨"p"⟩ 1 .merge [gapItem n]) =
      some ({ activeCatalog with plugins, itemCount := 1 }, .ok ()) := by
    rw [step, apply, gapItem_planned hn]
    simp only [hupdated]
    rfl
  refine ⟨_, Exec.next hfirst hstep, ?_⟩
  rw [slice_replaced hreplaced]
  rfl

/-- An item whose label is longer than four gigabytes can match and not be visited: the
stored range of its last word wraps to the front, so the word-prefix reading spells a token
out of order that the ordered pairs rule out. -/
theorem wide_label_hidden : ∃ limits tr catalog item, Exec step (.withLimits limits) tr catalog ∧
      Consistent (oneToken "aba".toList) ∧
      catalog.slice ⟨"p"⟩ = [item] ∧
      matchesItem .strict (oneToken "aba".toList) item ∧
      catalog.visitPreparedCandidates ⟨"p"⟩ (oneToken "aba".toList) = some [] := by
  obtain ⟨n, hn⟩ : ∃ n, n + 3 = 2 ^ 32 := ⟨2 ^ 32 - 3, by norm_num⟩
  obtain ⟨catalog, hexec, hslice⟩ := gapItem_published hn
  refine ⟨_, _, catalog, gapItem n, hexec, ⟨by decide +kernel, by decide +kernel⟩, hslice,
    gapItem_matches hn, ?_⟩
  have hs := (reachable _ hexec).1
  rw [visitPreparedCandidates]
  cases hp : catalog.plugins.get? ⟨"p"⟩ with
  | none => rfl
  | some slice =>
    obtain ⟨visits, hvisits, -, hitems, -⟩ := visitCandidates_spec (hs.exact _ slice hp)
      (wantedMask (oneToken "aba".toList)) fun pair (hpair : pair ∈ queryOrderedPairs
        (oneToken "aba".toList)) => queryOrderedPairs_lt hpair
    have hnone : visits = [] := by
      rw [eq_nil_iff_forall_not_mem]
      intro visit hvisit
      obtain ⟨hitem, -, hpairs⟩ := hitems visit hvisit
      rw [← slice_of_get? hp, hslice] at hitem
      have hgap : visit.2.1 = gapItem n := mem_singleton.mp (mem_of_getElem? hitem)
      have htest := hpairs 36 (by decide)
      rw [hgap] at htest
      exact absurd htest (Bool.eq_false_iff.mp (gapItem_signature n))
    rw [← hnone]
    exact hvisits

end CriKey.Catalog
