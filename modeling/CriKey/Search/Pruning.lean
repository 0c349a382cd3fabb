import CriKey.Search.Owner

/-! When pruning changes the answer. A match that is exact after trimming need not begin with
the leading token and can score above its bound; only such a match can be missed. -/
namespace CriKey.Search
open CriKey.Base CriKey.Core CriKey.Query CriKey.Catalog CriKey.Ranking SearchPlan
open RankedCandidate List Option Unicode Nat
open Table

/-- What is assumed of normalization, its growth included. -/
structure SearchLaws [Unicode] : Prop extends Laws where
  /-- Normalized text is at most a thousand times as long. -/
  growth : ∀ text, byteLen (normalizeText text) ≤ 1024 * byteLen text

/-- The match repeats the query, white space around it aside. -/
def TrimExact (plan : SearchPlan) (candidate : RankedCandidate) : Prop :=
  trimText plan.query.normalized = trimText candidate.preparedLabel.normalized

section
variable [Unicode] (catalog : MemoryCatalog) (plan : SearchPlan)

/-- Enough matches looked at before this one score above its bound. -/
def Shadowed (candidate : RankedCandidate) : Prop :=
  ∃ before after, plan.trailing catalog candidate.item.pluginId = before ++ candidate :: after ∧
    plan.perPluginLimit ≤
      (unshaded plan.shades plan.perPluginLimit (plan.leading catalog candidate.item.pluginId)
        before).countP (plan.shades · candidate)

end

/-! Addressable labels. -/

lemma sum_of_foldlM_checkedAdd {amounts : List Nat} {start total : Nat}
    (h : amounts.foldlM checkedAdd start = some total) : total = start + amounts.sum := by
  induction amounts generalizing start with
  | nil =>
    cases h
    rfl
  | cons amount amounts ih =>
    rw [foldlM_cons, bind_eq_bind, bind_eq_some_iff] at h
    obtain ⟨next, hnext, hrest⟩ := h
    rw [ih hrest, checkedAdd_eq_some hnext, sum_cons, add_assoc]

lemma label_le_of_fits {limit : Nat} {item : Item} (h : Fits limit item) :
    byteLen item.label.toList ≤ limit := by
  obtain ⟨bytes, hbytes, hle⟩ := h
  rw [itemPayloadBytes] at hbytes
  split at hbytes
  · cases hbytes
  rename_i total htotal
  cases hbytes
  have hmem : item.label.utf8ByteSize ∈ itemPayload item := by
    simp [itemPayload, stringPayload]
  have hsum := sum_of_foldlM_checkedAdd htotal
  rw [byteLen_toList]
  exact (single_le_sum (fun _ _ => zero_le _) _ hmem).trans (by omega)

section
variable [Unicode] {catalog : MemoryCatalog} {plan : SearchPlan} {owners : List PluginId}

lemma short_of_default (laws : SearchLaws) (hs : Sound catalog)
    (hlimits : catalog.limits = .default) (plugin : PluginId) :
    ∀ item ∈ catalog.slice plugin, byteLen (normalizeField item.label.toList) < 2 ^ 32 := by
  intro item hitem
  have hlabel := label_le_of_fits (hs.items plugin item hitem).2
  rw [hlimits] at hlabel
  have hgrowth := laws.growth item.label.toList
  rw [normalizeField_eq laws.toLaws]
  have hmax : CatalogLimits.default.maxItemBytes = 1048576 := rfl
  omega

/-! Valid bounds. -/

omit [Unicode] in
lemma signals_userPreference (plan : SearchPlan) (item : Item) :
    (plan.signals item).userPreference = 0 := by
  rw [signals, SelectionHistory.augment]
  split <;> rfl

omit [Unicode] in
lemma head_of_prefixToken {token : Text} (h : plan.prefixToken = some token) :
    plan.query.tokens.head? = some token := (filter_eq_some_iff.mp h).1

variable {candidate : RankedCandidate}

lemma score_le_bound {item : Item} (hscored : plan.scored item = some candidate)
    (htoken : plan.prefixToken.isSome) (hstarts : plan.starts item = false)
    (hexact : ¬TrimExact plan candidate) :
    candidate.score ≤ plan.ranker.nonPrefixUpperBound candidate.item := by
  obtain ⟨token, htoken⟩ := isSome_iff_exists.mp htoken
  obtain ⟨summary, hsummary, hcandidate⟩ := map_eq_some_iff.mp hscored
  rw [← hcandidate] at hexact ⊢
  rw [starts, htoken, any_some] at hstarts
  have hfront : ¬token <+: (preparedLabel item).normalized := by
    intro hp
    have hstart := isPrefixOf_iff_prefix.mpr hp
    rw [hstart] at hstarts
    cases hstarts
  obtain ⟨hband, hmethod⟩ :=
    scorePrepared_band (head_of_prefixToken htoken) hfront hexact hsummary
  apply score_le_nonPrefixUpperBound _ _ _ hband hmethod
  rw [signals_userPreference]
  norm_num

omit [Unicode] in
lemma rank_lt_of_score_lt {a b : RankedCandidate} (h : b.score < a.score) : a.rank < b.rank :=
  Prod.Lex.toLex_lt_toLex.mpr (Or.inl h)

section
variable (hready : plan.Ready catalog)
include hready

lemma lookedAt_subperm (plugin : PluginId) :
    (plan.lookedAt catalog plugin).Subperm (candidatesOf catalog plan plugin) :=
  (unshaded_sublist _ _ _ _).subperm.trans (passes_perm hready plugin).subperm

lemma passes_nodup (plugin : PluginId) :
    (plan.leading catalog plugin ++ plan.trailing catalog plugin).Nodup :=
  ((passes_perm hready plugin).nodup_iff).mpr
    (List.Nodup.of_map rank (owner_ranks_nodup hready.sound))

lemma not_mem_lookedAt {plugin : PluginId} (h : candidate ∈ candidatesOf catalog plan plugin) :
    candidate ∉ plan.lookedAt catalog plugin ↔ Shadowed catalog plan candidate := by
  have hn := passes_nodup hready plugin
  rw [Shadowed, candidatesOf_owner hready.sound h]
  constructor
  · intro hout
    have hmem := (passes_perm hready plugin).symm.subset h
    rw [mem_append] at hmem
    cases hmem with
    | inl hleading => exact absurd (seen_subset_unshaded _ _ _ _ _ hleading) hout
    | inr htrailing =>
      obtain ⟨before, after, hsplit⟩ := append_of_mem htrailing
      refine ⟨before, after, hsplit, ?_⟩
      rw [lookedAt, hsplit, mem_unshaded_iff (hsplit ▸ hn), not_not] at hout
      exact hout
  · intro hshadowed
    obtain ⟨before, after, hsplit, hcount⟩ := hshadowed
    rw [lookedAt, hsplit, mem_unshaded_iff (hsplit ▸ hn), not_not]
    exact hcount

lemma not_best_of_shadowed {plugin : PluginId}
    (h : candidate ∈ candidatesOf catalog plan plugin) (hshadowed : Shadowed catalog plan candidate)
    (hexact : ¬TrimExact plan candidate) :
    candidate ∉
      best RankedCandidate.rank plan.perPluginLimit (candidatesOf catalog plan plugin) := by
  intro hbest
  have hfew := ((mem_best (owner_ranks_nodup hready.sound)).mp hbest).2
  rw [Shadowed, candidatesOf_owner hready.sound h] at hshadowed
  obtain ⟨before, after, hsplit, hcount⟩ := hshadowed
  have htrailing : candidate ∈ plan.trailing catalog plugin :=
    hsplit ▸ mem_append_right before mem_cons_self
  obtain ⟨item, hitem, hscored⟩ := mem_filterMap.mp htrailing
  have hstarts : plan.starts item = false := by simpa using (mem_filter.mp hitem).2
  -- whatever shades the match comes before it
  have hbefore : ∀ other, plan.shades other candidate → other.rank < candidate.rank := by
    intro other hshades
    rw [shades, Bool.and_eq_true, decide_eq_true_iff] at hshades
    exact rank_lt_of_score_lt ((score_le_bound hscored hshades.1 hstarts hexact).trans_lt hshades.2)
  have hfront : (plan.leading catalog plugin ++ before).Sublist
      (plan.leading catalog plugin ++ plan.trailing catalog plugin) := by
    rw [hsplit]
    exact (sublist_append_left before (candidate :: after)).append_left _
  have hlooked : (unshaded plan.shades plan.perPluginLimit (plan.leading catalog plugin)
      before).Subperm (candidatesOf catalog plan plugin) :=
    ((unshaded_sublist _ _ _ _).trans hfront).subperm.trans (passes_perm hready plugin).subperm
  have hmono := hlooked.countP_le (plan.shades · candidate)
  have hrank : (candidatesOf catalog plan plugin).countP (plan.shades · candidate) ≤
      (candidatesOf catalog plan plugin).countP fun other => other.rank < candidate.rank :=
    countP_mono_left fun other _ hshades => decide_eq_true (hbefore other hshades)
  omega

end

/-! The loop over the owners. -/

lemma foldlM_sweepOwner (laws : Laws) (hready : plan.Ready catalog)
    (hpos : 0 < plan.perPluginLimit) (owners done : List PluginId) {sweep : Sweep}
    (hn : (done ++ owners).Nodup)
    (hglobal : sweep.global = best RankedCandidate.rank plan.globalLimit (done.flatMap fun plugin =>
        best RankedCandidate.rank plan.perPluginLimit (plan.lookedAt catalog plugin))) :
    ∃ sweep', owners.foldlM (sweepOwner catalog plan) sweep = some sweep' ∧
      sweep'.global = best RankedCandidate.rank plan.globalLimit
        ((done ++ owners).flatMap fun plugin =>
          best RankedCandidate.rank plan.perPluginLimit (plan.lookedAt catalog plugin)) := by
  induction owners generalizing done sweep with
  | nil => exact ⟨sweep, rfl, by rwa [append_nil]⟩
  | cons plugin owners ih =>
    obtain ⟨selection, complete, hselect, hretained⟩ := selectOwner_spec laws hready hpos plugin
    have hsplit : done ++ plugin :: owners = (done ++ [plugin]) ++ owners := by
      rw [append_assoc]
      rfl
    rw [hsplit] at hn ⊢
    have hstep : ((done ++ [plugin]).flatMap fun plugin =>
        best rank plan.perPluginLimit (plan.lookedAt catalog plugin)) = (done.flatMap fun plugin =>
            best rank plan.perPluginLimit (plan.lookedAt catalog plugin)) ++
              selection.retained := by
      rw [flatMap_append, flatMap_singleton, hretained]
    have hranks : (((done ++ [plugin]).flatMap fun plugin =>
        best rank plan.perPluginLimit (plan.lookedAt catalog plugin)).map rank).Nodup :=
      nodup_of_subperm
        (subperm_flatMap fun plugin _ => best_subperm.trans (lookedAt_subperm hready plugin))
        (ranks_nodup hready.sound hn.of_append_left)
    rw [foldlM_cons, sweepOwner, hselect]
    refine ih (done ++ [plugin]) hn ?_
    rw [hstep] at hranks ⊢
    have hearlier := hranks
    rw [map_append] at hearlier
    rw [← foldl_retainBest hranks, foldl_append, foldl_retainBest hearlier.of_append_left,
      ← hglobal]

lemma selectBest_spec (laws : Laws) (hready : plan.Ready catalog) (hn : owners.Nodup)
    (hplugin : plan.perPluginLimit ≠ 0) (hglobal : plan.globalLimit ≠ 0)
    (hbatch : plan.batchLimit ≠ 0) : ∃ sweep, selectBest catalog plan owners = some sweep ∧
      sweep.global = best RankedCandidate.rank plan.globalLimit (owners.flatMap fun plugin =>
        best RankedCandidate.rank plan.perPluginLimit (plan.lookedAt catalog plugin)) := by
  rw [selectBest, if_neg (by simp [hplugin, hglobal, hbatch])]
  exact foldlM_sweepOwner laws hready (pos_of_ne_zero hplugin) owners [] hn (by exact take_nil.symm)

lemma mem_reference_owner (h : candidate ∈ referenceSelection catalog plan owners) :
    ∃ plugin ∈ owners, candidate ∈
      best RankedCandidate.rank plan.perPluginLimit (candidatesOf catalog plan plugin) :=
  mem_flatMap.mp (best_subperm.subset h)

/-- With all limits positive the answer is right exactly when no shadowed match belongs to it. -/
lemma looked_at_suffices (hready : plan.Ready catalog) (hn : owners.Nodup) :
    best RankedCandidate.rank plan.globalLimit (owners.flatMap fun plugin =>
        best RankedCandidate.rank plan.perPluginLimit (plan.lookedAt catalog plugin)) =
      referenceSelection catalog plan owners ↔
      ∀ candidate ∈ referenceSelection catalog plan owners, TrimExact plan candidate →
        ¬Shadowed catalog plan candidate := by
  have hs := hready.sound
  have howner : ∀ o ∈ owners, ∀ p ∈ owners, ∀ x, x ∈ candidatesOf catalog plan o →
      x ∈ candidatesOf catalog plan p → o = p := fun o _ p _ x ho hp =>
    (candidatesOf_owner hs ho).symm.trans (candidatesOf_owner hs hp)
  rw [referenceSelection, best_groups_iff (ranks_nodup hs hn)
    (fun plugin _ => lookedAt_subperm hready plugin) howner]
  constructor
  · intro h candidate hfinal _ hshadowed
    obtain ⟨plugin, hplugin, hbest⟩ := mem_reference_owner hfinal
    have hmem := best_subperm.subset hbest
    exact (not_mem_lookedAt hready hmem).mpr hshadowed (h plugin hplugin candidate hmem hfinal)
  · intro h plugin hplugin candidate hmem hfinal
    by_contra hout
    have hshadowed := (not_mem_lookedAt hready hmem).mp hout
    by_cases hexact : TrimExact plan candidate
    · exact h candidate hfinal hexact hshadowed
    · obtain ⟨plugin', hplugin', hbest⟩ := mem_reference_owner hfinal
      have hsame := howner plugin hplugin plugin' hplugin' candidate hmem
        (best_subperm.subset hbest)
      exact not_best_of_shadowed hready hmem hshadowed hexact (hsame ▸ hbest)

/-- In the service's catalog and for a query as the normalizer makes it, selection never fails,
and it returns the reference answer exactly when nothing in that answer is exact after trimming
and shadowed. A batch limit of zero asks for nothing. -/
theorem selectBest_eq_reference_iff (laws : SearchLaws)
    {tr : List (Op × Except CatalogError Unit)} (h : Exec step (.withLimits .default) tr catalog)
    (hn : owners.Nodup) (hquery : Consistent plan.query)
    (hupper : ∀ plugin upper, plan.nonPrefixUpper.get? plugin = some upper →
      ∀ item ∈ catalog.slice plugin, plan.ranker.nonPrefixUpperBound item ≤ upper)
    (hdistinct : ∀ plugin positions, plan.prior plugin = some positions → positions.Nodup)
    (hcovers : ∀ plugin positions, plan.prior plugin = some positions →
      ∀ position item, (catalog.slice plugin)[position]? = some item →
        matchesItem plan.policy plan.query item → position ∈ positions) :
    ∃ sweep, selectBest catalog plan owners = some sweep ∧
      (sweep.global = referenceSelection catalog plan owners ↔
        (plan.batchLimit = 0 → referenceSelection catalog plan owners = []) ∧
        (plan.batchLimit ≠ 0 → ∀ candidate ∈ referenceSelection catalog plan owners,
          TrimExact plan candidate → ¬Shadowed catalog plan candidate)) := by
  obtain ⟨hs, -, hlimits⟩ := reachable .default h
  have hready : plan.Ready catalog :=
    { sound := hs
      short := short_of_default laws hs hlimits
      query := hquery
      upper := hupper
      distinct := hdistinct
      covers := by
        intro plugin positions hprior position item hitem hscored
        rw [scored, candidate, isSome_map] at hscored
        exact hcovers plugin positions hprior position item hitem hscored }
  by_cases hplugin : plan.perPluginLimit = 0
  · have hnone : referenceSelection catalog plan owners = [] := by
      rw [referenceSelection, flatMap_eq_nil_iff.mpr fun plugin _ => by
        rw [best, hplugin, take_zero]]
      exact take_nil
    refine ⟨{}, if_pos (by simp [hplugin]), ?_⟩
    simp [hnone]
  by_cases hglobal : plan.globalLimit = 0
  · have hnone : referenceSelection catalog plan owners = [] := by
      rw [referenceSelection, best, hglobal, take_zero]
    refine ⟨{}, if_pos (by simp [hglobal]), ?_⟩
    simp [hnone]
  by_cases hbatch : plan.batchLimit = 0
  · refine ⟨{}, if_pos (by simp [hbatch]), ?_⟩
    constructor
    · intro hempty
      exact ⟨fun _ => hempty.symm, fun hne => absurd hbatch hne⟩
    · intro hempty
      exact (hempty.1 hbatch).symm
  · obtain ⟨sweep, hsweep, hglobalEq⟩ :=
      selectBest_spec laws.toLaws hready hn hplugin hglobal hbatch
    refine ⟨sweep, hsweep, ?_⟩
    rw [hglobalEq, looked_at_suffices hready hn]
    simp [hbatch]

end

/-! A match that is missed. -/

/-- The query for "abc" with one place for each plugin, on a service that knows the history. -/
def abcPlan (history : SelectionHistory) (upper : ℚ) : SearchPlan where
  policy := .strict
  ranker := ⟨true⟩
  nonPrefixUpper := empty.insert ⟨"p"⟩ upper
  query := oneToken "abc".toList
  previous := none
  history
  foregroundCategory := some .application
  nowSecs := 0
  perPluginLimit := 1
  globalLimit := 1
  batchLimit := 1

/-- An application whose label begins with the query. -/
def abcdApp : Item :=
  { note with
    stableId := ⟨"a"⟩, category := .application, label := "abcd", scoreHint := 2147483647 }

/-- A note labelled with the query, after a space. -/
def spacedNote : Item := { note with stableId := ⟨"x"⟩, label := " abc", scoreHint := -2147483648 }

/-- The note was chosen often, and for this query. -/
def abcHistory : SelectionHistory where
  entries := (empty.insert (⟨"p"⟩, ⟨"a"⟩) ⟨8, some 0⟩).insert (⟨"p"⟩, ⟨"x"⟩) ⟨72, some 0⟩
  queryCounts := [(("abc", ⟨"p"⟩, ⟨"x"⟩), 72)]

def publishSpaced : List Op :=
  [.activate ⟨"p"⟩ 1, .apply ⟨"p"⟩ 1 .replace [abcdApp, spacedNote]]

/-- The service's bound for the plugin: the highest of its items'. -/
def spacedPlan : SearchPlan :=
  abcPlan abcHistory (max ((⟨true⟩ : DefaultRanker).nonPrefixUpperBound abcdApp)
    ((⟨true⟩ : DefaultRanker).nonPrefixUpperBound spacedNote))

/-- The note scores higher than the application and is pruned by it. -/
theorem pruning_hides_spaced_note :
    ∃ catalog tr sweep, Exec (@step Unicode.ascii) (.withLimits .default) tr catalog ∧
      @selectBest Unicode.ascii catalog spacedPlan [⟨"p"⟩] = some sweep ∧
      sweep.global.map (·.item) = [abcdApp] ∧
      (@referenceSelection Unicode.ascii catalog spacedPlan [⟨"p"⟩]).map (·.item) =
        [spacedNote] := by
  obtain ⟨catalog, tr, hrun, hfound⟩ := run_of_eval (@step ascii) (.withLimits .default)
    publishSpaced (fun catalog _ =>
      (@selectBest ascii catalog spacedPlan [⟨"p"⟩]).any (fun sweep =>
        sweep.global.map (·.item) = [abcdApp]) = true ∧
      (@referenceSelection ascii catalog spacedPlan [⟨"p"⟩]).map (·.item) = [spacedNote])
    (by decide +kernel)
  obtain ⟨hany, hreference⟩ := hfound
  obtain ⟨sweep, hsweep, hglobal⟩ := (Option.any_eq_true _ _).mp hany
  exact ⟨catalog, tr, sweep, (exec_of_run hrun).1, hsweep, of_decide_eq_true hglobal, hreference⟩

lemma searchLaws_ascii : @SearchLaws Unicode.ascii :=
  letI := ascii
  { laws_ascii with
    growth := by
      intro text
      show byteLen (text.map Char.toLower) ≤ 1024 * byteLen text
      induction text with
      | nil => exact zero_le _
      | cons c text ih =>
        have hc : c.toLower.utf8Size ≤ 4 := Char.utf8Size_le_four _
        have hpos := c.utf8Size_pos
        rw [map_cons, byteLen_cons, byteLen_cons]
        omega }

/-- A shorter query, for which the service remembers both positions. -/
def rememberedPlan : SearchPlan :=
  { spacedPlan with
    query := oneToken "ab".toList
    previous := some (empty.insert ⟨"p"⟩ [0, 1]) }

lemma eq_of_get?_single {β : Type} {p q : PluginId} {v w : β}
    (h : (empty.insert p v).get? q = some w) : q = p ∧ v = w := by
  rw [get?_insert] at h
  split at h
  case isTrue heq => exact ⟨heq, some.inj h⟩
  case isFalse => cases h

/-- The note matches, is pruned by the application, and would not have been in the answer. -/
theorem selectBest_eq_reference_note :
    ∃ catalog tr sweep, Exec (@step Unicode.ascii) (.withLimits .default) tr catalog ∧
      (@candidatesOf Unicode.ascii catalog rememberedPlan ⟨"p"⟩).map (·.item) =
        [abcdApp, spacedNote] ∧
      @selectBest Unicode.ascii catalog rememberedPlan [⟨"p"⟩] = some sweep ∧
      sweep.stats = ⟨2, 1⟩ ∧
      sweep.global = @referenceSelection Unicode.ascii catalog rememberedPlan [⟨"p"⟩] := by
  let _ := ascii
  obtain ⟨catalog, tr, hrun, hfound⟩ := run_of_eval (@step ascii) (.withLimits .default)
    publishSpaced (fun catalog _ => catalog.slice ⟨"p"⟩ = [abcdApp, spacedNote] ∧
      (selectBest catalog rememberedPlan [⟨"p"⟩]).any (·.stats = ⟨2, 1⟩)) (by decide +kernel)
  obtain ⟨hslice, hstats⟩ := hfound
  have hexec := (exec_of_run hrun).1
  have hupper : ∀ plugin upper, rememberedPlan.nonPrefixUpper.get? plugin = some upper →
      ∀ item ∈ catalog.slice plugin, rememberedPlan.ranker.nonPrefixUpperBound item ≤ upper := by
    intro plugin upper hget item hitem
    obtain ⟨rfl, rfl⟩ := eq_of_get?_single hget
    rw [hslice] at hitem
    simp only [mem_cons, not_mem_nil, or_false] at hitem
    rcases hitem with rfl | rfl
    · exact le_max_left _ _
    · exact le_max_right _ _
  have hcovers : ∀ plugin positions, rememberedPlan.prior plugin = some positions →
      ∀ position item, (catalog.slice plugin)[position]? = some item →
        matchesItem rememberedPlan.policy rememberedPlan.query item → position ∈ positions := by
    intro plugin positions hprior position item hitem _
    obtain ⟨rfl, rfl⟩ := eq_of_get?_single hprior
    rw [hslice] at hitem
    have hlt : position < 2 := (List.getElem?_eq_some_iff.mp hitem).1
    simp only [mem_cons, not_mem_nil, or_false]
    omega
  have hdistinct : ∀ plugin positions, rememberedPlan.prior plugin = some positions →
      positions.Nodup := by
    intro plugin positions hprior
    obtain ⟨-, rfl⟩ := eq_of_get?_single hprior
    decide
  have hquery : Consistent rememberedPlan.query := ⟨by decide +kernel, by decide +kernel⟩
  obtain ⟨sweep, hsweep, hiff⟩ := @selectBest_eq_reference_iff ascii catalog rememberedPlan [⟨"p"⟩]
    searchLaws_ascii tr hexec (nodup_singleton _) hquery hupper hdistinct hcovers
  rw [hsweep, any_some, decide_eq_true_iff] at hstats
  refine ⟨catalog, tr, sweep, hexec, ?_, hsweep, hstats,
    hiff.mpr ⟨fun h => absurd h one_ne_zero, fun _ candidate hfinal hexact => ?_⟩⟩
  · rw [candidatesOf, hslice]
    decide +kernel
  -- neither label is the query, so that nothing in the answer can be missed
  · obtain ⟨plugin, hplugin, hbest⟩ := mem_reference_owner hfinal
    obtain ⟨item, hitem, hscored⟩ := mem_filterMap.mp (best_subperm.subset hbest)
    rw [mem_singleton.mp hplugin, hslice] at hitem
    have hlabels : ∀ item ∈ [abcdApp, spacedNote], trimText rememberedPlan.query.normalized ≠
        trimText (preparedLabel item).normalized := by decide +kernel
    refine absurd hexact ?_
    obtain ⟨summary, -, rfl⟩ := map_eq_some_iff.mp hscored
    exact hlabels item hitem

end CriKey.Search
