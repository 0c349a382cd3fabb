import CriKey.Search.Select
import CriKey.Search.Visits

/-! The sweep over one owner. The heap holds the best of the matches that were looked at: those
that begin with the leading token, then, in visiting order, those not shaded before. -/
namespace CriKey.Search
open CriKey.Base CriKey.Core CriKey.Query CriKey.Catalog CriKey.Ranking SearchPlan List
  MemoryCatalog
open ItemIndex
open RankedCandidate

namespace SearchPlan
variable (plan : SearchPlan)

/-- One match keeps another from being looked at. -/
def shades (weakest candidate : RankedCandidate) : Bool :=
  plan.prefixToken.isSome && plan.ranker.nonPrefixUpperBound candidate.item < weakest.score

variable [Unicode] (catalog : MemoryCatalog) (plugin : PluginId)

def starts (item : Item) : Bool :=
  plan.prefixToken.any (·.isPrefixOf (preparedLabel item).normalized)

def scored (item : Item) : Option RankedCandidate := plan.candidate item (preparedLabel item)

/-- The items of an owner in the order of the second pass. -/
def visitOrder : List Item :=
  match plan.prior plugin with
  | some positions => positions.filterMap ((catalog.slice plugin)[·]?)
  | none => catalog.slice plugin

def leading : List RankedCandidate :=
  ((catalog.slice plugin).filter plan.starts).filterMap plan.scored

def trailing : List RankedCandidate :=
  ((plan.visitOrder catalog plugin).filter (!plan.starts ·)).filterMap plan.scored

/-- The matches that are looked at. -/
def lookedAt : List RankedCandidate :=
  unshaded plan.shades plan.perPluginLimit (plan.leading catalog plugin)
    (plan.trailing catalog plugin)

/-- What a search can rely on: an exact catalog with addressable labels, a query as the
normalizer makes it, upper bounds that bound, and remembered positions with every match. -/
structure Ready : Prop where
  sound : Sound catalog
  short : ∀ plugin, ∀ item ∈ catalog.slice plugin,
    byteLen (normalizeField item.label.toList) < 2 ^ 32
  query : Consistent plan.query
  upper : ∀ plugin upper, plan.nonPrefixUpper.get? plugin = some upper →
    ∀ item ∈ catalog.slice plugin, plan.ranker.nonPrefixUpperBound item ≤ upper
  distinct : ∀ plugin positions, plan.prior plugin = some positions → positions.Nodup
  covers : ∀ plugin positions, plan.prior plugin = some positions →
    ∀ position item, (catalog.slice plugin)[position]? = some item →
      (plan.scored item).isSome → position ∈ positions

end SearchPlan

lemma candidate_item [Unicode] {plan : SearchPlan} {item : Item} {label : PreparedLabel}
    {candidate : RankedCandidate} (h : plan.candidate item label = some candidate) :
    candidate.item = item ∧ candidate.preparedLabel = label := by
  obtain ⟨summary, -, hcandidate⟩ := Option.map_eq_some_iff.mp h
  rw [← hcandidate]
  exact ⟨rfl, rfl⟩

lemma shades_mono (plan : SearchPlan) (v w x : RankedCandidate) (h : v.rank ≤ w.rank)
    (hw : plan.shades w x) : plan.shades v x := by
  have hscore : w.score ≤ v.score := (Prod.Lex.monotone_fst _ _ h : _)
  simp only [shades, Bool.and_eq_true, decide_eq_true_iff] at hw ⊢
  exact ⟨hw.1, hw.2.trans_le hscore⟩

/-! Lists. -/

lemma filterMap_filter_of_isSome {α β : Type*} {f : α → Option β} {p : α → Bool} {xs : List α}
    (h : ∀ x ∈ xs, (f x).isSome → p x) : (xs.filter p).filterMap f = xs.filterMap f := by
  rw [filterMap_filter]
  apply filterMap_congr
  intro x hx
  cases hp : p x with
  | true => rfl
  | false =>
    cases hf : f x with
    | none => rfl
    | some y =>
      have hin := h x hx (hf ▸ rfl)
      rw [hp] at hin
      cases hin

variable [Unicode] {plan : SearchPlan} {catalog : MemoryCatalog} {plugin : PluginId}

def SearchPlan.scoredVisit (plan : SearchPlan) (visit : Nat × Item × ItemIndex) :
    Option RankedCandidate := plan.candidate visit.2.1 visit.2.2.prepared

/-! The two passes. -/

lemma retained_consider (selection : PluginSelection) (visit : Nat × Item × ItemIndex) :
    (plan.consider selection visit.1 visit.2.1 visit.2.2.prepared).retained =
      (plan.scoredVisit visit).toList.foldl
        (retainBest rank plan.perPluginLimit) selection.retained := by
  rw [consider, scoredVisit]
  cases plan.candidate visit.2.1 visit.2.2.prepared <;> rfl

lemma retained_foldl_consider (visits : List (Nat × Item × ItemIndex))
    (selection : PluginSelection) : (visits.foldl (fun selection visit =>
      plan.consider selection visit.1 visit.2.1 visit.2.2.prepared) selection).retained =
      (visits.filterMap plan.scoredVisit).foldl
        (retainBest rank plan.perPluginLimit) selection.retained := by
  induction visits generalizing selection with
  | nil => rfl
  | cons visit visits ih =>
    rw [foldl_cons, ih, retained_consider, filterMap_cons]
    cases plan.scoredVisit visit <;> rfl

variable {candidate : RankedCandidate}

omit [Unicode] in
lemma prunes_eq (selection : PluginSelection) {item : Item} (h : candidate.item = item) :
    plan.prunes selection item = (selection.retained.length == plan.perPluginLimit &&
        selection.retained.getLast?.any (plan.shades · candidate)) := by
  rw [prunes, ← h]
  cases selection.retained.getLast? with
  | none => simp
  | some weakest =>
    simp only [shades, Option.any_some]
    cases plan.prefixToken.isSome <;> simp

lemma retained_visitRemaining (filtered : Bool) (selection : PluginSelection)
    {visit : Nat × Item × ItemIndex} (hentry : visit.2.2 = new visit.2.1) :
    (plan.visitRemaining filtered selection visit).retained =
      if plan.starts visit.2.1 then selection.retained
      else (plan.scored visit.2.1).toList.foldl
        (retainUnshaded rank plan.shades plan.perPluginLimit)
          selection.retained := by
  have hstarts : plan.prefixToken.any (·.isPrefixOf visit.2.2.prepared.normalized) =
      plan.starts visit.2.1 := by
    rw [hentry]
    rfl
  have hscored : plan.scoredVisit visit = plan.scored visit.2.1 := by
    rw [scoredVisit, hentry]
    rfl
  rw [visitRemaining]
  simp only [hstarts]
  cases plan.starts visit.2.1 with
  | true => rfl
  | false =>
    simp only [Bool.false_eq_true, if_false]
    have hconsider : (plan.consider selection visit.1 visit.2.1 visit.2.2.prepared).retained = _ :=
      retained_consider selection visit
    rw [hscored] at hconsider
    cases hcandidate : plan.scored visit.2.1 with
    | none =>
      -- what does not match leaves the heap alone, looked at or not
      rw [hcandidate] at hconsider
      split
      · rfl
      · exact hconsider
    | some candidate =>
      rw [hcandidate] at hconsider
      rw [prunes_eq selection (candidate_item hcandidate).1]
      simp only [Option.toList_some, foldl_cons] at hconsider ⊢
      rw [retainUnshaded]
      split
      · rfl
      · exact hconsider

lemma retained_foldl_visitRemaining (filtered : Bool) {visits : List (Nat × Item × ItemIndex)}
    (hentries : ∀ visit ∈ visits, visit.2.2 = new visit.2.1) (selection : PluginSelection) :
    (visits.foldl (plan.visitRemaining filtered) selection).retained =
      (((visits.map (·.2.1)).filter (!plan.starts ·)).filterMap plan.scored).foldl
        (retainUnshaded rank plan.shades plan.perPluginLimit) selection.retained := by
  induction visits generalizing selection with
  | nil => rfl
  | cons visit visits ih =>
    rw [foldl_cons, ih fun v hv => hentries v (mem_cons_of_mem visit hv),
      retained_visitRemaining filtered selection (hentries visit mem_cons_self),
      map_cons, filter_cons]
    cases plan.starts visit.2.1 with
    | true => rfl
    | false =>
      simp only [Bool.not_false, if_true, filterMap_cons]
      cases plan.scored visit.2.1 <;> rfl

/-! What the passes visit. -/

lemma map_items_visitsOf (items : List Item) : (visitsOf items).map (·.2.1) = items := by
  rw [visitsOf, map_map]
  exact zipIdx_map_fst 0 items

lemma map_item_visitsOf (items : List Item) (p : Item → Bool) :
    ((visitsOf items).filter fun visit => p visit.2.1).map (·.2.1) = items.filter p := by
  conv_rhs => rw [← map_items_visitsOf items]
  rw [filter_map]
  rfl

omit [Unicode] in
lemma prefixToken_ne {token : Text} (h : plan.prefixToken = some token) : token ≠ [] := by
  intro hnil
  have htest := (Option.filter_eq_some_iff.mp h).2
  rw [hnil] at htest
  cases htest

lemma prefixPass_retained (hs : Sound catalog) : (plan.prefixPass catalog plugin).retained =
      (plan.leading catalog plugin).foldl (retainBest rank plan.perPluginLimit) [] := by
  rw [prefixPass, leading]
  cases htoken : plan.prefixToken with
  | none =>
    have hnone : ∀ item, plan.starts item = false := by
      intro item
      rw [starts, htoken]
      rfl
    have hempty : (catalog.slice plugin).filter plan.starts = [] :=
      filter_eq_nil_iff.mpr fun item _ => Bool.eq_false_iff.mp (hnone item)
    rw [hempty]
    rfl
  | some token =>
    rw [retained_foldl_consider]
    refine congrArg (foldl _ []) ?_
    cases hp : catalog.plugins.get? plugin with
    | none =>
      rw [visitLabelPrefixes, hp, slice_of_none hp]
      rfl
    | some slice =>
      rw [visitLabelPrefixes, hp, slice_of_get? hp]
      simp only
      rw [visitPrefix_eq (hs.exact plugin slice hp) (hs.prefixes plugin slice hp)
        (prefixToken_ne htoken), ← map_item_visitsOf, filterMap_map]
      have htest : (visitsOf slice.items).filter
          (fun visit => token.isPrefixOf visit.2.2.prepared.normalized) =
            (visitsOf slice.items).filter fun visit => plan.starts visit.2.1 := by
        apply filter_congr
        intro visit hvisit
        rw [(mem_visitsOf.mp hvisit).2, starts, htoken]
        rfl
      rw [htest]
      apply filterMap_congr
      intro visit hvisit
      rw [scoredVisit, (mem_visitsOf.mp (mem_of_mem_filter hvisit)).2]
      rfl

lemma remaining_spec (laws : Laws) (hready : plan.Ready catalog) (plugin : PluginId) :
    ∃ visits, plan.remaining catalog plugin = some visits ∧
      (∀ visit ∈ visits, visit.2.2 = new visit.2.1) ∧
      ((visits.map (·.2.1)).filter (!plan.starts ·)).filterMap plan.scored =
        plan.trailing catalog plugin := by
  rw [remaining, trailing, visitOrder]
  have hcommute (items : List Item) (p : Item → Bool)
      (h : ∀ item ∈ items, (plan.scored item).isSome → p item) :
      ((items.filter p).filter (!plan.starts ·)).filterMap plan.scored =
        (items.filter (!plan.starts ·)).filterMap plan.scored := by
    rw [filter_comm]
    exact filterMap_filter_of_isSome fun item hitem => h item (mem_of_mem_filter hitem)
  cases hprior : plan.prior plugin with
  | some positions =>
    refine ⟨_, rfl, ?_⟩
    rw [visitPreparedPositionsWith]
    cases hp : catalog.plugins.get? plugin with
    | none =>
      rw [slice_of_none hp]
      simp
    | some slice =>
      have hexact := hready.sound.exact plugin slice hp
      have hshort := hready.short plugin
      rw [slice_of_get? hp] at hshort ⊢
      simp only [hexact.visitWhere_eq fun entry =>
        mayMatchWith entry.prepared plan.query plan.policy]
      constructor
      · intro visit hvisit
        obtain ⟨position, -, hfound⟩ := mem_filterMap.mp hvisit
        exact (mem_visitsOf.mp (visitWhere_eq_some.mp hfound).2.1).2
      · have hitems : (positions.filterMap (visitWhere slice.items fun entry =>
            mayMatchWith entry.prepared plan.query plan.policy)).map (·.2.1) =
              (positions.filterMap (slice.items[·]?)).filter fun item =>
                mayMatchWith (Query.preparedLabel item) plan.query plan.policy := by
          rw [map_filterMap, filter_filterMap]
          apply filterMap_congr
          intro position _
          rw [visitWhere]
          cases slice.items[position]? with
          | none => rfl
          | some item =>
            cases hmay : mayMatchWith (Query.preparedLabel item) plan.query plan.policy <;>
              simp [new, Option.filter, hmay]
        rw [hitems]
        apply hcommute
        intro item hitem hscored
        obtain ⟨position, -, hget⟩ := mem_filterMap.mp hitem
        rw [scored, candidate, Option.isSome_map] at hscored
        exact mayMatchWith_of_scorePrepared
          (preparedLabel_ordered item (hshort item (mem_of_getElem? hget))) hscored
  | none =>
    rw [visitPreparedCandidates]
    cases hp : catalog.plugins.get? plugin with
    | none =>
      rw [slice_of_none hp]
      exact ⟨[], rfl, by simp, rfl⟩
    | some slice =>
      have hshort := hready.short plugin
      rw [slice_of_get? hp] at hshort ⊢
      obtain ⟨chosen, hvisits, hchosen⟩ :=
        visitCandidates_eq laws (hready.sound.exact plugin slice hp) hready.query hshort
      refine ⟨_, hvisits, ?_, ?_⟩
      · exact fun visit hvisit => (mem_visitsOf.mp (mem_of_mem_filter hvisit)).2
      · rw [filter_map, filterMap_map, filter_comm, filterMap_filter_of_isSome,
          ← filterMap_map, ← filter_map, map_items_visitsOf]
        intro visit hvisit hscored
        apply hchosen visit (mem_of_mem_filter hvisit) plan.policy
        rw [Function.comp_apply, scored, candidate, Option.isSome_map] at hscored
        exact hscored

/-! The matches of an owner, once each. -/

lemma mem_candidatesOf : candidate ∈ candidatesOf catalog plan plugin ↔
      ∃ item ∈ catalog.slice plugin, plan.scored item = some candidate := mem_filterMap

lemma candidatesOf_owner (hs : Sound catalog) (h : candidate ∈ candidatesOf catalog plan plugin) :
    candidate.item.pluginId = plugin := by
  obtain ⟨item, hitem, hscored⟩ := mem_candidatesOf.mp h
  rw [(candidate_item hscored).1]
  exact (hs.items plugin item hitem).1

lemma candidatesOf_distinct (hs : Sound catalog) :
    (candidatesOf catalog plan plugin).Pairwise fun a b => a.item.stableId ≠ b.item.stableId := by
  have hids := hs.nodup plugin
  rw [List.Nodup, pairwise_map] at hids
  rw [candidatesOf, pairwise_filterMap]
  refine hids.imp ?_
  intro item item' hne a ha b hb
  rwa [(candidate_item ha).1, (candidate_item hb).1]

omit [Unicode] in
lemma rank_inj {a b : RankedCandidate} (h : a.rank = b.rank) :
    a.item.stableId = b.item.stableId ∧ a.item.pluginId = b.item.pluginId := by
  have hids : (a.item.stableId.name, a.item.pluginId.name) =
      (b.item.stableId.name, b.item.pluginId.name) := congrArg (fun key => ofLex (ofLex key).2) h
  have hitem := congrArg Prod.fst hids
  have hplugin := congrArg Prod.snd hids
  cases ha : a.item.stableId
  cases hb : b.item.stableId
  cases ha' : a.item.pluginId
  cases hb' : b.item.pluginId
  simp_all

lemma ranks_nodup (hs : Sound catalog) {owners : List PluginId} (hn : owners.Nodup) :
    ((owners.flatMap (candidatesOf catalog plan)).map rank).Nodup := by
  rw [List.Nodup, pairwise_map, pairwise_flatMap]
  constructor
  · intro plugin _
    refine (candidatesOf_distinct hs).imp ?_
    intro a b hne hrank
    exact hne (rank_inj hrank).1
  · refine hn.imp ?_
    intro plugin plugin' hne a ha b hb hrank
    apply hne
    rw [← candidatesOf_owner hs ha, ← candidatesOf_owner hs hb]
    exact (rank_inj hrank).2

lemma owner_ranks_nodup (hs : Sound catalog) :
    ((candidatesOf catalog plan plugin).map rank).Nodup := by
  have hone : ((flatMap (candidatesOf catalog plan) [plugin]).map rank).Nodup :=
    ranks_nodup hs (nodup_singleton plugin)
  rwa [flatMap_singleton] at hone

section
variable (hready : plan.Ready catalog)
include hready

lemma visitOrder_perm :
    ((plan.visitOrder catalog plugin).filter fun item => (plan.scored item).isSome).Perm
      ((catalog.slice plugin).filter fun item => (plan.scored item).isSome) := by
  rw [visitOrder]
  cases hprior : plan.prior plugin with
  | none => exact .refl _
  | some positions =>
    have hslice : (catalog.slice plugin).Nodup := List.Nodup.of_map _ (hready.sound.nodup plugin)
    have hvisited : (positions.filterMap ((catalog.slice plugin)[·]?)).Nodup := by
      refine (hready.distinct plugin positions hprior).filterMap ?_
      intro a b item ha hb
      have hlt := (List.getElem?_eq_some_iff.mp ha).1
      exact (getElem?_inj hlt hslice).mp (ha.trans hb.symm)
    refine (perm_ext_iff_of_nodup (hvisited.filter _) (hslice.filter _)).mpr fun item => ?_
    rw [mem_filter, mem_filter]
    constructor
    · intro h
      obtain ⟨position, -, hitem⟩ := mem_filterMap.mp h.1
      exact ⟨mem_of_getElem? hitem, h.2⟩
    · intro h
      obtain ⟨position, hitem⟩ := mem_iff_getElem?.mp h.1
      have hin := hready.covers plugin positions hprior position item hitem h.2
      exact ⟨mem_filterMap.mpr ⟨position, hin, hitem⟩, h.2⟩

lemma passes_perm (plugin : PluginId) :
    (plan.leading catalog plugin ++ plan.trailing catalog plugin).Perm
      (candidatesOf catalog plan plugin) := by
  have hmatched (items : List Item) (p : Item → Bool) : (items.filter p).filterMap plan.scored =
        ((items.filter fun item => (plan.scored item).isSome).filter p).filterMap plan.scored := by
    rw [filter_comm]
    exact (filterMap_filter_of_isSome fun _ _ h => h).symm
  have htrailing : (plan.trailing catalog plugin).Perm
      (((catalog.slice plugin).filter (!plan.starts ·)).filterMap plan.scored) := by
    rw [trailing, hmatched, hmatched (catalog.slice plugin)]
    exact ((visitOrder_perm hready).filter _).filterMap _
  refine (htrailing.append_left _).trans ?_
  rw [leading, ← filterMap_append]
  exact (filter_append_perm plan.starts _).filterMap _

lemma trailing_shaded {selection : PluginSelection} (hpos : 0 < plan.perPluginLimit)
    (hretained : selection.retained = best rank plan.perPluginLimit (plan.leading catalog plugin))
    (hn : ((plan.leading catalog plugin).map rank).Nodup)
    (h : plan.skipRemaining plugin selection) :
    plan.lookedAt catalog plugin = plan.leading catalog plugin := by
  rw [skipRemaining, Bool.and_eq_true, Bool.and_eq_true] at h
  obtain ⟨⟨htoken, hfull⟩, hbelow⟩ := h
  obtain ⟨upper, hupper, hweakest⟩ := (Option.any_eq_true _ _).mp hbelow
  obtain ⟨weakest, hlast, hlt⟩ := (Option.any_eq_true _ _).mp hweakest
  rw [decide_eq_true_iff] at hlt
  apply unshaded_of_all
  intro candidate hcandidate
  have hmem := (passes_perm hready plugin).subset (mem_append_right _ hcandidate)
  obtain ⟨item, hitem, hscored⟩ := mem_candidatesOf.mp hmem
  have hbound := hready.upper plugin upper hupper item hitem
  rw [← (candidate_item hscored).1] at hbound
  refine (weakest_shades (x := candidate) hn hpos (shades_mono plan)).mp ?_
  rw [← hretained, hfull, hlast, Bool.true_and, Option.any_some, shades, htoken,
    Bool.true_and, decide_eq_true_iff]
  exact hbound.trans_lt hlt

end

lemma selectOwner_spec (laws : Laws) (hready : plan.Ready catalog) (hpos : 0 < plan.perPluginLimit)
    (plugin : PluginId) :
    ∃ selection complete, plan.selectOwner catalog plugin = some (selection, complete) ∧
      selection.retained = best rank plan.perPluginLimit (plan.lookedAt catalog plugin) := by
  have hall : ((plan.leading catalog plugin ++ plan.trailing catalog plugin).map
      rank).Nodup :=
    (((passes_perm hready plugin).map _).nodup_iff).mpr (owner_ranks_nodup hready.sound)
  have hleading : ((plan.leading catalog plugin).map rank).Nodup := by
    rw [map_append] at hall
    exact hall.of_append_left
  have hfirst : (plan.prefixPass catalog plugin).retained =
      best rank plan.perPluginLimit (plan.leading catalog plugin) := by
    rw [prefixPass_retained hready.sound, foldl_retainBest hleading]
  rw [selectOwner]
  by_cases hskip : plan.skipRemaining plugin (plan.prefixPass catalog plugin)
  · refine ⟨_, _, if_pos hskip, ?_⟩
    rw [hfirst, trailing_shaded hready hpos hfirst hleading hskip]
  obtain ⟨visits, hvisits, hentries, htrailing⟩ := remaining_spec laws hready plugin
  refine ⟨visits.foldl (plan.visitRemaining (plan.prior plugin).isSome)
    (plan.prefixPass catalog plugin), true, ?_, ?_⟩
  · rw [if_neg hskip, hvisits]
    rfl
  · rw [retained_foldl_visitRemaining _ hentries, htrailing, hfirst,
      foldl_retainUnshaded hpos (shades_mono plan) hall]
    rfl

end CriKey.Search
