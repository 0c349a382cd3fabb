import CriKey.Aggregator.Memory
import CriKey.Base.Upsert

/-! The aggregator against a plain reference that keeps nothing but the batches accepted
since the active generation began. -/
namespace CriKey.Aggregator
open CriKey.Base CriKey.Core List Option Table

def itemKey (item : Item) : PluginId × ItemId := (item.pluginId, item.stableId)

/-- What the aggregator is for: one generation, and the batches accepted for it. -/
structure Reference where
  floor : Generation
  active : Option Generation
  accepted : List ResultBatch

namespace Reference

def start : Reference := ⟨.zero, none, []⟩

/-- The items on screen: upserted by owner and identity, first acceptance first. -/
def items (r : Reference) : List Item := upsertAll itemKey [] (r.accepted.flatMap (·.items))

def next (r : Reference) : Op × Output → Reference
  | (.beginGeneration g, _) =>
    if g < r.floor ∨ ∃ active ∈ r.active, g ≤ active then r else ⟨r.floor, some g, []⟩
  | (.retireBefore g, _) =>
    if g ≤ r.floor then r
    else if ∃ active ∈ r.active, active < g then ⟨g, none, []⟩
    else { r with floor := g }
  | (.accept batch, .accepted (.ok ())) => { r with accepted := r.accepted ++ [batch] }
  | _ => r

end Reference

def replay (tr : List (Op × Output)) : Reference := tr.foldl Reference.next .start

/-- The snapshot the UI took last; before the first it shows nothing. -/
def lastSnapshot (tr : List (Op × Output)) : List Item :=
  tr.foldl (fun shown io =>
    match io.2 with
    | .snapshot (some items) => items
    | _ => shown) []

lemma replay_snoc (tr : List (Op × Output)) (io : Op × Output) :
    replay (tr ++ [io]) = (replay tr).next io := by
  simp [replay]

/-! Merging. -/

/-- The slots known when `plugin` has the index `index` and the others have `others`. -/
def slots (plugin : PluginId) (index : Table ItemId Nat)
    (others : PluginId × ItemId → Option Nat) (k : PluginId × ItemId) : Option Nat :=
  if k.1 = plugin then index.get? k.2 else others k

lemma mergeItems_spec {plugin : PluginId} {others : PluginId × ItemId → Option Nat}
    (new : List Item) (index : Table ItemId Nat) (items : List Item)
    (howner : ∀ item ∈ new, item.pluginId = plugin)
    (h : Indexed itemKey (slots plugin index others) items) :
    (mergeItems index items new).2 = upsertAll itemKey items new ∧
      Indexed itemKey (slots plugin (mergeItems index items new).1 others)
        (upsertAll itemKey items new) := by
  induction new generalizing index items with
  | nil => exact ⟨rfl, h⟩
  | cons item rest ih =>
    have hown := howner item mem_cons_self
    have hrest : ∀ i ∈ rest, i.pluginId = plugin :=
      fun i hi => howner i (mem_cons_of_mem _ hi)
    have hslot : slots plugin index others (itemKey item) = index.get? item.stableId := by
      simp [slots, itemKey, hown]
    have hall : upsertAll itemKey items (item :: rest) =
        upsertAll itemKey (upsert itemKey item items) rest := rfl
    cases hget : index.get? item.stableId with
    | some slot =>
      obtain ⟨hup, hidx⟩ := h.replace (hslot.trans hget)
      rw [hall, hup, mergeItems, hget]
      exact ih index _ hrest hidx
    | none =>
      obtain ⟨hup, hidx⟩ := h.append (slots plugin (index.insert item.stableId items.length) others)
        (hslot.trans hget) (by simp [slots, itemKey, hown, get?_insert]) (by
          intro k hk
          by_cases hp : k.1 = plugin
          · have hid : k.2 ≠ item.stableId := by
              intro hid
              exact hk (Prod.ext (hp.trans hown.symm) hid)
            simp [slots, get?_insert, hid]
          · simp [slots, hp])
      rw [hall, hup, mergeItems, hget]
      exact ih _ _ hrest hidx

lemma countP_upsertAll {plugin : PluginId} {retained : ItemId → Bool}
    (f : PluginId × ItemId → Bool) (b : Bool) (hf : ∀ id, f (plugin, id) = b)
    (new : List Item) (seen : List ItemId) (items : List Item)
    (howner : ∀ item ∈ new, item.pluginId = plugin)
    (hknown : ∀ id, (plugin, id) ∈ items.map itemKey ↔ retained id = true ∨ id ∈ seen) :
    ((upsertAll itemKey items new).map itemKey).countP f =
      (items.map itemKey).countP f + if b then countFresh retained seen new else 0 := by
  induction new generalizing items seen with
  | nil => simp [upsertAll, countFresh]
  | cons item rest ih =>
    have hown := howner item mem_cons_self
    have hkey : itemKey item = (plugin, item.stableId) := by simp [itemKey, hown]
    have hmem : itemKey item ∈ items.map itemKey ↔
        retained item.stableId = true ∨ item.stableId ∈ seen := hkey ▸ hknown item.stableId
    have hnext : ∀ id, (plugin, id) ∈ (upsert itemKey item items).map itemKey ↔
        retained id = true ∨ id ∈ item.stableId :: seen := by
      intro id
      rw [map_upsert, mem_cons]
      by_cases hin : itemKey item ∈ items.map itemKey
      · rw [if_pos hin, hknown]
        have hseen := hmem.mp hin
        constructor
        · tauto
        · rintro (hr | rfl | hs)
          · exact Or.inl hr
          · exact hseen
          · exact Or.inr hs
      · rw [if_neg hin, mem_append, mem_singleton, hknown, Prod.mk.injEq]
        tauto
    have hrest := ih (item.stableId :: seen) (upsert itemKey item items)
      (fun i hi => howner i (mem_cons_of_mem _ hi)) hnext
    have hall : upsertAll itemKey items (item :: rest) =
        upsertAll itemKey (upsert itemKey item items) rest := rfl
    rw [hall, hrest, map_upsert, countFresh]
    by_cases hin : itemKey item ∈ items.map itemKey
    · have hold : (decide (item.stableId ∉ seen) && !retained item.stableId) = false := by
        cases hmem.mp hin with
        | inl hr => simp [hr]
        | inr hs => simp [hs]
      rw [if_pos hin, hold]
      simp
    · have hnew : (decide (item.stableId ∉ seen) && !retained item.stableId) = true := by
        rw [hmem, not_or] at hin
        simp [hin.1, hin.2]
      rw [if_neg hin, hnew, countP_append, countP_singleton, hkey, hf]
      cases b with
      | false => simp
      | true =>
        simp only [if_true]
        omega

namespace MemoryResultAggregator
variable {a : MemoryResultAggregator}

/-- The slot the nested index gives to an identity. -/
def slot (a : MemoryResultAggregator) (k : PluginId × ItemId) : Option Nat :=
  (a.index.get? k.1).bind (·.get? k.2)

lemma slots_self (a : MemoryResultAggregator) (plugin : PluginId) :
    slots plugin ((a.index.get? plugin).getD .empty) a.slot = a.slot := by
  funext k
  by_cases hk : k.1 = plugin
  · subst hk
    cases hp : a.index.get? k.1 <;> simp [slots, slot, hp]
  · simp [slots, hk]

lemma merge_spec {plugin : PluginId} {new : List Item}
    (howner : ∀ item ∈ new, item.pluginId = plugin) (h : Indexed itemKey a.slot a.items) :
    (a.merge plugin new).items = upsertAll itemKey a.items new ∧
      Indexed itemKey (a.merge plugin new).slot (a.merge plugin new).items := by
  rw [← a.slots_self plugin] at h
  obtain ⟨hitems, hidx⟩ := mergeItems_spec new _ _ howner h
  have hslot : (a.merge plugin new).slot =
      slots plugin (mergeItems ((a.index.get? plugin).getD .empty) a.items new).1 a.slot := by
    funext k
    by_cases hk : k.1 = plugin
    · simp [slot, slots, merge, get?_insert, hk]
    · simp [slot, slots, merge, get?_insert, hk]
  refine ⟨hitems, ?_⟩
  rw [hslot]
  have hmerged : (a.merge plugin new).items = upsertAll itemKey a.items new := hitems
  rw [hmerged]
  exact hidx

variable {batch : ResultBatch}

lemma checkBatch_ok {n total : Nat} (h : a.checkBatch batch = .ok (n, total)) :
    a.active = some batch.generation ∧
      ((a.batchStates.get? batch.plugin).any (·.isTerminal) = false) ∧
      (∀ item ∈ batch.items, item.pluginId = batch.plugin) ∧
      n = a.countNewIdentities batch.plugin batch.items ∧
      total = (a.perPlugin.get? batch.plugin).getD 0 + n ∧
      total ≤ a.maxItemsPerQuery batch.plugin ∧ a.items.length + n ≤ a.limits.maxItemsPerQuery := by
  unfold checkBatch at h
  split at h
  · simp at h
  rename_i hactive
  split at h
  · simp at h
  rename_i hstate
  split at h
  · simp at h
  cases hvalid : a.validatePayloads batch.plugin batch.items with
  | error reason => simp [hvalid] at h
  | ok _ =>
    have howner : ∀ item ∈ batch.items, item.pluginId = batch.plugin := by
      unfold validatePayloads at hvalid
      split at hvalid
      · simp at hvalid
      · rename_i hany
        simpa using hany
    simp only [hvalid] at h
    split at h
    · rename_i pluginTotal queryTotal hplugin hquery
      split at h
      · simp at h
      rename_i hquota
      obtain ⟨rfl, rfl⟩ := h
      have hp := checkedAdd_eq_some hplugin
      have hq := checkedAdd_eq_some hquery
      simp only [Bool.or_eq_true, decide_eq_true_eq, not_or, not_lt] at hquota
      exact ⟨by simpa using hactive, by simpa using hstate, howner, rfl, hp, hquota.1,
        hq ▸ hquota.2⟩
    · simp at h

lemma accept_error {reason : RejectReason} (h : (a.accept batch).2 = .error reason) :
    (a.accept batch).1 = a := by
  unfold accept at *
  cases hc : a.checkBatch batch with
  | error _ => rfl
  | ok r => simp [hc] at h

lemma accept_ok (h : (a.accept batch).2 = .ok ()) : ∃ n total, a.checkBatch batch = .ok (n, total) ∧
      (a.accept batch).1 = a.retain batch n total := by
  unfold accept at *
  cases hc : a.checkBatch batch with
  | error _ => simp [hc] at h
  | ok r => exact ⟨r.1, r.2, rfl, rfl⟩

/-- The retained items with their index, counts and quotas. -/
structure Exact (a : MemoryResultAggregator) : Prop where
  indexed : Indexed itemKey a.slot a.items
  counts : ∀ p, (a.perPlugin.get? p).getD 0 = (a.items.map itemKey).countP (·.1 = p)
  pluginQuota : ∀ p, (a.perPlugin.get? p).getD 0 ≤ a.maxItemsPerQuery p
  queryQuota : a.items.length ≤ a.limits.maxItemsPerQuery

lemma Exact.blank (hitems : a.items = []) (hindex : a.index = .empty)
    (hcounts : a.perPlugin = .empty) : a.Exact where
  indexed := by
    rw [hitems]
    intro k
    simp [slot, hindex]
  counts := by simp [hitems, hcounts]
  pluginQuota := by simp [hcounts]
  queryQuota := by simp [hitems]

lemma Exact.retained (h : a.Exact) (plugin : PluginId) (id : ItemId) :
    (plugin, id) ∈ a.items.map itemKey ↔
      ((a.index.get? plugin).any (·.contains id)) = true ∨ id ∈ ([] : List ItemId) := by
  rw [h.indexed.mem_iff]
  cases hp : a.index.get? plugin with
  | none => simp [slot, hp]
  | some index => simp [slot, hp, Table.contains]

lemma retain_of_empty (n total : Nat) (h : batch.items = []) : a.retain batch n total =
      { a with batchStates := a.batchStates.insert batch.plugin batch.state } := by
  simp [retain, h]

lemma retain_of_items (n total : Nat) (h : batch.items ≠ []) : a.retain batch n total =
      { a.merge batch.plugin batch.items with
        perPlugin := if 0 < n then a.perPlugin.insert batch.plugin total else a.perPlugin
        pendingUiUpdate := true
        batchStates := a.batchStates.insert batch.plugin batch.state } := by
  have hempty : batch.items.isEmpty = false := by simpa using h
  unfold retain
  simp only [hempty]
  by_cases hn : 0 < n
  · simp only [hn, if_true]
    rfl
  · simp only [hn]
    rfl

lemma retain_spec {n total : Nat} (h : a.Exact) (hc : a.checkBatch batch = .ok (n, total)) :
    (a.retain batch n total).items = upsertAll itemKey a.items batch.items ∧
      (a.retain batch n total).Exact := by
  obtain ⟨-, -, howner, hn, htotal, hplugin, hquery⟩ := checkBatch_ok hc
  by_cases hempty : batch.items = []
  · rw [retain_of_empty n total hempty, hempty]
    exact ⟨rfl, { h with }⟩
  obtain ⟨hitems, hidx⟩ := merge_spec howner h.indexed
  have hretain := retain_of_items (a := a) n total hempty
  have hretained : (a.retain batch n total).items = upsertAll itemKey a.items batch.items := by
    rw [hretain]
    exact hitems
  have hcountP : ∀ f b, (∀ id, f (batch.plugin, id) = b) →
      ((upsertAll itemKey a.items batch.items).map itemKey).countP f =
        (a.items.map itemKey).countP f + if b then n else 0 := by
    intro f b hf
    rw [hn]
    exact countP_upsertAll f b hf batch.items [] a.items howner (h.retained batch.plugin)
  have hcounts : ∀ p, ((a.retain batch n total).perPlugin.get? p).getD 0 =
      (a.perPlugin.get? p).getD 0 + if p = batch.plugin then n else 0 := by
    intro p
    rw [hretain]
    by_cases hp : p = batch.plugin
    · subst hp
      by_cases hpos : 0 < n
      · simp [hpos, get?_insert, htotal]
      · have hzero : n = 0 := by omega
        simp [hzero]
    · by_cases hpos : 0 < n
      · simp [hpos, get?_insert, hp]
      · simp [hpos, hp]
  refine ⟨hretained, ?_, ?_, ?_, ?_⟩
  · rw [hretain]
    exact hidx
  · intro p
    have hadd := hcountP (·.1 = p) (decide (batch.plugin = p)) (fun _ => rfl)
    rw [hcounts, hretained, hadd, h.counts]
    by_cases hp : p = batch.plugin
    · simp [hp]
    · simp [hp, Ne.symm hp]
  · intro p
    have hlimits : (a.retain batch n total).maxItemsPerQuery p = a.maxItemsPerQuery p := by
      rw [hretain]
      rfl
    rw [hcounts, hlimits]
    by_cases hp : p = batch.plugin
    · rw [if_pos hp, hp]
      omega
    · rw [if_neg hp]
      exact h.pluginQuota p
  · have hlen := hcountP (fun _ => true) true (fun _ => rfl)
    simp only [countP_true, length_map, if_true] at hlen
    have hmax : (a.retain batch n total).limits = a.limits := by
      rw [hretain]
      rfl
    rw [hretained, hmax]
    omega

/-- The aggregator with the manifest-declared ceilings of its plugins. -/
def configured (limits : ResultLimits) (setup : List (PluginId × Nat × Nat)) :
    MemoryResultAggregator :=
  setup.foldl (fun a e => a.setPluginLimits e.1 e.2.1 e.2.2) (new limits)

lemma configured_eq (limits : ResultLimits) (setup : List (PluginId × Nat × Nat)) :
    ∃ ceilings, configured limits setup = { new limits with pluginLimits := ceilings } := by
  have hfold : ∀ ceilings, ∃ ceilings', setup.foldl (fun a e => a.setPluginLimits e.1 e.2.1 e.2.2)
        { new limits with pluginLimits := ceilings } =
          { new limits with pluginLimits := ceilings' } := by
    induction setup with
    | nil => exact fun ceilings => ⟨ceilings, rfl⟩
    | cons e setup ih => exact fun ceilings => ih _
  exact hfold .empty

end MemoryResultAggregator

open MemoryResultAggregator

/-- The aggregator shows what the reference shows. -/
structure Refines (first : MemoryResultAggregator) (tr : List (Op × Output))
    (a : MemoryResultAggregator) : Prop where
  limits : a.limits = first.limits
  pluginLimits : a.pluginLimits = first.pluginLimits
  floor : a.retirementFloor = (replay tr).floor
  active : a.active = (replay tr).active
  items : a.items = (replay tr).items
  exact_ : a.Exact
  snapshot : a.pendingUiUpdate = false → lastSnapshot tr = a.items

lemma refines_configured (limits : ResultLimits) (setup : List (PluginId × Nat × Nat)) :
    Refines (configured limits setup) [] (configured limits setup) := by
  obtain ⟨ceilings, h⟩ := configured_eq limits setup
  rw [h]
  exact ⟨rfl, rfl, rfl, rfl, rfl, .blank rfl rfl rfl, fun _ => rfl⟩

variable {first a a' : MemoryResultAggregator} {tr : List (Op × Output)} {op : Op} {out : Output}

lemma lastSnapshot_snoc (io : Op × Output) (h : ∀ items, io.2 ≠ .snapshot (some items)) :
    lastSnapshot (tr ++ [io]) = lastSnapshot tr := by
  unfold lastSnapshot
  rw [foldl_append, foldl_cons]
  split
  · rename_i items hio
    exact absurd hio (h items)
  · rfl

section
variable (h : Refines first tr a)
include h

lemma Refines.same (hnext : (replay tr).next (op, out) = replay tr)
    (hout : ∀ items, out ≠ .snapshot (some items)) (hlimits : a'.limits = a.limits)
    (hceilings : a'.pluginLimits = a.pluginLimits)
    (hfloor : a'.retirementFloor = a.retirementFloor) (hactive : a'.active = a.active)
    (hitems : a'.items = a.items) (hexact : a'.Exact)
    (hpending : a'.pendingUiUpdate = a.pendingUiUpdate) : Refines first (tr ++ [(op, out)]) a' := by
  refine ⟨hlimits.trans h.limits, hceilings.trans h.pluginLimits, ?_, ?_, ?_, hexact, ?_⟩
  · rw [replay_snoc, hnext, hfloor, h.floor]
  · rw [replay_snoc, hnext, hactive, h.active]
  · rw [replay_snoc, hnext, hitems, h.items]
  · intro hp
    rw [lastSnapshot_snoc _ hout, hitems]
    exact h.snapshot (hpending ▸ hp)

lemma refines_begin (g : Generation) :
    Refines first (tr ++ [(.beginGeneration g, .done)]) (a.beginGeneration g) := by
  have hany : (a.active.any fun active => decide (g ≤ active)) = true ↔
      ∃ active ∈ (replay tr).active, g ≤ active := by
    rw [← h.active]
    simp [Option.any_eq_true]
  have hignored : (g < a.retirementFloor ∨
      (a.active.any fun active => decide (g ≤ active)) = true) ↔
      (g < (replay tr).floor ∨ ∃ active ∈ (replay tr).active, g ≤ active) := by
    rw [hany, h.floor]
  by_cases hold : g < (replay tr).floor ∨ ∃ active ∈ (replay tr).active, g ≤ active
  · have hsame : a.beginGeneration g = a := by
      unfold beginGeneration
      cases hignored.mpr hold with
      | inl hlt => rw [if_pos hlt]
      | inr hle => rw [if_pos hle, ite_self]
    rw [hsame]
    exact h.same (by rw [Reference.next, if_pos hold]) (by simp) rfl rfl rfl rfl rfl h.exact_ rfl
  · have hlater := mt hignored.mp hold
    rw [not_or] at hlater
    have hnew : a.beginGeneration g =
        { { a with active := some g }.reset with pendingUiUpdate := true } := by
      rw [beginGeneration, if_neg hlater.1, if_neg hlater.2]
    have hnext : (replay tr).next (.beginGeneration g, .done) =
        ⟨(replay tr).floor, some g, []⟩ := by
      rw [Reference.next, if_neg hold]
    rw [hnew]
    refine ⟨h.limits, h.pluginLimits, ?_, ?_, ?_, .blank rfl rfl rfl, by simp⟩
    · rw [replay_snoc, hnext]
      exact h.floor
    · rw [replay_snoc, hnext]
      rfl
    · rw [replay_snoc, hnext]
      rfl

lemma refines_retire (g : Generation) :
    Refines first (tr ++ [(.retireBefore g, .done)]) (a.retireBefore g) := by
  have hshown : lastSnapshot (tr ++ [(.retireBefore g, .done)]) = lastSnapshot tr :=
    lastSnapshot_snoc _ (by simp)
  by_cases hold : g ≤ a.retirementFloor
  · have hsame : a.retireBefore g = a := by rw [retireBefore, if_pos hold]
    rw [h.floor] at hold
    rw [hsame]
    exact h.same (by rw [Reference.next, if_pos hold]) (by simp) rfl rfl rfl rfl rfl h.exact_ rfl
  · by_cases hretired : ∃ active ∈ a.active, active < g
    · obtain ⟨active, hactive, hlt⟩ := hretired
      have hnew : a.retireBefore g =
          { { { a with retirementFloor := g } with active := none }.reset with
            pendingUiUpdate := a.pendingUiUpdate || !a.items.isEmpty } := by
        simp only [retireBefore, hold, mem_def.mp hactive, hlt.not_ge]
        rfl
      have hnext : (replay tr).next (.retireBefore g, .done) = ⟨g, none, []⟩ := by
        rw [Reference.next, if_neg (h.floor ▸ hold), if_pos ⟨active, h.active ▸ hactive, hlt⟩]
      rw [hnew]
      refine ⟨h.limits, h.pluginLimits, ?_, ?_, ?_, .blank rfl rfl rfl, ?_⟩
      · rw [replay_snoc, hnext]
        rfl
      · rw [replay_snoc, hnext]
        rfl
      · rw [replay_snoc, hnext]
        rfl
      · intro hp
        rw [Bool.or_eq_false_iff] at hp
        have hnil : a.items = [] := by simpa using hp.2
        rw [hshown, h.snapshot hp.1, hnil]
        rfl
    · have hnew : a.retireBefore g = { a with retirementFloor := g } := by
        cases hactive : a.active with
        | none => simp [retireBefore, hold, hactive]
        | some active =>
          have hge : g ≤ active := by
            by_contra hlt
            exact hretired ⟨active, hactive, not_le.mp hlt⟩
          simp [retireBefore, hold, hactive, hge]
      have hnext : (replay tr).next (.retireBefore g, .done) = { replay tr with floor := g } := by
        rw [Reference.next, if_neg (h.floor ▸ hold), if_neg (h.active ▸ hretired)]
      rw [hnew]
      refine ⟨h.limits, h.pluginLimits, ?_, ?_, ?_, ?_, fun hp => hshown.trans (h.snapshot hp)⟩
      · rw [replay_snoc, hnext]
      · rw [replay_snoc, hnext]
        exact h.active
      · rw [replay_snoc, hnext]
        exact h.items
      · exact ⟨h.exact_.indexed, h.exact_.counts, h.exact_.pluginQuota, h.exact_.queryQuota⟩

lemma refines_accept (batch : ResultBatch) :
    Refines first (tr ++ [(.accept batch, .accepted (a.accept batch).2)]) (a.accept batch).1 := by
  cases hresult : (a.accept batch).2 with
  | error reason =>
    rw [accept_error hresult]
    exact h.same rfl (by simp) rfl rfl rfl rfl rfl h.exact_ rfl
  | ok _ =>
    obtain ⟨n, total, hc, hnew⟩ := accept_ok hresult
    obtain ⟨hitems, hexact⟩ := retain_spec h.exact_ hc
    have hnext : (replay tr).next (.accept batch, .accepted (.ok ())) =
        { replay tr with accepted := (replay tr).accepted ++ [batch] } := rfl
    have hshown : lastSnapshot (tr ++ [(.accept batch, .accepted (.ok ()))]) = lastSnapshot tr :=
      lastSnapshot_snoc _ (by simp)
    have hupserted : (a.retain batch n total).items =
        Reference.items { replay tr with accepted := (replay tr).accepted ++ [batch] } := by
      rw [hitems, h.items]
      simp [Reference.items, upsertAll]
    rw [hnew]
    by_cases hempty : batch.items = []
    · have hretain := retain_of_empty (a := a) n total hempty
      rw [hretain] at hexact hupserted ⊢
      refine ⟨h.limits, h.pluginLimits, ?_, ?_, ?_, hexact, fun hp => hshown.trans (h.snapshot hp)⟩
      · rw [replay_snoc]
        exact h.floor
      · rw [replay_snoc]
        exact h.active
      · rw [replay_snoc]
        exact hupserted
    · have hretain := retain_of_items (a := a) n total hempty
      rw [hretain] at hexact hupserted ⊢
      refine ⟨h.limits, h.pluginLimits, ?_, ?_, ?_, hexact, by simp⟩
      · rw [replay_snoc]
        exact h.floor
      · rw [replay_snoc]
        exact h.active
      · rw [replay_snoc]
        exact hupserted

lemma refines_take :
    Refines first (tr ++ [(.takeUiUpdate, .snapshot a.takeUiUpdate.2)]) a.takeUiUpdate.1 := by
  by_cases hwait : (!a.pendingUiUpdate || decide (a.uiUpdatesRemaining = 0)) = true
  · have hnone : a.takeUiUpdate = (a, none) := by rw [takeUiUpdate, if_pos hwait]
    rw [hnone]
    exact h.same rfl (by simp) rfl rfl rfl rfl rfl h.exact_ rfl
  · have htaken : a.takeUiUpdate =
        ({ a with uiUpdatesRemaining := a.uiUpdatesRemaining - 1, pendingUiUpdate := false },
          some a.items) := by
      rw [takeUiUpdate, if_neg hwait]
    rw [htaken]
    refine ⟨h.limits, h.pluginLimits, ?_, ?_, ?_, ?_, ?_⟩
    · rw [replay_snoc]
      exact h.floor
    · rw [replay_snoc]
      exact h.active
    · rw [replay_snoc]
      exact h.items
    · exact ⟨h.exact_.indexed, h.exact_.counts, h.exact_.pluginQuota, h.exact_.queryQuota⟩
    · simp [lastSnapshot]

lemma refines_step (hstep : step a op = some (a', out)) : Refines first (tr ++ [(op, out)]) a' := by
  cases op <;> simp only [step] at hstep <;>
    obtain ⟨rfl, rfl⟩ := hstep
  case beginGeneration g => exact refines_begin h g
  case retireBefore g => exact refines_retire h g
  case accept batch => exact refines_accept h batch
  case takeUiUpdate => exact refines_take h
  case beginFrame =>
    exact h.same rfl (by simp) rfl rfl rfl rfl rfl
      ⟨h.exact_.indexed, h.exact_.counts, h.exact_.pluginQuota, h.exact_.queryQuota⟩ rfl

end

/-- The aggregator refines the plain reference. After every sequence of calls the items are
the upserted items of the batches accepted since the active generation began, the index
and the counts are exact, the quotas hold, a rejected batch left no trace, and a screen
that is owed nothing shows the items. -/
theorem aggregator_refines (limits : ResultLimits) (setup : List (PluginId × Nat × Nat))
    (ops : List Op) :
    ∃ a tr, run step (configured limits setup) ops = some (a, tr) ∧ tr.map Prod.fst = ops ∧
      a.items = (replay tr).items ∧ a.active = (replay tr).active ∧
      (∀ p id i, a.slot (p, id) = some i ↔ (a.items.map itemKey)[i]? = some (p, id)) ∧
      (∀ p, (a.perPlugin.get? p).getD 0 = (a.items.filter fun item => item.pluginId = p).length ∧
        (a.perPlugin.get? p).getD 0 ≤ (configured limits setup).maxItemsPerQuery p) ∧
      a.items.length ≤ limits.maxItemsPerQuery ∧
      (∀ before batch reason after,
        tr = before ++ (.accept batch, .accepted (.error reason)) :: after →
          ∃ t, Exec step (configured limits setup) before t ∧
            step t (.accept batch) = some (t, .accepted (.error reason))) ∧
      (a.pendingUiUpdate = false → lastSnapshot tr = a.items) := by
  have htotal : ∃ a tr, run step (configured limits setup) ops = some (a, tr) :=
    run_total (fun _ _ => True) trivial (fun op _ t _ => by cases op <;> exact ⟨_, _, rfl, trivial⟩)
  obtain ⟨a, tr, hrun⟩ := htotal
  obtain ⟨hexec, hops⟩ := exec_of_run hrun
  have h : Refines (configured limits setup) tr a :=
    Exec.invariant (Refines (configured limits setup)) (refines_configured limits setup)
      (fun _ _ _ _ _ _ hI hs => refines_step hI hs) hexec
  obtain ⟨ceilings, hfirst⟩ := configured_eq limits setup
  refine ⟨a, tr, hrun, hops, h.items, h.active, fun p id i => h.exact_.indexed (p, id) i, ?_, ?_,
    ?_, h.snapshot⟩
  · intro p
    refine ⟨?_, ?_⟩
    · rw [h.exact_.counts, countP_map, countP_eq_length_filter]
      rfl
    · have hquota := h.exact_.pluginQuota p
      rwa [maxItemsPerQuery, h.limits, h.pluginLimits] at hquota
  · have hquota := h.exact_.queryQuota
    rwa [h.limits, hfirst] at hquota
  · intro before batch reason after htr
    rw [htr] at hexec
    obtain ⟨t, t', hbefore, hstep, -⟩ := hexec.split_at
    refine ⟨t, hbefore, ?_⟩
    simp only [step, some.injEq, Prod.mk.injEq, Output.accepted.injEq] at hstep ⊢
    exact ⟨accept_error hstep.2, hstep.2⟩
end CriKey.Aggregator
