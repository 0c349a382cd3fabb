import CriKey.Base.Fallible
import CriKey.Catalog.Memory
import CriKey.Catalog.Slice

/-! Catalog updates against a reference list: what an accepted update publishes, that a
refused one changes nothing, and the limits every reachable catalog keeps. -/
namespace CriKey.Catalog
open CriKey.Base CriKey.Core CriKey.Query MemoryCatalog Table Option Bool Item

lemma guard_eq_ok {ε α β : Type} {c : Prop} [Decidable c] {e : ε} {f : α → Except ε β}
    {r : Except ε β} {v : β} :
    (if c then throw e >>= f else r) = .ok v ↔ ¬c ∧ r = .ok v := by
  by_cases hc : c
  · simp [hc, bind, Except.bind]
  · simp [hc]

/-- What the plugin's items should be after an update: every identity where it comes first,
with the value supplied last. -/
def reference (update : CatalogUpdate) (old items : List Item) : List Item :=
  match update with
  | .replace => firstLast stableId items
  | .merge => firstLast stableId (old ++ items)

/-- The payload of an item is within a limit. -/
def Fits (limit : Nat) (item : Item) : Prop :=
  ∃ bytes, itemPayloadBytes item = .ok bytes ∧ bytes ≤ limit

lemma batchBytes_fits {limits : CatalogLimits} {items : List Item} {total bytes : Nat}
    (h : batchBytes limits total items = .ok bytes) :
    ∀ item ∈ items, Fits limits.maxItemBytes item := by
  induction items generalizing total with
  | nil => simp
  | cons first items ih =>
    rw [batchBytes] at h
    cases hfirst : itemPayloadBytes first with
    | error e => simp [hfirst, bind, Except.bind] at h
    | ok n =>
      by_cases hbig : limits.maxItemBytes < n
      · simp [hfirst, hbig, bind, Except.bind] at h
      cases hadd : checkedAdd total n with
      | none =>
        simp [hfirst, hbig, hadd, bind, Except.bind] at h
      | some sum =>
        simp only [hfirst, hbig, hadd, bind, Except.bind] at h
        intro item hmem
        cases List.mem_cons.mp hmem with
        | inl he => exact he ▸ ⟨n, hfirst, Nat.le_of_not_lt hbig⟩
        | inr hrest => exact ih h item hrest

namespace MemoryCatalog
variable (catalog : MemoryCatalog)

/-- The identities of a batch that the plugin does not hold yet. -/
def newIds (plugin : PluginId) (items : List Item) : List ItemId :=
  (uniqueIds items).filter fun id =>
    !(catalog.plugins.get? plugin).any (·.positions.contains id)

def projected (plugin : PluginId) (update : CatalogUpdate) (items : List Item) : Nat :=
  match update with
  | .replace => (uniqueIds items).length
  | .merge => (catalog.slice plugin).length + (catalog.newIds plugin items).length

/-- What a plan has checked. -/
structure Planned (plugin : PluginId) (update : CatalogUpdate) (items : List Item)
    (plan : UpdatePlan) : Prop where
  batchItems : items.length ≤ catalog.limits.maxBatchItems
  owned : ∀ item ∈ items, item.pluginId = plugin
  batchBytes : ∃ bytes, batchBytes catalog.limits 0 items = .ok bytes ∧
    bytes ≤ catalog.limits.maxBatchBytes
  unique : plan.uniqueBatchItems = (uniqueIds items).length
  pluginItems : catalog.projected plugin update items ≤ catalog.limits.maxPluginItems
  total : plan.projectedTotalItems + (catalog.slice plugin).length =
    catalog.itemCount + catalog.projected plugin update items
  totalItems : plan.projectedTotalItems ≤ catalog.limits.maxTotalItems

lemma length_slice (plugin : PluginId) :
    ((catalog.plugins.get? plugin).map (·.items.length)).getD 0 =
      (catalog.slice plugin).length := by
  rw [slice]
  cases catalog.plugins.get? plugin <;> rfl

lemma countOr_ok {count : Option Nat} {n : Nat} (h : countOr count = .ok n) : count = some n := by
  cases count with
  | none => cases h
  | some m => exact congrArg some (Except.ok.inj h)

variable {catalog} {plugin : PluginId} {update : CatalogUpdate} {items : List Item}
  {plan : UpdatePlan}

lemma planUpdate_ok (h : catalog.planUpdate plugin update items = .ok plan) :
    catalog.Planned plugin update items plan := by
  simp only [planUpdate, bind_eq_ok, guard_eq_ok, length_slice] at h
  obtain ⟨hbatch, howned, bytes, hbytes, hmax, hplan⟩ := h
  -- both updates end with the same checks of the projected size
  have hsize : ∃ n additions, n = catalog.projected plugin update items ∧
      ¬catalog.limits.maxPluginItems < n ∧
      ∃ others, countOr (checkedSub catalog.itemCount (catalog.slice plugin).length) = .ok others ∧
      ∃ total, countOr (checkedAdd others n) = .ok total ∧
      ¬catalog.limits.maxTotalItems < total ∧
      (⟨(uniqueIds items).length, additions, total⟩ : UpdatePlan) = plan := by
    cases update with
    | replace =>
      simp only [bind_eq_ok, guard_eq_ok, pure, Except.pure, Except.ok.injEq] at hplan
      obtain ⟨_, rfl, hplan⟩ := hplan
      exact ⟨_, _, rfl, hplan⟩
    | merge =>
      simp only [bind_eq_ok, guard_eq_ok, pure, Except.pure, Except.ok.injEq] at hplan
      obtain ⟨n, hn, _, rfl, hplan⟩ := hplan
      exact ⟨n, _, checkedAdd_eq_some (countOr_ok hn), hplan⟩
  obtain ⟨n, additions, hn, hplugin, others, hothers, total, htotal, hlimit, rfl⟩ := hsize
  have hsub := checkedSub_eq_some (countOr_ok hothers)
  have hadd := checkedAdd_eq_some (countOr_ok htotal)
  have howner : ∀ item ∈ items, item.pluginId = plugin := by simpa using howned
  refine ⟨Nat.le_of_not_lt hbatch, howner, ⟨bytes, hbytes, Nat.le_of_not_lt hmax⟩, rfl, ?_, ?_,
    Nat.le_of_not_lt hlimit⟩
  · omega
  · show total + _ = _
    omega

end MemoryCatalog

/-- What every reachable catalog keeps. -/
structure Sound [Unicode] (catalog : MemoryCatalog) : Prop where
  exact : ∀ plugin slice, catalog.plugins.get? plugin = some slice → Exact slice
  prefixes : ∀ plugin slice, catalog.plugins.get? plugin = some slice → PrefixExact [] slice
  count : catalog.itemCount = catalog.plugins.sum (·.items.length)
  pluginItems : ∀ plugin, (catalog.slice plugin).length ≤ catalog.limits.maxPluginItems
  totalItems : catalog.itemCount ≤ catalog.limits.maxTotalItems
  items : ∀ plugin, ∀ item ∈ catalog.slice plugin,
    item.pluginId = plugin ∧ Fits catalog.limits.maxItemBytes item

/-- One plugin's items became `after`, with exact indexes; no items means no slice. -/
def Replaced [Unicode] (catalog : MemoryCatalog) (plugin : PluginId) (after : List Item)
    (plugins : Table PluginId PluginCatalog) : Prop :=
  (after = [] ∧ plugins = catalog.plugins.erase plugin) ∨
    ∃ slice, Exact slice ∧ PrefixExact [] slice ∧ slice.items = after ∧
      plugins = catalog.plugins.insert plugin slice

/-- What a call can do. -/
inductive Change [Unicode] (catalog : MemoryCatalog) :
    Op → MemoryCatalog → Except CatalogError Unit → Prop
  | refused {op : Op} {e : CatalogError} : Change catalog op catalog (.error e)
  | activated {plugin : PluginId} {instanceId : Nat}
      (hhigh : ∀ state, catalog.instances.get? plugin = some state → state.highWater ≤ instanceId) :
      Change catalog (.activate plugin instanceId)
        { catalog with instances := catalog.instances.insert plugin ⟨instanceId, true⟩ } (.ok ())
  | retired {plugin : PluginId} {instanceId : Nat} : Change catalog (.retire plugin instanceId)
        { catalog with
          instances := catalog.instances.modify plugin fun state => { state with active := false } }
        (.ok ())
  | absent {plugin : PluginId} : Change catalog (.invalidate plugin) catalog (.ok ())
  | invalidated {plugin : PluginId} {slice : PluginCatalog} {count : Nat}
      (hslice : catalog.plugins.get? plugin = some slice)
      (hcount : catalog.itemCount = count + slice.items.length) :
      Change catalog (.invalidate plugin)
        { catalog with plugins := catalog.plugins.erase plugin, itemCount := count } (.ok ())
  | published {plugin : PluginId} {instanceId : Nat} {update : CatalogUpdate} {items : List Item}
      {plan : UpdatePlan} {plugins : Table PluginId PluginCatalog}
      (hactive : catalog.isActive plugin instanceId)
      (hplan : catalog.Planned plugin update items plan)
      (hplugins : Replaced catalog plugin (reference update (catalog.slice plugin) items) plugins) :
      Change catalog (.apply plugin instanceId update items)
        { catalog with plugins, itemCount := plan.projectedTotalItems } (.ok ())
  | untouched {plugin : PluginId} {instanceId : Nat} {items : List Item} {plan : UpdatePlan}
      (hactive : catalog.isActive plugin instanceId)
      (hplan : catalog.Planned plugin .merge items plan)
      (hnone : reference .merge (catalog.slice plugin) items = catalog.slice plugin) :
      Change catalog (.apply plugin instanceId .merge items) catalog (.ok ())

section
variable [Unicode] {catalog : MemoryCatalog} {plugin : PluginId} {update : CatalogUpdate}
  {items : List Item} {plan : UpdatePlan}

omit [Unicode] in
lemma slice_of_get? {slice : PluginCatalog} (h : catalog.plugins.get? plugin = some slice) :
    catalog.slice plugin = slice.items := by
  rw [MemoryCatalog.slice, h]
  rfl

omit [Unicode] in
lemma slice_of_none (h : catalog.plugins.get? plugin = none) : catalog.slice plugin = [] := by
  rw [slice, h]
  rfl

namespace Sound

variable (hs : Sound catalog)
include hs

section
variable (plugin : PluginId)

lemma nodup : ((catalog.slice plugin).map stableId).Nodup := by
  cases hp : catalog.plugins.get? plugin with
  | none =>
    rw [slice_of_none hp]
    exact List.nodup_nil
  | some slice =>
    rw [slice_of_get? hp]
    exact (hs.exact plugin slice hp).indexed.nodup

lemma newIds (items : List Item) : catalog.newIds plugin items =
      (items.map stableId).dedup.filter (· ∉ (catalog.slice plugin).map stableId) := by
  apply List.filter_congr
  intro id _
  cases hp : catalog.plugins.get? plugin with
  | none => simp [slice_of_none hp]
  | some slice =>
    have hmem := (hs.exact plugin slice hp).indexed.mem_iff id
    rw [slice_of_get? hp, any_some, contains]
    simp only [hmem, decide_not, decide_eq_true]

lemma reference_eq (update : CatalogUpdate) (items : List Item) :
    reference update (catalog.slice plugin) items =
      upsertAll stableId (if update = .replace then [] else catalog.slice plugin) items := by
  cases update with
  | replace => exact (upsertAll_nil items).symm
  | merge => exact (upsertAll_eq_firstLast (hs.nodup plugin)).symm

lemma length_reference (update : CatalogUpdate) (items : List Item) :
    (reference update (catalog.slice plugin) items).length =
      catalog.projected plugin update items := by
  rw [hs.reference_eq]
  cases update with
  | replace =>
    have hnil : (([] : List Item).map stableId).Nodup := List.nodup_nil
    rw [if_pos rfl, length_upsertAll hnil]
    simp [projected, uniqueIds]
  | merge =>
    rw [if_neg (by decide), length_upsertAll (hs.nodup plugin), projected, hs.newIds]

end

lemma mem_reference {item : Item} (h : item ∈ reference update (catalog.slice plugin) items) :
    item ∈ catalog.slice plugin ∨ item ∈ items := by
  rw [hs.reference_eq] at h
  cases mem_of_mem_upsertAll h with
  | inr h => exact .inr h
  | inl h =>
    split at h
    · simp at h
    · exact .inl h

end Sound

omit [Unicode] in
lemma eq_nil_of_unique (hplan : catalog.Planned plugin update items plan)
    (h : plan.uniqueBatchItems = 0) : items = [] := by
  rw [hplan.unique, List.length_eq_zero_iff, uniqueIds, List.dedup_eq_nil, List.map_eq_nil_iff] at h
  exact h

lemma updated_spec (hs : Sound catalog) (hplan : catalog.Planned plugin update items plan)
    (hsome : ¬(update = .merge && plan.uniqueBatchItems = 0)) :
    ∃ plugins, catalog.updated plugin update items plan = some plugins ∧
      Replaced catalog plugin (reference update (catalog.slice plugin) items) plugins := by
  obtain ⟨fresh, hfresh, hexact, hfront, hitems⟩ := fromItems_spec items
  rw [hs.reference_eq]
  cases update with
  | replace =>
    by_cases hzero : plan.uniqueBatchItems = 0
    · refine ⟨catalog.plugins.erase plugin, by simp [updated, hzero], .inl ⟨?_, rfl⟩⟩
      rw [eq_nil_of_unique hplan hzero]
      rfl
    · exact ⟨_, by simp [updated, hzero, hfresh], .inr ⟨fresh, hexact, hfront, hitems, rfl⟩⟩
  | merge =>
    cases hp : catalog.plugins.get? plugin with
    | none =>
      refine ⟨_, by simp [updated, hp, hfresh], .inr ⟨fresh, hexact, hfront, ?_, rfl⟩⟩
      rw [hitems, slice_of_none hp]
      rfl
    | some slice =>
      obtain ⟨merged, added, hmerge, hexact', hfront', hitems', -⟩ :=
        merge_spec (hs.exact plugin slice hp) (hs.prefixes plugin slice hp) items
      refine ⟨_, by simp [updated, hp, hmerge], .inr ⟨merged, hexact', hfront', ?_, rfl⟩⟩
      rw [hitems', slice_of_get? hp]
      rfl

lemma step_change (hs : Sound catalog) (op : Op) :
    ∃ catalog' answer, step catalog op = some (catalog', answer) ∧
      Change catalog op catalog' answer := by
  cases op with
  | activate plugin instanceId =>
    rw [step, activateInstance]
    cases hinst : catalog.instances.get? plugin with
    | none => exact ⟨_, _, rfl, .activated (by simp [hinst])⟩
    | some state =>
      by_cases hlow : instanceId < state.highWater
      · simp only [hlow]
        exact ⟨_, _, rfl, .refused⟩
      simp only [hlow]
      refine ⟨_, _, rfl, .activated fun state' hstate => ?_⟩
      rw [hinst, some.injEq] at hstate
      exact hstate ▸ Nat.le_of_not_lt hlow
  | retire plugin instanceId =>
    rw [step, retireInstance]
    split
    · exact ⟨_, _, rfl, .retired⟩
    · exact ⟨_, _, rfl, .refused⟩
  | invalidate plugin =>
    cases hp : catalog.plugins.get? plugin with
    | none =>
      exact ⟨catalog, .ok (), by simp [step, invalidate, hp], .absent⟩
    | some slice =>
      have hle : slice.items.length ≤ catalog.itemCount := by
        rw [hs.count]
        exact le_sum (fun slice : PluginCatalog => slice.items.length) hp
      have hcount :
          catalog.itemCount = catalog.itemCount - slice.items.length + slice.items.length := by
        omega
      exact ⟨_, .ok (), by simp [step, invalidate, hp, checkedSub_of_le hle],
        .invalidated hp hcount⟩
  | apply plugin instanceId update items =>
    rw [step, apply]
    cases hactive : catalog.isActive plugin instanceId with
    | false => exact ⟨_, _, rfl, .refused⟩
    | true =>
      cases hresult : catalog.planUpdate plugin update items with
      | error e => exact ⟨_, _, rfl, .refused⟩
      | ok plan =>
        have hplan := planUpdate_ok hresult
        by_cases hnothing : (update = .merge && plan.uniqueBatchItems = 0) = true
        · simp only [hnothing]
          refine ⟨_, _, rfl, ?_⟩
          simp only [and_eq_true, decide_eq_true_iff] at hnothing
          obtain ⟨rfl, hzero⟩ := hnothing
          refine .untouched hactive hplan ?_
          rw [hs.reference_eq, eq_nil_of_unique hplan hzero]
          rfl
        · obtain ⟨plugins, hupdated, hplugins⟩ := updated_spec hs hplan hnothing
          simp only [hnothing, hupdated]
          exact ⟨_, _, rfl, .published hactive hplan hplugins⟩

variable {plugins : Table PluginId PluginCatalog} {after : List Item}

lemma slice_replaced (h : Replaced catalog plugin after plugins) (count : Nat) (other : PluginId) :
    ({ catalog with plugins, itemCount := count } : MemoryCatalog).slice other =
      if other = plugin then after else catalog.slice other := by
  simp only [slice]
  rcases h with ⟨rfl, rfl⟩ | ⟨slice, -, -, rfl, rfl⟩
  · rw [get?_erase]
    split <;> rfl
  · rw [get?_insert]
    split <;> rfl

lemma sum_replaced (h : Replaced catalog plugin after plugins) :
    plugins.sum (·.items.length) + (catalog.slice plugin).length =
      catalog.plugins.sum (·.items.length) + after.length := by
  rw [← length_slice]
  rcases h with ⟨rfl, rfl⟩ | ⟨slice, -, -, rfl, rfl⟩
  · exact sum_erase_add _ _ _
  · exact sum_insert_add _ _ _ _

lemma Sound.replaced (hs : Sound catalog) {count : Nat} (h : Replaced catalog plugin after plugins)
    (hcount : count + (catalog.slice plugin).length = catalog.itemCount + after.length)
    (hlen : after.length ≤ catalog.limits.maxPluginItems)
    (htotal : count ≤ catalog.limits.maxTotalItems)
    (hitems : ∀ item ∈ after, item.pluginId = plugin ∧ Fits catalog.limits.maxItemBytes item) :
    Sound { catalog with plugins, itemCount := count } := by
  have hslices : ∀ other slice, plugins.get? other = some slice →
      Exact slice ∧ PrefixExact [] slice := by
    intro other slice hget
    rcases h with ⟨rfl, rfl⟩ | ⟨new, hexact, hfront, rfl, rfl⟩
    · rw [get?_erase] at hget
      split at hget
      · cases hget
      · exact ⟨hs.exact other slice hget, hs.prefixes other slice hget⟩
    · rw [get?_insert] at hget
      split at hget
      · exact some.inj hget ▸ ⟨hexact, hfront⟩
      · exact ⟨hs.exact other slice hget, hs.prefixes other slice hget⟩
  refine ⟨fun other slice hget => (hslices other slice hget).1,
    fun other slice hget => (hslices other slice hget).2, ?_, ?_, htotal, ?_⟩
  · have hsum := sum_replaced h
    have hold := hs.count
    show count = plugins.sum _
    omega
  · intro other
    rw [slice_replaced h]
    split
    · exact hlen
    · exact hs.pluginItems other
  · intro other item hitem
    rw [slice_replaced h] at hitem
    split at hitem
    · rename_i hother
      exact hother ▸ hitems item hitem
    · exact hs.items other item hitem

variable {answer : Except CatalogError Unit}

lemma Sound.change {op : Op} {catalog' : MemoryCatalog} (hs : Sound catalog)
    (h : Change catalog op catalog' answer) : Sound catalog' := by
  cases h with
  | refused => exact hs
  | activated _ | retired => exact { hs with }
  | absent | untouched _ _ _ => exact hs
  | @invalidated plugin slice count hslice hcount =>
    have hlen := congrArg List.length (slice_of_get? hslice)
    have htotal := hs.totalItems
    refine hs.replaced (.inl ⟨rfl, rfl⟩) ?_ (Nat.zero_le _) ?_ (by simp)
    · rw [List.length_nil]
      omega
    · omega
  | @published plugin instanceId update items plan plugins _ hplan hplugins =>
    have hlen := hs.length_reference plugin update items
    refine hs.replaced hplugins ?_ (hlen ▸ hplan.pluginItems) hplan.totalItems ?_
    · rw [hplan.total, hlen]
    · intro item hitem
      cases hs.mem_reference hitem with
      | inl hold => exact hs.items plugin item hold
      | inr hnew =>
        obtain ⟨bytes, hbytes, -⟩ := hplan.batchBytes
        exact ⟨hplan.owned item hnew, batchBytes_fits hbytes item hnew⟩

lemma sound_withLimits (limits : CatalogLimits) : Sound (.withLimits limits) where
  exact := by
    intro plugin slice h
    cases h
  prefixes := by
    intro plugin slice h
    cases h
  count := rfl
  pluginItems := fun _ => Nat.zero_le _
  totalItems := Nat.zero_le _
  items := by
    intro plugin item h
    cases h

lemma change_of_step (hs : Sound catalog) {op : Op} {catalog' : MemoryCatalog}
    (h : step catalog op = some (catalog', answer)) : Change catalog op catalog' answer := by
  obtain ⟨c, a, hstep, hchange⟩ := step_change hs op
  rw [h, some.injEq] at hstep
  obtain ⟨rfl, rfl⟩ := hstep
  exact hchange

end

/-- The instances of a plugin that were activated. -/
def activations (plugin : PluginId) (tr : List (Op × Except CatalogError Unit)) : List Nat :=
  tr.filterMap fun
    | (.activate owner instanceId, .ok ()) => if owner = plugin then some instanceId else none
    | _ => none

/-- The highest instance of a plugin that was activated. -/
def Highest (plugin : PluginId) (tr : List (Op × Except CatalogError Unit)) (instanceId : Nat) :
    Prop :=
  instanceId ∈ activations plugin tr ∧ ∀ other ∈ activations plugin tr, other ≤ instanceId

/-- The high-water marks are the highest activations. -/
structure Marked (tr : List (Op × Except CatalogError Unit)) (catalog : MemoryCatalog) : Prop where
  bounded : ∀ plugin, ∀ instanceId ∈ activations plugin tr,
    ∃ state, catalog.instances.get? plugin = some state ∧ instanceId ≤ state.highWater
  reached : ∀ plugin state, catalog.instances.get? plugin = some state →
    state.highWater ∈ activations plugin tr

section
variable {tr : List (Op × Except CatalogError Unit)} {catalog : MemoryCatalog}
variable {plugin : PluginId} {instanceId : Nat}

lemma Marked.highest (h : Marked tr catalog) (hactive : catalog.isActive plugin instanceId) :
    Highest plugin tr instanceId := by
  rw [isActive, any_eq_true] at hactive
  obtain ⟨state, hstate, hid⟩ := hactive
  simp only [and_eq_true, beq_iff_eq] at hid
  refine ⟨hid.2 ▸ h.reached plugin state hstate, ?_⟩
  intro other hother
  obtain ⟨state', hstate', hle⟩ := h.bounded plugin other hother
  rw [hstate, some.injEq] at hstate'
  rwa [← hid.2, hstate']

variable {catalog' : MemoryCatalog}

lemma Marked.keep (h : Marked tr catalog) {event : Op × Except CatalogError Unit}
    (hevent : ∀ plugin, activations plugin [event] = [])
    (hsame : ∀ plugin, (catalog'.instances.get? plugin).map PluginInstance.highWater =
      (catalog.instances.get? plugin).map PluginInstance.highWater) :
    Marked (tr ++ [event]) catalog' := by
  have hnone (plugin : PluginId) : activations plugin (tr ++ [event]) = activations plugin tr := by
    rw [activations, List.filterMap_append]
    exact (congrArg _ (hevent plugin)).trans (List.append_nil _)
  constructor
  · intro plugin instanceId hmem
    rw [hnone] at hmem
    obtain ⟨state, hstate, hle⟩ := h.bounded plugin instanceId hmem
    have hmap := hsame plugin
    rw [hstate, map_some, map_eq_some_iff] at hmap
    obtain ⟨state', hstate', he⟩ := hmap
    exact ⟨state', hstate', he ▸ hle⟩
  · intro plugin state' hstate'
    have hmap := hsame plugin
    rw [hstate', map_some, eq_comm, map_eq_some_iff] at hmap
    obtain ⟨state, hstate, he⟩ := hmap
    rw [hnone, ← he]
    exact h.reached plugin state hstate

lemma Marked.activated (h : Marked tr catalog)
    (hhigh : ∀ state, catalog.instances.get? plugin = some state → state.highWater ≤ instanceId) :
    Marked (tr ++ [(.activate plugin instanceId, .ok ())])
      { catalog with instances := catalog.instances.insert plugin ⟨instanceId, true⟩ } := by
  have hconcat (other : PluginId) :
      activations other (tr ++ [(.activate plugin instanceId, .ok ())]) =
        activations other tr ++ if plugin = other then [instanceId] else [] := by
    rw [activations, List.filterMap_append]
    congr 1
    by_cases ho : plugin = other
    · simp [ho]
    · simp [ho]
  constructor
  · intro other id hmem
    rw [hconcat, List.mem_append] at hmem
    rw [get?_insert]
    by_cases ho : other = plugin
    · subst ho
      refine ⟨_, if_pos rfl, ?_⟩
      rcases hmem with hold | hnew
      · obtain ⟨state, hstate, hle⟩ := h.bounded other id hold
        exact hle.trans (hhigh state hstate)
      · rw [if_pos rfl, List.mem_singleton] at hnew
        exact hnew.le
    · rw [if_neg ho]
      rw [if_neg (Ne.symm ho)] at hmem
      exact h.bounded other id (by simpa using hmem)
  · intro other state hstate
    rw [get?_insert] at hstate
    rw [hconcat, List.mem_append]
    by_cases ho : other = plugin
    · rw [if_pos ho, some.injEq] at hstate
      rw [if_pos ho.symm, ← hstate]
      exact .inr List.mem_cons_self
    · rw [if_neg ho] at hstate
      exact .inl (h.reached other state hstate)

variable [Unicode]
variable {op : Op} {answer : Except CatalogError Unit}

lemma Marked.change (hm : Marked tr catalog) (h : Change catalog op catalog' answer) :
    Marked (tr ++ [(op, answer)]) catalog' := by
  cases h with
  | refused => exact hm.keep (fun _ => by cases op <;> rfl) fun _ => rfl
  | activated hhigh => exact hm.activated hhigh
  | @retired plugin instanceId =>
    refine hm.keep (fun _ => rfl) fun other => ?_
    show ((catalog.instances.modify plugin _).get? other).map _ = _
    rw [get?_modify]
    split
    · rw [map_map]
      rfl
    · rfl
  | absent => exact hm.keep (fun _ => rfl) fun _ => rfl
  | invalidated _ _ => exact hm.keep (fun _ => rfl) fun _ => rfl
  | published _ _ _ => exact hm.keep (fun _ => rfl) fun _ => rfl
  | untouched _ _ _ => exact hm.keep (fun _ => rfl) fun _ => rfl

lemma Change.limits_eq (h : Change catalog op catalog' answer) :
    catalog'.limits = catalog.limits := by
  cases h <;> rfl

lemma reachable (limits : CatalogLimits) (h : Exec step (.withLimits limits) tr catalog) :
    Sound catalog ∧ Marked tr catalog ∧ catalog.limits = limits := by
  refine Exec.invariant (fun tr catalog => Sound catalog ∧ Marked tr catalog ∧
    catalog.limits = limits) ⟨sound_withLimits limits, ⟨?_, ?_⟩, rfl⟩ ?_ h
  · intro plugin instanceId hmem
    cases hmem
  · intro plugin state hstate
    cases hstate
  · intro tr catalog op catalog' answer _ hI hstep
    obtain ⟨hs, hm, hl⟩ := hI
    have hchange := change_of_step hs hstep
    exact ⟨hs.change hchange, hm.change hchange, hchange.limits_eq.trans hl⟩

lemma Change.slice_ne (h : Change catalog op catalog' answer)
    (hne : catalog'.slice plugin ≠ catalog.slice plugin) :
    op = .invalidate plugin ∨ ∃ instanceId update items,
      op = .apply plugin instanceId update items ∧ catalog.isActive plugin instanceId := by
  cases h with
  | refused | activated _ | retired | absent | untouched _ _ _ => exact absurd rfl hne
  | @invalidated owner slice count hslice _ =>
    rw [slice_replaced (.inl ⟨rfl, rfl⟩)] at hne
    by_cases ho : plugin = owner
    · exact .inl (ho ▸ rfl)
    · exact absurd (if_neg ho) hne
  | @published owner instanceId update items plan plugins hactive _ hplugins =>
    rw [slice_replaced hplugins] at hne
    by_cases ho : plugin = owner
    · subst ho
      exact .inr ⟨instanceId, update, items, rfl, hactive⟩
    · exact absurd (if_neg ho) hne

lemma Change.accepted {update : CatalogUpdate} {items : List Item}
    (h : Change catalog (.apply plugin instanceId update items) catalog' (.ok ())) :
    catalog'.slice plugin = reference update (catalog.slice plugin) items ∧
      items.length ≤ catalog.limits.maxBatchItems ∧
      ∃ bytes, batchBytes catalog.limits 0 items = .ok bytes ∧
        bytes ≤ catalog.limits.maxBatchBytes := by
  cases h with
  | published _ hplan hplugins =>
    rw [slice_replaced hplugins, if_pos rfl]
    exact ⟨rfl, hplan.batchItems, hplan.batchBytes⟩
  | untouched _ hplan hnone => exact ⟨hnone.symm, hplan.batchItems, hplan.batchBytes⟩

/-- Catalog updates over any sequence of calls: no call panics, a refused call changes
nothing, an accepted update leaves the reference list, every limit holds, and apart from
`invalidate` only the highest activated instance changes a slice. -/
theorem updates_refine_reference (limits : CatalogLimits)
    (h : Exec step (.withLimits limits) tr catalog) :
    (catalog.itemCount = catalog.plugins.sum (·.items.length) ∧
      catalog.itemCount ≤ limits.maxTotalItems ∧
      ∀ plugin, (catalog.slice plugin).length ≤ limits.maxPluginItems ∧
        ∀ item ∈ catalog.slice plugin, Fits limits.maxItemBytes item) ∧
    ∀ op, ∃ catalog' answer, step catalog op = some (catalog', answer) ∧
      (∀ e, answer = .error e → catalog' = catalog) ∧
      (∀ plugin instanceId update items, op = .apply plugin instanceId update items →
        answer = .ok () →
        catalog'.slice plugin = reference update (catalog.slice plugin) items ∧
          items.length ≤ limits.maxBatchItems ∧
          ∃ bytes, batchBytes limits 0 items = .ok bytes ∧ bytes ≤ limits.maxBatchBytes) ∧
      ∀ plugin, catalog'.slice plugin ≠ catalog.slice plugin →
        op = .invalidate plugin ∨ ∃ instanceId update items,
          op = .apply plugin instanceId update items ∧ Highest plugin tr instanceId := by
  obtain ⟨hs, hm, rfl⟩ := reachable limits h
  refine ⟨⟨hs.count, hs.totalItems, fun plugin =>
    ⟨hs.pluginItems plugin, fun item hitem => (hs.items plugin item hitem).2⟩⟩, ?_⟩
  intro op
  obtain ⟨catalog', answer, hstep, hchange⟩ := step_change hs op
  refine ⟨catalog', answer, hstep, ?_, ?_, ?_⟩
  · intro e he
    subst he
    cases hchange
    rfl
  · intro plugin instanceId update items hop hok
    subst hop hok
    exact hchange.accepted
  · intro plugin hne
    cases hchange.slice_ne hne with
    | inl hop => exact .inl hop
    | inr hop =>
      obtain ⟨instanceId, update, items, rfl, hactive⟩ := hop
      exact .inr ⟨instanceId, update, items, rfl, hm.highest hactive⟩

end

def note : Item where
  stableId := ⟨"n"⟩
  pluginId := ⟨"p"⟩
  category := .pluginDefined "notes"
  label := "ab"
  description := ""
  target := "t"
  searchTerms := []
  iconReference := none
  argumentPolicy := .forbidden
  hitPolicy := .ignored
  scoreHint := 0
  metadata := []
  actions := []

def publishNote : List Op := [.activate ⟨"p"⟩ 1, .apply ⟨"p"⟩ 1 .merge [note]]

lemma publishNote_exec : ∃ tr catalog,
    Exec (@step Unicode.ascii) (.withLimits .default) tr catalog ∧
    tr.map Prod.fst = publishNote ∧ catalog.slice ⟨"p"⟩ = [note] ∧
      (catalog.invalidate ⟨"p"⟩).any fun catalog => catalog.slice ⟨"p"⟩ = [] :=
  exec_of_eval (by decide +kernel)

/-- The published note is within the limits, and the catalog answers every further call. -/
theorem updates_refine_reference_note :
    ∃ catalog tr, Exec (@step Unicode.ascii) (.withLimits .default) tr catalog ∧
      catalog.slice ⟨"p"⟩ = [note] ∧ Fits CatalogLimits.default.maxItemBytes note := by
  obtain ⟨tr, catalog, hexec, -, hslice, -⟩ := publishNote_exec
  have hlimits := (@updates_refine_reference _ _ Unicode.ascii _ hexec).1.2.2 ⟨"p"⟩
  exact ⟨catalog, tr, hexec, hslice, hlimits.2 note (hslice ▸ List.mem_cons_self)⟩

/-- The host's `invalidate` names no instance and still changes the slice. -/
theorem invalidate_changes_slice :
    ∃ catalog tr catalog', Exec (@step Unicode.ascii) (.withLimits .default) tr catalog ∧
      @step Unicode.ascii catalog (.invalidate ⟨"p"⟩) = some (catalog', .ok ()) ∧
      catalog'.slice ⟨"p"⟩ ≠ catalog.slice ⟨"p"⟩ := by
  obtain ⟨tr, catalog, hexec, -, hbefore, hslice⟩ := publishNote_exec
  obtain ⟨catalog', hinvalidate, hafter⟩ := (any_eq_true _ _).mp hslice
  refine ⟨catalog, tr, catalog', hexec, by simp [step, hinvalidate], ?_⟩
  rw [hbefore, of_decide_eq_true hafter]
  exact (List.cons_ne_nil _ _).symm

end CriKey.Catalog
