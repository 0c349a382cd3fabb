import CriKey.Base.Machine
import CriKey.Base.Word
import CriKey.Catalog.Index

/-! The in-memory catalog: one slice for each plugin, publishable by the plugin's active
instance only, with every limit checked before anything is written. -/
namespace CriKey.Catalog
open CriKey.Base CriKey.Core CriKey.Query

inductive CatalogError where
  | staleInstance
  | ownerMismatch
  | batchItemLimitExceeded (actual limit : Nat)
  | pluginItemLimitExceeded (actual limit : Nat)
  | totalItemLimitExceeded (actual limit : Nat)
  | itemPayloadLimitExceeded (actual limit : Nat)
  | batchPayloadLimitExceeded (actual limit : Nat)
  | payloadSizeOverflow
  | itemCountOverflow
deriving DecidableEq, Repr

structure CatalogLimits where
  maxBatchItems : Nat
  maxPluginItems : Nat
  maxTotalItems : Nat
  maxItemBytes : Nat
  maxBatchBytes : Nat
deriving DecidableEq, Repr

def CatalogLimits.default : CatalogLimits where
  maxBatchItems := 500000
  maxPluginItems := 500000
  maxTotalItems := 500000
  maxItemBytes := 1048576
  maxBatchBytes := 1073741824

inductive CatalogUpdate where
  | replace | merge
deriving DecidableEq, Repr

/-! Payload accounting: a length or a tag in front of every field. -/

def stringPayload (value : String) : List Nat := [8, value.utf8ByteSize]

def categoryPayload : Category → List Nat
  | .pluginDefined name => 1 :: stringPayload name
  | _ => [1]

def optionalStringPayload : Option String → List Nat
  | some value => 1 :: stringPayload value
  | none => [1]

def actionPayload (action : Core.Action) : List Nat :=
  stringPayload action.actionId.name ++ stringPayload action.label ++
    stringPayload action.description ++ [8] ++
    action.applicableCategories.flatMap categoryPayload ++
    optionalStringPayload action.iconReference ++ [1]

/-- The amounts `item_payload_bytes` adds up, in order. -/
def itemPayload (item : Item) : List Nat :=
  stringPayload item.stableId.name ++ stringPayload item.pluginId.name ++
    categoryPayload item.category ++ stringPayload item.label ++ stringPayload item.description ++
    stringPayload item.target ++ [8] ++ item.searchTerms.flatMap stringPayload ++
    optionalStringPayload item.iconReference ++ [1, 1, 4] ++ [8] ++
    item.metadata.flatMap (fun entry => stringPayload entry.1 ++ stringPayload entry.2) ++
    [8] ++ item.actions.flatMap actionPayload

def itemPayloadBytes (item : Item) : Except CatalogError Nat :=
  match (itemPayload item).foldlM checkedAdd 0 with
  | none => .error .payloadSizeOverflow
  | some bytes => .ok bytes

structure PluginInstance where
  highWater : Nat
  active : Bool
deriving DecidableEq, Repr

structure UpdatePlan where
  uniqueBatchItems : Nat
  mergeAdditions : Nat
  projectedTotalItems : Nat
deriving DecidableEq, Repr

structure MemoryCatalog where
  instances : Table PluginId PluginInstance
  plugins : Table PluginId PluginCatalog
  itemCount : Nat
  limits : CatalogLimits

def batchBytes (limits : CatalogLimits) : Nat → List Item → Except CatalogError Nat
  | total, [] => .ok total
  | total, item :: items => do
    let bytes ← itemPayloadBytes item
    if limits.maxItemBytes < bytes then
      throw (.itemPayloadLimitExceeded bytes limits.maxItemBytes)
    match checkedAdd total bytes with
    | none => throw .payloadSizeOverflow
    | some total => batchBytes limits total items

def uniqueIds (items : List Item) : List ItemId := (items.map Item.stableId).dedup

/-- Checked arithmetic on item counts. -/
def countOr (count : Option Nat) : Except CatalogError Nat :=
  match count with
  | none => .error .itemCountOverflow
  | some count => .ok count

namespace MemoryCatalog

def withLimits (limits : CatalogLimits) : MemoryCatalog := ⟨.empty, .empty, 0, limits⟩

variable (catalog : MemoryCatalog) (plugin : PluginId)

def slice : List Item := ((catalog.plugins.get? plugin).map (·.items)).getD []

def planUpdate (update : CatalogUpdate) (items : List Item) :
    Except CatalogError UpdatePlan := do
  if catalog.limits.maxBatchItems < items.length then
    throw (.batchItemLimitExceeded items.length catalog.limits.maxBatchItems)
  if items.any (·.pluginId ≠ plugin) then
    throw .ownerMismatch
  let bytes ← batchBytes catalog.limits 0 items
  if catalog.limits.maxBatchBytes < bytes then
    throw (.batchPayloadLimitExceeded bytes catalog.limits.maxBatchBytes)
  let unique := uniqueIds items
  let existing := catalog.plugins.get? plugin
  let previous := (existing.map (·.items.length)).getD 0
  let (projected, additions) ← match update with
    | .replace => pure (unique.length, 0)
    | .merge => do
      let additions := (unique.filter fun id =>
        !existing.any (·.positions.contains id)).length
      let projected ← countOr (checkedAdd previous additions)
      pure (projected, additions)
  if catalog.limits.maxPluginItems < projected then
    throw (.pluginItemLimitExceeded projected catalog.limits.maxPluginItems)
  let others ← countOr (checkedSub catalog.itemCount previous)
  let total ← countOr (checkedAdd others projected)
  if catalog.limits.maxTotalItems < total then
    throw (.totalItemLimitExceeded total catalog.limits.maxTotalItems)
  return ⟨unique.length, additions, total⟩

def activateInstance (instanceId : Nat) : MemoryCatalog × Except CatalogError Unit :=
  match catalog.instances.get? plugin with
  | some state =>
    if instanceId < state.highWater then (catalog, .error .staleInstance)
    else ({ catalog with instances := catalog.instances.insert plugin ⟨instanceId, true⟩ }, .ok ())
  | none =>
    ({ catalog with instances := catalog.instances.insert plugin ⟨instanceId, true⟩ }, .ok ())

def isActive (instanceId : Nat) : Bool :=
  (catalog.instances.get? plugin).any fun state => state.active && state.highWater == instanceId

def retireInstance (instanceId : Nat) : MemoryCatalog × Except CatalogError Unit :=
  if catalog.isActive plugin instanceId then
    ({ catalog with
      instances := catalog.instances.modify plugin fun state => { state with active := false } },
      .ok ())
  else (catalog, .error .staleInstance)

/-- Removes a slice; the count cannot run below zero unless the process panics. -/
def invalidate : Option MemoryCatalog :=
  match catalog.plugins.get? plugin with
  | none => some catalog
  | some slice => do
    let count ← checkedSub catalog.itemCount slice.items.length
    some { catalog with plugins := catalog.plugins.erase plugin, itemCount := count }

section
variable [Unicode]

/-- The slices after an update that was planned. -/
def updated (plugin : PluginId) (update : CatalogUpdate) (items : List Item) (plan : UpdatePlan) :
    Option (Table PluginId PluginCatalog) :=
  match update with
  | .replace =>
    if plan.uniqueBatchItems = 0 then some (catalog.plugins.erase plugin)
    else do
      let replacement ← PluginCatalog.fromItems items
      some (catalog.plugins.insert plugin replacement)
  | .merge => do
    let merged ← match catalog.plugins.get? plugin with
      | some slice => do
        let (slice, _) ← slice.merge items
        some slice
      | none => PluginCatalog.fromItems items
    some (catalog.plugins.insert plugin merged)

def apply (plugin : PluginId) (instanceId : Nat) (update : CatalogUpdate) (items : List Item) :
    Option (MemoryCatalog × Except CatalogError Unit) :=
  if !catalog.isActive plugin instanceId then some (catalog, .error .staleInstance)
  else match catalog.planUpdate plugin update items with
    | .error e => some (catalog, .error e)
    | .ok plan =>
      if update = .merge && plan.uniqueBatchItems = 0 then some (catalog, .ok ())
      else do
        let plugins ← catalog.updated plugin update items plan
        some ({ catalog with plugins, itemCount := plan.projectedTotalItems }, .ok ())

/-- The visits of `visit_prepared_candidates`; a plugin without a slice offers nothing. -/
def visitPreparedCandidates (plugin : PluginId) (query : NormalizedQuery) :
    Option (List (Nat × Item × ItemIndex)) :=
  match catalog.plugins.get? plugin with
  | none => some []
  | some slice => slice.visitCandidates (wantedMask query) (queryOrderedPairs query)

end

def visitLabelPrefixes (token : Text) : List (Nat × Item × ItemIndex) :=
  match catalog.plugins.get? plugin with
  | none => []
  | some slice => slice.visitPrefix token

/-- Revisits remembered positions; one that is gone is passed over. -/
def visitPreparedPositionsWith (positions : List Nat) (query : NormalizedQuery)
    (policy : MatchPolicy) : List (Nat × Item × ItemIndex) :=
  match catalog.plugins.get? plugin with
  | none => []
  | some slice => positions.filterMap fun position => do
    let item ← slice.items[position]?
    let entry ← slice.index[position]?
    if mayMatchWith entry.prepared query policy then some (position, item, entry) else none

end MemoryCatalog

inductive Op where
  | activate (plugin : PluginId) (instanceId : Nat)
  | retire (plugin : PluginId) (instanceId : Nat)
  | invalidate (plugin : PluginId)
  | apply (plugin : PluginId) (instanceId : Nat) (update : CatalogUpdate) (items : List Item)

/-- One call, with its answer; `invalidate` always succeeds. -/
def step [Unicode] (catalog : MemoryCatalog) :
    Op → Option (MemoryCatalog × Except CatalogError Unit)
  | .activate plugin instanceId => some (catalog.activateInstance plugin instanceId)
  | .retire plugin instanceId => some (catalog.retireInstance plugin instanceId)
  | .invalidate plugin => do
    let catalog ← catalog.invalidate plugin
    some (catalog, .ok ())
  | .apply plugin instanceId update items => catalog.apply plugin instanceId update items

end CriKey.Catalog
