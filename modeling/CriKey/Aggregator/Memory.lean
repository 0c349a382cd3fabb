import CriKey.Base.Machine
import CriKey.Base.Table
import CriKey.Core.Generation
import CriKey.Core.Item

/-! The result aggregator: batches of the one generation on screen are merged into a
retained list with a slot index, per-plugin counts and a coalesced repaint flag. -/
namespace CriKey.Aggregator
open CriKey.Base CriKey.Core

inductive BatchState where
  | partial_ | final | cancelled | failed
deriving DecidableEq, Repr

def BatchState.isTerminal : BatchState → Bool
  | .partial_ => false
  | _ => true

/-- One inbound contribution to a query generation. -/
structure ResultBatch where
  generation : Generation
  plugin : PluginId
  state : BatchState
  items : List Item
deriving DecidableEq, Repr

inductive RejectReason where
  | staleGeneration | quotaExceeded | payloadTooLarge | ownerMismatch | streamTerminated
  | pluginSuspended
deriving DecidableEq, Repr

structure ResultLimits where
  maxItemsPerBatch : Nat
  maxItemsPerPluginPerQuery : Nat
  maxItemsPerQuery : Nat
  maxIconReferenceBytesPerBatch : Nat
  maxMetadataBytesPerBatch : Nat
  maxUiUpdatesPerFrame : Nat

def ResultLimits.default : ResultLimits where
  maxItemsPerBatch := 50
  maxItemsPerPluginPerQuery := 250
  maxItemsPerQuery := 2000
  maxIconReferenceBytesPerBatch := 256 * 1024
  maxMetadataBytesPerBatch := 1024 * 1024
  maxUiUpdatesPerFrame := 1

class ResultAggregator (α : Type) where
  /-- Merges a batch, or reports why it was discarded. -/
  accept : α → ResultBatch → α × Except RejectReason Unit
  retireBefore : α → Generation → α

structure PluginResultLimits where
  maxItemsPerBatch : Nat
  maxItemsPerQuery : Nat

structure MemoryResultAggregator where
  limits : ResultLimits
  retirementFloor : Generation
  active : Option Generation
  perPlugin : Table PluginId Nat
  index : Table PluginId (Table ItemId Nat)
  pluginLimits : Table PluginId PluginResultLimits
  items : List Item
  batchStates : Table PluginId BatchState
  pendingUiUpdate : Bool
  uiUpdatesRemaining : Nat

/-- Byte totals of a payload, checked against overflow and against the limit. -/
def addBytes (total : Nat) (amounts : List Nat) (limit : Nat) : Except RejectReason Nat :=
  match amounts.foldlM checkedAdd total with
  | none => .error .payloadTooLarge
  | some bytes => if limit < bytes then .error .payloadTooLarge else .ok bytes

/-- The icon-reference and metadata totals after one more item. -/
def addPayload (limits : ResultLimits) (totals : Nat × Nat) (item : Item) :
    Except RejectReason (Nat × Nat) := do
  let icon ← addBytes totals.1 [item.iconReference.elim 0 String.utf8ByteSize]
    limits.maxIconReferenceBytesPerBatch
  let metadata ← item.metadata.foldlM
    (fun bytes entry => addBytes bytes [entry.1.utf8ByteSize, entry.2.utf8ByteSize]
      limits.maxMetadataBytesPerBatch) totals.2
  return (icon, metadata)

/-- Identities that are neither retained nor repeated within the batch. -/
def countFresh (retained : ItemId → Bool) : List ItemId → List Item → Nat
  | _, [] => 0
  | seen, item :: items =>
    (if item.stableId ∉ seen && !retained item.stableId then 1 else 0) +
      countFresh retained (item.stableId :: seen) items

/-- The loop of `merge`: one plugin's index and the retained items. -/
def mergeItems : Table ItemId Nat → List Item → List Item → Table ItemId Nat × List Item
  | index, items, [] => (index, items)
  | index, items, item :: rest =>
    match index.get? item.stableId with
    | some slot => mergeItems index (items.set slot item) rest
    | none => mergeItems (index.insert item.stableId items.length) (items ++ [item]) rest

namespace MemoryResultAggregator

def new (limits : ResultLimits) : MemoryResultAggregator where
  limits := limits
  retirementFloor := .zero
  active := none
  perPlugin := .empty
  index := .empty
  pluginLimits := .empty
  items := []
  batchStates := .empty
  pendingUiUpdate := false
  uiUpdatesRemaining := limits.maxUiUpdatesPerFrame

variable (a : MemoryResultAggregator) (plugin : PluginId)

def setPluginLimits (maxItemsPerQuery maxItemsPerBatch : Nat) : MemoryResultAggregator :=
  { a with
    pluginLimits := a.pluginLimits.insert plugin ⟨max maxItemsPerBatch 1, max maxItemsPerQuery 1⟩ }

def removePluginLimits : MemoryResultAggregator :=
  { a with pluginLimits := a.pluginLimits.erase plugin }

/-- Drops all state belonging to the active generation. -/
def reset : MemoryResultAggregator :=
  { a with items := [], index := .empty, perPlugin := .empty, batchStates := .empty }

def beginGeneration (generation : Generation) : MemoryResultAggregator :=
  if generation < a.retirementFloor then a
  else if a.active.any fun active => generation ≤ active then a
  else { { a with active := some generation }.reset with pendingUiUpdate := true }

def beginFrame : MemoryResultAggregator :=
  { a with uiUpdatesRemaining := a.limits.maxUiUpdatesPerFrame }

def takeUiUpdate : MemoryResultAggregator × Option (List Item) :=
  if !a.pendingUiUpdate || a.uiUpdatesRemaining = 0 then (a, none)
  else
    ({ a with uiUpdatesRemaining := a.uiUpdatesRemaining - 1, pendingUiUpdate := false },
      some a.items)

def validatePayloads (items : List Item) : Except RejectReason Unit :=
  if items.any fun item => item.pluginId ≠ plugin then .error .ownerMismatch
  else (items.foldlM (addPayload a.limits) (0, 0)).map fun _ => ()

def countNewIdentities (items : List Item) : Nat :=
  countFresh (fun id => (a.index.get? plugin).any (·.contains id)) [] items

def merge (items : List Item) : MemoryResultAggregator :=
  let merged := mergeItems ((a.index.get? plugin).getD .empty) a.items items
  { a with index := a.index.insert plugin merged.1, items := merged.2 }

def maxItemsPerBatch : Nat :=
  (a.pluginLimits.get? plugin).elim a.limits.maxItemsPerBatch (·.maxItemsPerBatch)

def maxItemsPerQuery : Nat :=
  (a.pluginLimits.get? plugin).elim a.limits.maxItemsPerPluginPerQuery (·.maxItemsPerQuery)

/-- The checks of `accept`, in order; the number of new identities and the plugin's total
when all pass. -/
def checkBatch (batch : ResultBatch) : Except RejectReason (Nat × Nat) :=
  if a.active ≠ some batch.generation then .error .staleGeneration
  else if (a.batchStates.get? batch.plugin).any (·.isTerminal) then .error .streamTerminated
  else if a.maxItemsPerBatch batch.plugin < batch.items.length then .error .quotaExceeded
  else
    match a.validatePayloads batch.plugin batch.items with
    | .error reason => .error reason
    | .ok () =>
      let newIdentities := a.countNewIdentities batch.plugin batch.items
      match checkedAdd ((a.perPlugin.get? batch.plugin).getD 0) newIdentities,
          checkedAdd a.items.length newIdentities with
      | some pluginTotal, some queryTotal =>
        if a.maxItemsPerQuery batch.plugin < pluginTotal ||
            a.limits.maxItemsPerQuery < queryTotal then .error .quotaExceeded
        else .ok (newIdentities, pluginTotal)
      | _, _ => .error .quotaExceeded

def retain (batch : ResultBatch) (newIdentities pluginTotal : Nat) : MemoryResultAggregator :=
  let a :=
    if batch.items.isEmpty then a
    else
      let a := a.merge batch.plugin batch.items
      let a :=
        if 0 < newIdentities then
          { a with perPlugin := a.perPlugin.insert batch.plugin pluginTotal }
        else a
      { a with pendingUiUpdate := true }
  { a with batchStates := a.batchStates.insert batch.plugin batch.state }

def accept (batch : ResultBatch) : MemoryResultAggregator × Except RejectReason Unit :=
  match a.checkBatch batch with
  | .error reason => (a, .error reason)
  | .ok (newIdentities, pluginTotal) => (a.retain batch newIdentities pluginTotal, .ok ())

def retireBefore (generation : Generation) : MemoryResultAggregator :=
  if generation ≤ a.retirementFloor then a
  else
    let hadItems := !a.items.isEmpty
    let a := { a with retirementFloor := generation }
    match a.active with
    | none => a
    | some active =>
      if generation ≤ active then a
      else
        let a := { a with active := none }.reset
        { a with pendingUiUpdate := a.pendingUiUpdate || hadItems }

instance : ResultAggregator MemoryResultAggregator := ⟨accept, retireBefore⟩

end MemoryResultAggregator

/-- The calls of the host once the limits are set. -/
inductive Op where
  | beginGeneration (generation : Generation)
  | retireBefore (generation : Generation)
  | accept (batch : ResultBatch)
  | beginFrame
  | takeUiUpdate

inductive Output where
  | done
  | accepted (result : Except RejectReason Unit)
  | snapshot (items : Option (List Item))

def step (a : MemoryResultAggregator) : Op → Option (MemoryResultAggregator × Output)
  | .beginGeneration generation => some (a.beginGeneration generation, .done)
  | .retireBefore generation => some (a.retireBefore generation, .done)
  | .accept batch => some ((a.accept batch).1, .accepted (a.accept batch).2)
  | .beginFrame => some (a.beginFrame, .done)
  | .takeUiUpdate => some (a.takeUiUpdate.1, .snapshot a.takeUiUpdate.2)

end CriKey.Aggregator
