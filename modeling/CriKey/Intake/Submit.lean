import CriKey.Intake.State

/-! Admission of one batch: lazy reclamation of obsolete work, the watermark, the two hard
bounds and the overflow policy of the producer. -/
namespace CriKey.Intake
open CriKey.Base CriKey.Core CriKey.Aggregator

/-- A run of obsolete batches of one plugin and generation. -/
structure DropRecord where
  plugin : PluginId
  generation : Generation
  batches : Nat
  items : Nat
deriving DecidableEq, Repr

/-- One more dropped batch: it joins the last record or starts its own. -/
def noteDrop (records : List DropRecord) (plugin : PluginId) (generation : Generation)
    (items : Nat) : List DropRecord :=
  match records.getLast? with
  | some last =>
    if last.plugin = plugin ∧ last.generation = generation then
      records.dropLast ++ [{ last with batches := last.batches + 1, items := last.items + items }]
    else records ++ [⟨plugin, generation, 1, items⟩]
  | none => [⟨plugin, generation, 1, items⟩]

/-- What a reclamation carries from entry to entry. -/
structure Reclamation where
  queue : InboundResultQueue
  records : List DropRecord
  dropped : Nat

namespace InboundResultQueue
variable (s : InboundResultQueue)

def frontObsolete (plugin : PluginId) : Bool :=
  (s.plugins.get? plugin).any fun queue => queue.entries.head?.any (obsolete s.active)

/-- The inner loop of a reclamation; `fuel` bounds the entries of the plugin. -/
def reclaimLoop (plugin : PluginId) : Nat → Reclamation → Option Reclamation
  | 0, r => if r.queue.frontObsolete plugin then none else some r
  | fuel + 1, r =>
    if r.queue.frontObsolete plugin then
      match r.queue.popEntry plugin with
      | none => none
      | some (queue, entry) =>
        reclaimLoop plugin fuel
          ⟨queue, noteDrop r.records plugin entry.generation entry.itemCount, r.dropped + 1⟩
    else some r

def depthOf (plugin : PluginId) : Nat :=
  (s.plugins.get? plugin).elim 0 fun queue => queue.entries.length

def reclaimPlugins (plugins : List PluginId) (r : Reclamation) : Option Reclamation :=
  plugins.foldlM (fun r plugin => reclaimLoop plugin (r.queue.depthOf plugin) r) r

def reclaimObsolete (atMs : Nat) : Option (InboundResultQueue × Nat) :=
  match reclaimPlugins s.plugins.keys ⟨s, [], 0⟩ with
  | none => none
  | some r =>
    let s := r.queue.count .droppedObsolete r.dropped
    let s := r.records.foldl (fun s record =>
      s.pushEvent ⟨atMs, record.plugin, record.generation,
        .droppedObsolete record.batches record.items⟩) s
    some (s, r.dropped)

/-- Whether one more batch breaks the plugin's bounds and the shared ones. -/
def violations (queue : PluginQueue) (itemCount : Nat) : Bool × Bool :=
  (exceeds queue.entries.length 1 queue.policy.capacityBatches ||
      exceeds queue.items itemCount queue.policy.capacityItems,
    exceeds s.totalBatches 1 s.limits.capacityBatches ||
      exceeds s.totalItems itemCount s.limits.capacityItems)

def capacityViolations (plugin : PluginId) (itemCount : Nat) : Option (Bool × Bool) :=
  (s.plugins.get? plugin).map fun queue => s.violations queue itemCount

def replacementPreflight (queue : PluginQueue) (itemCount : Nat) :
    Option (Except QueueReject Unit) :=
  if exceeds 0 1 queue.policy.capacityBatches ||
      exceeds 0 itemCount queue.policy.capacityItems then some (.error .queueFull)
  else
    match checkedSub s.totalBatches queue.entries.length, checkedSub s.totalItems queue.items with
    | some otherBatches, some otherItems =>
      if exceeds otherBatches 1 s.limits.capacityBatches ||
          exceeds otherItems itemCount s.limits.capacityItems then some (.error .boundaryFull)
      else some (.ok ())
    | _, _ => none

def evictOldest (atMs : Nat) (plugin : PluginId) : Option InboundResultQueue :=
  match s.popEntry plugin with
  | none => none
  | some (s, entry) =>
    some ((s.count .evictedOldest 1).pushEvent
      ⟨atMs, plugin, entry.generation, .evictedOldest entry.itemCount⟩)

/-- The eviction loop. Each turn takes an entry, so the depth of the plugin is fuel enough
unless the loop runs dry, which is an `expect` of the source. -/
def evictLoop (atMs : Nat) (plugin : PluginId) (itemCount : Nat) :
    Nat → InboundResultQueue → Option InboundResultQueue
  | fuel, s =>
    match s.capacityViolations plugin itemCount with
    | none => none
    | some (pluginFull, allFull) =>
      if pluginFull || allFull then
        match fuel with
        | 0 => none
        | fuel + 1 =>
          match s.evictOldest atMs plugin with
          | none => none
          | some s => evictLoop atMs plugin itemCount fuel s
      else some s

/-- The batch joins its queue; `none` is an overflow of a count. -/
def arrive (atMs : Nat) (inbound : InboundBatch) : Option InboundResultQueue :=
  let plugin := inbound.batch.plugin
  let generation := inbound.batch.generation
  let itemCount := inbound.batch.items.length
  match s.plugins.get? plugin with
  | none => none
  | some queue =>
    match checkedAdd queue.items itemCount, checkedAdd s.totalBatches 1,
        checkedAdd s.totalItems itemCount with
    | some items, some batches, some total =>
      let s := s.modifyQueue plugin fun queue =>
        { queue with
          items := items
          terminalGeneration :=
            if inbound.batch.state.isTerminal then some generation else queue.terminalGeneration
          entries := queue.entries ++ [⟨atMs, inbound⟩] }
      let s := { s with totalBatches := batches, totalItems := total }
      let s := s.count .admitted 1
      let s :=
        { s with
          diagnostics :=
            { s.diagnostics with
              peakBatches := max s.diagnostics.peakBatches s.totalBatches
              peakItems := max s.diagnostics.peakItems s.totalItems } }
      some (s.pushEvent ⟨atMs, plugin, generation, .admitted itemCount⟩)
    | _, _, _ => none

def enqueue (atMs : Nat) (inbound : InboundBatch) :
    Option (InboundResultQueue × Except QueueReject ProducerState) :=
  let plugin := inbound.batch.plugin
  match s.arrive atMs inbound with
  | none => none
  | some s =>
    match s.reconcileProducer atMs plugin inbound.batch.generation with
    | none => none
    | some s =>
      match s.plugins.get? plugin with
      | none => none
      | some queue => some (s, .ok queue.state)

end InboundResultQueue

/-- A low-priority batch of a producer that sheds, at its watermark. -/
def PluginQueue.lowAtWatermark (queue : PluginQueue) (inbound : InboundBatch) : Bool :=
  queue.policy.overflow == .rejectLowPriority && inbound.priority == .low &&
    decide (queue.policy.pauseAtBatches ≤ queue.entries.length)

namespace InboundResultQueue
variable (s : InboundResultQueue) (atMs : Nat) (inbound : InboundBatch)

def rejectWith (reason : QueueReject) : InboundResultQueue × Except QueueReject ProducerState :=
  (s.reject atMs inbound.batch.plugin inbound.batch.generation reason, .error reason)

def fullReason (perPluginFull : Bool) : QueueReject :=
  if perPluginFull then .queueFull else .boundaryFull

/-- A batch that breaks a bound, by the overflow policy of its producer. -/
def overflow (queue : PluginQueue)
    (perPluginFull : Bool) : Option (InboundResultQueue × Except QueueReject ProducerState) :=
  let plugin := inbound.batch.plugin
  let generation := inbound.batch.generation
  let itemCount := inbound.batch.items.length
  match queue.policy.overflow with
  | .replaceOldest =>
    match s.replacementPreflight queue itemCount with
    | none => none
    | some (.error reason) => some (s.rejectWith atMs inbound reason)
    | some (.ok ()) =>
      match evictLoop atMs plugin itemCount queue.entries.length s with
      | none => none
      | some s => s.enqueue atMs inbound
  | .disconnect =>
    let s := s.modifyQueue plugin fun queue => { queue with state := .disconnected }
    some (s.rejectWith atMs inbound .disconnected)
  | .pauseProducer =>
    let (s, result) := s.rejectWith atMs inbound (fullReason perPluginFull)
    match s.forcePause atMs plugin generation with
    | none => none
    | some s => some (s, result)
  | .rejectLowPriority => some (s.rejectWith atMs inbound (fullReason perPluginFull))

/-- The decision once obsolete work is out of the way. -/
def decideAdmission : Option (InboundResultQueue × Except QueueReject ProducerState) :=
  match s.plugins.get? inbound.batch.plugin with
  | none => none
  | some queue =>
    if queue.lowAtWatermark inbound then some (s.rejectWith atMs inbound .lowPriorityShed)
    else
      let full := s.violations queue inbound.batch.items.length
      if full.1 || full.2 then s.overflow atMs inbound queue full.1
      else s.enqueue atMs inbound

def admissionNeedsReclamation (queue : PluginQueue) (inbound : InboundBatch) : Bool :=
  let full := s.violations queue inbound.batch.items.length
  queue.lowAtWatermark inbound || full.1 || full.2

def submit : Option (InboundResultQueue × Except QueueReject ProducerState) :=
  match s.plugins.get? inbound.batch.plugin with
  | none => some (s.rejectWith atMs inbound .unregistered)
  | some queue =>
    if s.active ≠ some inbound.batch.generation then
      some (s.rejectWith atMs inbound .staleGeneration)
    else if queue.state = .disconnected then some (s.rejectWith atMs inbound .disconnected)
    else if queue.terminalGeneration = some inbound.batch.generation then
      some (s.rejectWith atMs inbound .streamTerminated)
    else if s.admissionNeedsReclamation queue inbound then
      match s.reclaimObsolete atMs with
      | none => none
      | some (s, _) => s.decideAdmission atMs inbound
    else s.decideAdmission atMs inbound

end InboundResultQueue
end CriKey.Intake
