import CriKey.Aggregator.Memory

/-! The intake in front of the aggregator: per-plugin queues of inbound batches, the shared
limits, producer backpressure, diagnostics and the bounded ring of recent events. -/
namespace CriKey.Intake
open CriKey.Base CriKey.Core CriKey.Aggregator

/-- Boundary-wide limits, which are machine words. -/
structure QueueLimits where
  capacityBatches : Nat
  capacityItems : Nat
  capacityBatches_le : capacityBatches ≤ u64Max
  capacityItems_le : capacityItems ≤ u64Max

inductive OverflowPolicy where
  | rejectLowPriority | pauseProducer | replaceOldest | disconnect
deriving DecidableEq, Repr

structure IntakePolicy where
  capacityBatches : Nat
  capacityItems : Nat
  pauseAtBatches : Nat
  resumeAtBatches : Nat
  overflow : OverflowPolicy
deriving DecidableEq, Repr

inductive BatchPriority where
  | high | low
deriving DecidableEq, Repr

structure InboundBatch where
  batch : ResultBatch
  priority : BatchPriority
deriving DecidableEq, Repr

inductive ProducerState where
  | running | paused | disconnected
deriving DecidableEq, Repr

inductive QueueReject where
  | unregistered | staleGeneration | streamTerminated | lowPriorityShed | queueFull
  | boundaryFull | disconnected
deriving DecidableEq, Repr

/-- Resident depth; `obsolete` is included in the other two. -/
structure QueueDepth where
  batches : Nat := 0
  items : Nat := 0
  obsolete : Nat := 0
deriving DecidableEq, Repr

structure DrainBudget where
  batchesPerPlugin : Nat
  itemsPerPlugin : Nat
  totalBatches : Nat

structure MergedBatch where
  plugin : PluginId
  admittedAtMs : Nat
  generation : Generation
  state : BatchState
  items : Nat
deriving DecidableEq, Repr

structure DrainReport where
  merged : Nat := 0
  mergedBatches : List MergedBatch := []
  droppedObsolete : Nat := 0
  mergeRejected : List (PluginId × RejectReason) := []
deriving DecidableEq, Repr

inductive QueueEventKind where
  | admitted (items : Nat)
  | rejected (reason : QueueReject)
  | droppedObsolete (batches items : Nat)
  | evictedOldest (items : Nat)
  | merged (items : Nat)
  | mergeRejected (reason : RejectReason)
  | producerPaused
  | producerResumed
deriving DecidableEq, Repr

structure QueueEvent where
  atMs : Nat
  plugin : PluginId
  generation : Generation
  kind : QueueEventKind
deriving DecidableEq, Repr

/-- The cumulative counters; the two arrays of the source have one slot a reason. -/
inductive Counter where
  | admitted | merged | droppedObsolete | evictedOldest
  | rejected (reason : QueueReject)
  | mergeRejected (reason : RejectReason)
  | pauses | resumes | eventsDropped
deriving DecidableEq, Repr

structure QueueDiagnostics where
  counters : Counter → Nat := fun _ => 0
  peakBatches : Nat := 0
  peakItems : Nat := 0
  countersSaturated : Bool := false

/-- New value of a counter and of the saturation flag. -/
def addCounter (counter amount : Nat) (saturated : Bool) : Nat × Bool :=
  match checkedAdd counter amount with
  | none => (u64Max, true)
  | some value => (value, saturated)

def QueueDiagnostics.add (d : QueueDiagnostics) (c : Counter) (amount : Nat) : QueueDiagnostics :=
  let (value, saturated) := addCounter (d.counters c) amount d.countersSaturated
  { d with
    counters := fun c' => if c' = c then value else d.counters c'
    countersSaturated := saturated }

structure Entry where
  admittedAtMs : Nat
  inbound : InboundBatch
deriving DecidableEq, Repr

namespace Entry

def plugin (e : Entry) : PluginId := e.inbound.batch.plugin

def generation (e : Entry) : Generation := e.inbound.batch.generation

def itemCount (e : Entry) : Nat := e.inbound.batch.items.length

def isTerminal (e : Entry) : Bool := e.inbound.batch.state.isTerminal

end Entry

structure PluginQueue where
  policy : IntakePolicy
  entries : List Entry
  items : Nat
  state : ProducerState
  terminalGeneration : Option Generation

def PluginQueue.new (policy : IntakePolicy) : PluginQueue where
  policy := policy
  entries := []
  items := 0
  state := .running
  terminalGeneration := none

/-- `plugins` holds the registered plugins in registration order, which is the source's
`order`. -/
structure InboundResultQueue where
  limits : QueueLimits
  retirementFloor : Generation
  active : Option Generation
  plugins : Table PluginId PluginQueue
  drainCursor : Nat
  totalBatches : Nat
  totalItems : Nat
  diagnostics : QueueDiagnostics
  events : List QueueEvent

def normalizePolicy (policy : IntakePolicy) : IntakePolicy :=
  let capacity := max policy.capacityBatches 1
  let pauseAt := min (max policy.pauseAtBatches 1) capacity
  { policy with
    capacityBatches := capacity
    pauseAtBatches := pauseAt
    resumeAtBatches := min policy.resumeAtBatches (pauseAt - 1) }

def exceeds (current additional limit : Nat) : Bool := limit - current < additional

/-- The watermark transition at a depth. -/
def ProducerState.atDepth (state : ProducerState) (policy : IntakePolicy) (depth : Nat) :
    ProducerState :=
  match state with
  | .running => if policy.pauseAtBatches ≤ depth then .paused else .running
  | .paused => if depth ≤ policy.resumeAtBatches then .running else .paused
  | .disconnected => .disconnected

/-- Work that is not of the active generation. -/
def obsolete (active : Option Generation) (e : Entry) : Bool := active ≠ some e.generation

def PluginQueue.obsoleteBatches (queue : PluginQueue) (active : Option Generation) : Nat :=
  queue.entries.countP (obsolete active)

def PluginQueue.reregister (queue : PluginQueue) (active : Option Generation)
    (policy : IntakePolicy) : PluginQueue :=
  let depth := queue.entries.countP fun e => active = some e.generation
  let connected := if queue.state = .disconnected then .running else queue.state
  { queue with policy := policy, state := connected.atDepth policy depth }

namespace InboundResultQueue

def new (limits : QueueLimits) : InboundResultQueue where
  limits := limits
  retirementFloor := .zero
  active := none
  plugins := .empty
  drainCursor := 0
  totalBatches := 0
  totalItems := 0
  diagnostics := {}
  events := []

variable (s : InboundResultQueue) (plugin : PluginId)

def modifyQueue (f : PluginQueue → PluginQueue) : InboundResultQueue :=
  { s with plugins := s.plugins.modify plugin f }

def count (c : Counter) (amount : Nat) : InboundResultQueue :=
  { s with diagnostics := s.diagnostics.add c amount }

def pushEvent (event : QueueEvent) : InboundResultQueue :=
  let capacity := s.limits.capacityBatches
  if capacity = 0 then s.count .eventsDropped 1
  else
    let s :=
      if capacity ≤ s.events.length then
        { s with events := s.events.tail }.count .eventsDropped 1
      else s
    { s with events := s.events ++ [event] }

def register (policy : IntakePolicy) : InboundResultQueue :=
  match s.plugins.get? plugin with
  | some _ => s.modifyQueue plugin fun queue => queue.reregister s.active (normalizePolicy policy)
  | none => { s with plugins := s.plugins.insert plugin (.new (normalizePolicy policy)) }

/-- The cursor stays at the same logical next plugin. -/
def cursorWithout : Nat :=
  let order := (s.plugins.erase plugin).keys
  if order.isEmpty then 0
  else
    let cursor :=
      if s.plugins.keys.idxOf plugin < s.drainCursor then s.drainCursor - 1 else s.drainCursor
    cursor % order.length

/-- The answer comes with the batches that go away with the queue. -/
def unregister : InboundResultQueue × Bool × List Entry :=
  match s.plugins.get? plugin with
  | none => (s, false, [])
  | some queue =>
    ({ s with
        plugins := s.plugins.erase plugin
        totalBatches := s.totalBatches - queue.entries.length
        totalItems := s.totalItems - queue.items
        drainCursor := s.cursorWithout plugin
        events := s.events.filter (·.plugin ≠ plugin) }, true, queue.entries)

def beginGeneration (generation : Generation) : InboundResultQueue :=
  if generation < s.retirementFloor then s
  else if s.active.any fun active => generation ≤ active then s
  else { s with active := some generation }

def retireBefore (generation : Generation) : InboundResultQueue :=
  if generation ≤ s.retirementFloor then s
  else
    { s with
      retirementFloor := generation
      active := if s.active.any fun active => active < generation then none else s.active }

def depth : QueueDepth where
  batches := s.totalBatches
  items := s.totalItems
  obsolete := s.plugins.sum fun queue => queue.obsoleteBatches s.active

def producerState : Option ProducerState :=
  (s.plugins.get? plugin).map (·.state)

def reject (atMs : Nat) (plugin : PluginId) (generation : Generation) (reason : QueueReject) :
    InboundResultQueue :=
  (s.count (.rejected reason) 1).pushEvent ⟨atMs, plugin, generation, .rejected reason⟩

/-- `none`: the plugin has gone, an `expect` of the source. -/
def forcePause (atMs : Nat) (plugin : PluginId) (generation : Generation) :
    Option InboundResultQueue :=
  match s.plugins.get? plugin with
  | none => none
  | some queue =>
    if queue.state ≠ .running then some s
    else
      let s := s.modifyQueue plugin fun queue => { queue with state := .paused }
      some ((s.count .pauses 1).pushEvent ⟨atMs, plugin, generation, .producerPaused⟩)

def reconcileProducer (atMs : Nat) (plugin : PluginId) (generation : Generation) :
    Option InboundResultQueue :=
  match s.plugins.get? plugin with
  | none => none
  | some queue =>
    let state := queue.state.atDepth queue.policy queue.entries.length
    if state = queue.state then some s
    else
      let s := s.modifyQueue plugin fun queue => { queue with state := state }
      if state = .paused then
        some ((s.count .pauses 1).pushEvent ⟨atMs, plugin, generation, .producerPaused⟩)
      else some ((s.count .resumes 1).pushEvent ⟨atMs, plugin, generation, .producerResumed⟩)

/-- The front entry of a plugin leaves its queue. `none`: the plugin or the entry is not
there, or a total would underflow. -/
def popEntry : Option (InboundResultQueue × Entry) :=
  match s.plugins.get? plugin with
  | none => none
  | some queue =>
    match queue.entries with
    | [] => none
    | entry :: rest =>
      match checkedSub queue.items entry.itemCount, checkedSub s.totalBatches 1,
          checkedSub s.totalItems entry.itemCount with
      | some items, some batches, some total =>
        some
          ({ s.modifyQueue plugin fun queue => { queue with entries := rest, items := items } with
              totalBatches := batches
              totalItems := total }, entry)
      | _, _, _ => none

end InboundResultQueue
end CriKey.Intake
