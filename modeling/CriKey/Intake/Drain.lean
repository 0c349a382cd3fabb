import CriKey.Intake.Submit

/-! The drain: one rotating pass over the plugins that hands batches to an aggregator, and
the step function of the intake. -/
namespace CriKey.Intake
open CriKey.Base CriKey.Core CriKey.Aggregator

/-- One call of the aggregator: the entry it was given and its answer. -/
structure Call where
  entry : Entry
  result : Except RejectReason Unit

/-- What a drain carries from batch to batch. -/
structure DrainRound (α : Type) where
  queue : InboundResultQueue
  aggregator : α
  report : DrainReport
  calls : List Call
  lastHandled : Option Nat

variable {α : Type} [ResultAggregator α]

/-- A terminal is provisional until the retained merge commits. -/
def PluginQueue.reopen (queue : PluginQueue) (entry : Entry) : PluginQueue :=
  if entry.isTerminal && queue.terminalGeneration == some entry.generation then
    { queue with terminalGeneration := none }
  else queue

/-- The answer of the aggregator for an entry that has left its queue. -/
def settle (atMs : Nat) (plugin : PluginId) (entry : Entry) (result : Except RejectReason Unit)
    (s : InboundResultQueue) (report : DrainReport) : InboundResultQueue × DrainReport :=
  match result with
  | .ok () =>
    let s := s.count .merged 1
    (s.pushEvent ⟨atMs, plugin, entry.generation, .merged entry.itemCount⟩, { report with
        merged := report.merged + 1
        mergedBatches := report.mergedBatches ++
          [⟨plugin, entry.admittedAtMs, entry.generation, entry.inbound.batch.state,
            entry.itemCount⟩] })
  | .error reason =>
    let s := s.modifyQueue plugin fun queue => queue.reopen entry
    let s := s.count (.mergeRejected reason) 1
    (s.pushEvent ⟨atMs, plugin, entry.generation, .mergeRejected reason⟩,
      { report with mergeRejected := report.mergeRejected ++ [(plugin, reason)] })

/-- The front batch of a plugin goes to the aggregator. -/
def handOver (atMs : Nat) (plugin : PluginId) (index : Nat) (round : DrainRound α) :
    Option (DrainRound α) :=
  match round.queue.popEntry plugin with
  | none => none
  | some (s, entry) =>
    let answer := ResultAggregator.accept round.aggregator entry.inbound.batch
    let settled := settle atMs plugin entry answer.2 s round.report
    some ⟨settled.1, answer.1, settled.2, round.calls ++ [⟨entry, answer.2⟩], some index⟩

/-- The inner loop of a drain; `own` is what is left of the plugin's batch budget and
`pluginItems` what was handed over for it so far. -/
def drainLoop (atMs : Nat) (budget : DrainBudget) (plugin : PluginId) (index : Nat) :
    Nat → Nat → DrainRound α → Option (DrainRound α)
  | 0, _, round => some round
  | own + 1, pluginItems, round =>
    if budget.totalBatches ≤ round.calls.length then some round
    else
      match (round.queue.plugins.get? plugin).bind (·.entries.head?) with
      | none => some round
      | some next =>
        -- the first batch of a plugin passes whatever its size
        if own + 1 < budget.batchesPerPlugin ∧
            budget.itemsPerPlugin - pluginItems < next.itemCount then some round
        else
          match handOver atMs plugin index round with
          | none => none
          | some round =>
            drainLoop atMs budget plugin index own (satAdd pluginItems next.itemCount) round

def drainAt (atMs : Nat) (budget : DrainBudget) (order : List PluginId) (start : Nat)
    (round : DrainRound α) (offset : Nat) : Option (DrainRound α) :=
  if budget.totalBatches ≤ round.calls.length then some round
  else
    let index := (start + offset) % order.length
    match order[index]? with
    | none => none
    | some plugin => drainLoop atMs budget plugin index budget.batchesPerPlugin 0 round

def nextCursor (budget : DrainBudget) (count start : Nat) (round : DrainRound α) : Nat :=
  match round.lastHandled with
  | some index =>
    if budget.totalBatches ≤ round.calls.length then (index + 1) % count
    else (start + 1) % count
  | none =>
    if 0 < budget.totalBatches then (start + 1) % count else round.queue.drainCursor

/-- The answer of a drain, with the aggregator it leaves and the calls it made. -/
structure Drained (α : Type) where
  aggregator : α
  report : DrainReport
  calls : List Call

namespace InboundResultQueue
variable (s : InboundResultQueue)

def reconcileAll (atMs : Nat) (generation : Generation) (plugins : List PluginId) :
    Option InboundResultQueue :=
  plugins.foldlM (fun s plugin => s.reconcileProducer atMs plugin generation) s

def drainInto (atMs : Nat) (aggregator : α) (budget : DrainBudget) :
    Option (InboundResultQueue × Drained α) :=
  match s.reclaimObsolete atMs with
  | none => none
  | some (s, dropped) =>
    let report : DrainReport := { droppedObsolete := dropped }
    let order := s.plugins.keys
    if order.length = 0 then some (s, ⟨aggregator, report, []⟩)
    else
      let start := s.drainCursor % order.length
      match (List.range order.length).foldlM (drainAt atMs budget order start)
          ⟨s, aggregator, report, [], none⟩ with
      | none => none
      | some round =>
        let s := { round.queue with drainCursor := nextCursor budget order.length start round }
        match s.reconcileAll atMs (s.active.getD s.retirementFloor) order with
        | none => none
        | some s => some (s, ⟨round.aggregator, round.report, round.calls⟩)

end InboundResultQueue

/-- The calls on the intake; a drain brings the aggregator it drains into. -/
inductive Op (α : Type) where
  | register (plugin : PluginId) (policy : IntakePolicy)
  | unregister (plugin : PluginId)
  | beginGeneration (generation : Generation)
  | retireBefore (generation : Generation)
  | submit (atMs : Nat) (inbound : InboundBatch)
  | drainInto (atMs : Nat) (aggregator : α) (budget : DrainBudget)

inductive Output (α : Type) where
  | done
  | unregistered (found : Bool) (discarded : List Entry)
  | submitted (result : Except QueueReject ProducerState)
  | drained (answer : Drained α)

def step (s : InboundResultQueue) : Op α → Option (InboundResultQueue × Output α)
  | .register plugin policy => some (s.register plugin policy, .done)
  | .unregister plugin =>
    some ((s.unregister plugin).1, .unregistered (s.unregister plugin).2.1
      (s.unregister plugin).2.2)
  | .beginGeneration generation => some (s.beginGeneration generation, .done)
  | .retireBefore generation => some (s.retireBefore generation, .done)
  | .submit atMs inbound => (s.submit atMs inbound).map fun r => (r.1, .submitted r.2)
  | .drainInto atMs aggregator budget =>
    (s.drainInto atMs aggregator budget).map fun r => (r.1, .drained r.2)

end CriKey.Intake
