import CriKey.Base.Table
import CriKey.Scheduler.Policy

/-! The state of the query scheduler: one record a registered plugin, the bounded
developer trace, the undrained cancellation notices and the diagnostic counters. -/
namespace CriKey.Scheduler
open CriKey.Base CriKey.Core

inductive GateReason where
  | disabled | minimumQueryLength | emptyQueryUnsupported
  | prefixMismatch | keywordMismatch | patternMismatch
deriving DecidableEq, Repr

inductive DebounceDecision where
  | leadingEdge
  | deferred (until_ : Nat)
  | coalesced (superseded : Generation)
  | trailingEdge
  | maximumWait
  | gated (reason : GateReason)
deriving DecidableEq, Repr

inductive LegacyDispatch where
  | now (generation : Generation)
  | queuedBehindRunning (obsolete queued : Generation)
  | idle
deriving DecidableEq, Repr

inductive CancelReason where
  | queryChanged | noLongerRelevant | reconfigured | profileChanged | disabled | shutdown
deriving DecidableEq, Repr

inductive CompletionOutcome where
  | accepted | stale | unknown
deriving DecidableEq, Repr

inductive BatchCompletion where
  | partial_ | final | cancelled | failed
deriving DecidableEq, Repr

inductive BatchAdmission where
  | accepted | staleRejected | rejectedResultQueueFull
deriving DecidableEq, Repr

structure DispatchedRequest where
  plugin : PluginId
  generation : Generation
  query : String
  dispatchedAt : Nat
deriving DecidableEq, Repr

/-- A cancellation the host can propagate to a worker. -/
structure CancelledRequest where
  plugin : PluginId
  generation : Generation
  reason : CancelReason
  cancelledAt : Nat
deriving DecidableEq, Repr

inductive QueryTraceEvent where
  | keystroke (at_ : Nat) (generation : Generation) (queryLength : Nat)
  | debounce (at_ : Nat) (plugin : PluginId) (generation : Generation) (decision : DebounceDecision)
  | legacyDispatch (at_ : Nat) (plugin : PluginId) (generation : Generation)
      (decision : LegacyDispatch)
  | dispatched (at_ : Nat) (plugin : PluginId) (generation : Generation)
  | requestDropped (at_ : Nat) (plugin : PluginId) (generation : Generation) (policy : QueuePolicy)
  | cancelled (at_ : Nat) (plugin : PluginId) (generation : Generation) (reason : CancelReason)
  | firstResult (at_ : Nat) (plugin : PluginId) (generation : Generation) (latencyMs : Nat)
  | finalResult (at_ : Nat) (plugin : PluginId) (generation : Generation) (latencyMs : Nat)
  | resultBatch (at_ : Nat) (plugin : PluginId) (generation : Generation) (items : Nat)
      (completion : BatchCompletion)
  | staleResultRejected (at_ : Nat) (plugin : PluginId) (generation : Generation)
  | ranking (at_ : Nat) (generation : Generation) (rankedItems : Nat)
  | presentation (at_ : Nat) (generation : Generation) (visibleItems : Nat)
deriving DecidableEq, Repr

inductive DueReason where
  | trailingEdge | maximumWait
deriving DecidableEq, Repr

structure PendingRequest where
  generation : Generation
  query : String
  ready : Bool
  dueAt : Option Nat
  dueReason : Option DueReason
deriving DecidableEq, Repr

structure InFlightRequest where
  generation : Generation
  dispatchedAt : Nat
  cancelReason : Option CancelReason
  firstResultRecorded : Bool
  finalResultRecorded : Bool
deriving DecidableEq, Repr

structure PluginDiagnostics where
  peakQueueDepth : Nat := 0
  dispatchedRequests : Nat := 0
  coalescedRequests : Nat := 0
  droppedObsoleteRequests : Nat := 0
  rejectedQueueFull : Nat := 0
  cancelledRequests : Nat := 0
  rejectedStaleResults : Nat := 0
  lastDispatchedAt : Option Nat := none

/-- History variables, which no operation reads: the generations ever put into the
queue, those that a cancellation took out of it, and those reported as cancelled. -/
structure PluginHistory where
  enqueued : List Generation := []
  cancelledQueued : List Generation := []
  reported : List Generation := []

structure PluginState where
  policy : PluginPolicy
  enabled : Bool
  relevant : Bool
  burstStarted : Option Nat
  queue : List PendingRequest
  inFlight : List InFlightRequest
  diagnostics : PluginDiagnostics
  history : PluginHistory

def PluginState.new (policy : PluginPolicy) : PluginState where
  policy := policy
  enabled := true
  relevant := false
  burstStarted := none
  queue := []
  inFlight := []
  diagnostics := {}
  history := {}

structure SchedulerDiagnostics where
  peakQueueDepth : Nat := 0
  coalescedRequests : Nat := 0
  droppedObsoleteRequests : Nat := 0
  cancelledRequests : Nat := 0
  droppedCancellationNotifications : Nat := 0
  rejectedStaleResults : Nat := 0
  rejectedPluginQueueFull : Nat := 0
  rejectedGlobalQueueFull : Nat := 0
  dispatchedRequests : Nat := 0
  traceEventsDropped : Nat := 0
  countersSaturated : Bool := false

/-- The stateful, virtual-time scheduler. `plugins` holds the registered plugins in
registration order, which is the source's `plugin_order`. -/
structure QueryScheduler where
  config : SchedulerConfig
  generations : GenerationTracker
  plugins : Table PluginId PluginState
  roundRobinCursor : Nat
  diagnostics : SchedulerDiagnostics
  trace : List QueryTraceEvent
  cancellations : List CancelledRequest
  resultQueueDepth : Nat
  isShutdown : Bool
  lastNow : Option Nat

namespace QueryScheduler

def new (config : SchedulerConfig) : QueryScheduler where
  config := normalizeConfig config
  generations := .new
  plugins := .empty
  roundRobinCursor := 0
  diagnostics := {}
  trace := []
  cancellations := []
  resultQueueDepth := 0
  isShutdown := false
  lastNow := none

variable (s : QueryScheduler)

def currentGeneration : Generation := s.generations.current

variable (plugin : PluginId)

def pending : Option Generation :=
  (s.plugins.get? plugin).bind fun state => state.queue.getLast?.map (·.generation)

def queued : Nat :=
  (s.plugins.get? plugin).elim 0 fun state => state.queue.length

def shouldTerminate : Bool :=
  (s.plugins.get? plugin).elim false fun state =>
    state.policy.profile = .legacyStrict && state.inFlight.any (·.cancelReason.isSome)

/-- The sum of the queue lengths, added up with saturation. -/
def totalQueued : Nat :=
  s.plugins.values.foldl (fun total state => satAdd total state.queue.length) 0

/-- A regressing clock is held at the highest timestamp seen. -/
def clampNow (now : Nat) : Nat := s.lastNow.elim now fun last => max last now

def observeNow (now : Nat) : QueryScheduler :=
  { s with lastNow := some (s.clampNow now) }

def modifyPlugin (f : PluginState → PluginState) : QueryScheduler :=
  { s with plugins := s.plugins.modify plugin f }

end QueryScheduler

inductive Counter where
  | coalesced | droppedObsolete | cancelled | droppedCancellationNotifications
  | rejectedStaleResults | rejectedPluginQueueFull | rejectedGlobalQueueFull
  | dispatched | traceEventsDropped
deriving DecidableEq

/-- New value of a counter and of the saturation flag. -/
def addDiagnosticCounter (counter amount : Nat) (saturated : Bool) : Nat × Bool :=
  let value := satAdd counter amount
  (value, saturated || (counter != u64Max && value == u64Max))

def SchedulerDiagnostics.add (c : Counter) (amount : Nat) (d : SchedulerDiagnostics) :
    SchedulerDiagnostics :=
  let bump := fun counter => addDiagnosticCounter counter amount d.countersSaturated
  match c with
  | .coalesced =>
    let (value, saturated) := bump d.coalescedRequests
    { d with coalescedRequests := value, countersSaturated := saturated }
  | .droppedObsolete =>
    let (value, saturated) := bump d.droppedObsoleteRequests
    { d with droppedObsoleteRequests := value, countersSaturated := saturated }
  | .cancelled =>
    let (value, saturated) := bump d.cancelledRequests
    { d with cancelledRequests := value, countersSaturated := saturated }
  | .droppedCancellationNotifications =>
    let (value, saturated) := bump d.droppedCancellationNotifications
    { d with droppedCancellationNotifications := value, countersSaturated := saturated }
  | .rejectedStaleResults =>
    let (value, saturated) := bump d.rejectedStaleResults
    { d with rejectedStaleResults := value, countersSaturated := saturated }
  | .rejectedPluginQueueFull =>
    let (value, saturated) := bump d.rejectedPluginQueueFull
    { d with rejectedPluginQueueFull := value, countersSaturated := saturated }
  | .rejectedGlobalQueueFull =>
    let (value, saturated) := bump d.rejectedGlobalQueueFull
    { d with rejectedGlobalQueueFull := value, countersSaturated := saturated }
  | .dispatched =>
    let (value, saturated) := bump d.dispatchedRequests
    { d with dispatchedRequests := value, countersSaturated := saturated }
  | .traceEventsDropped =>
    let (value, saturated) := bump d.traceEventsDropped
    { d with traceEventsDropped := value, countersSaturated := saturated }

namespace QueryScheduler

def count (s : QueryScheduler) (c : Counter) (amount : Nat) : QueryScheduler :=
  { s with diagnostics := s.diagnostics.add c amount }

def pushTrace (s : QueryScheduler) (event : QueryTraceEvent) : QueryScheduler :=
  if s.config.traceCapacity = 0 then s.count .traceEventsDropped 1
  else if s.trace.length = s.config.traceCapacity then
    let s := { s with trace := s.trace.tail }
    let s := s.count .traceEventsDropped 1
    { s with trace := s.trace ++ [event] }
  else { s with trace := s.trace ++ [event] }

end QueryScheduler
end CriKey.Scheduler
