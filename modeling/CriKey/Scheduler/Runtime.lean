import CriKey.Base.Machine
import CriKey.Scheduler.Submit

/-! The remaining operations of the scheduler, dispatch first, and its step function. -/
namespace CriKey.Scheduler
open CriKey.Base CriKey.Core

namespace PluginState

def isDue (request : PendingRequest) (now : Nat) : Bool :=
  !request.ready && request.dueAt.any fun deadline => deadline ≤ now

def markDue (now : Nat) (request : PendingRequest) : PendingRequest :=
  if isDue request now then { request with ready := true, dueAt := none, dueReason := none }
  else request

variable (state : PluginState)

/-- The requests whose deadline elapsed, with the reason their deadline had. -/
def dueRecords (now : Nat) : List (Generation × DueReason) :=
  state.queue.filterMap fun request =>
    if isDue request now then request.dueReason.map fun reason => (request.generation, reason)
    else none

def applyDeadlines (now : Nat) : PluginState :=
  { state with
    queue := state.queue.map (markDue now)
    burstStarted := if (state.dueRecords now).isEmpty then state.burstStarted else none }

def notePeak : PluginState :=
  { state with
    diagnostics :=
      { state.diagnostics with
        peakQueueDepth := max state.diagnostics.peakQueueDepth state.queue.length } }

def hasExplicitPolicy : Bool :=
  effectiveQueuePolicy state.policy != .replaceOldest

/-- The front request, when it is ready and the plugin has a free slot. -/
def dispatchable : Option PendingRequest :=
  if effectiveConcurrencyLimit state.policy ≤ state.inFlight.length then none
  else state.queue.head?.filter (·.ready)

def dispatch (pending : PendingRequest) (now : Nat) : PluginState :=
  { state with
    queue := state.queue.tail
    inFlight := state.inFlight ++ [⟨pending.generation, now, none, false, false⟩]
    diagnostics :=
      { state.diagnostics with
        dispatchedRequests := satAdd state.diagnostics.dispatchedRequests 1
        lastDispatchedAt := some now } }

end PluginState

def DueReason.decision : DueReason → DebounceDecision
  | .trailingEdge => .trailingEdge
  | .maximumWait => .maximumWait

/-- What a tick carries from plugin to plugin. -/
structure DispatchRound where
  scheduler : QueryScheduler
  dispatched : List DispatchedRequest
  lastServed : Option Nat

namespace QueryScheduler

section
variable (s : QueryScheduler)

def applyDeadlinesFor (now : Nat) (plugin : PluginId) : QueryScheduler :=
  match s.plugins.get? plugin with
  | none => s
  | some state =>
    let s := s.modifyPlugin plugin fun state => state.applyDeadlines now
    (state.dueRecords now).foldl (fun s due =>
      s.pushTrace (.debounce now plugin due.1 due.2.decision)) s

/-- Peaks of the queues with an explicit overflow policy, and the whole depth when
there is such a queue. -/
def recordExplicitQueuePeaks : QueryScheduler :=
  let depth := s.totalQueued
  let hasExplicit := s.plugins.values.any (·.hasExplicitPolicy)
  let s := { s with plugins := s.plugins.mapValues fun state =>
    if state.hasExplicitPolicy then state.notePeak else state }
  if hasExplicit then
    { s with diagnostics :=
      { s.diagnostics with peakQueueDepth := max s.diagnostics.peakQueueDepth depth } }
  else s

def recordRemainingQueuePeaks : QueryScheduler :=
  let depth := s.totalQueued
  { s with
    plugins := s.plugins.mapValues (·.notePeak)
    diagnostics :=
      { s.diagnostics with peakQueueDepth := max s.diagnostics.peakQueueDepth depth } }

def dispatchOne (plugin : PluginId) (pending : PendingRequest) (now : Nat) : QueryScheduler :=
  let s := s.modifyPlugin plugin fun state => state.dispatch pending now
  let s := s.count .dispatched 1
  s.pushTrace (.dispatched now plugin pending.generation)

end

/-- The inner loop of a tick for the plugin at `index`; `own` is what is left of its
budget. -/
def dispatchLoop (plugin : PluginId) (index now : Nat) : Nat → DispatchRound → DispatchRound
  | 0, round => round
  | own + 1, round =>
    let s := round.scheduler
    if s.config.dispatchBudgetPerTick ≤ round.dispatched.length then round
    else
      match (s.plugins.get? plugin).bind (·.dispatchable) with
      | none => round
      | some pending =>
        let s := s.dispatchOne plugin pending now
        let request : DispatchedRequest := ⟨plugin, pending.generation, pending.query, now⟩
        dispatchLoop plugin index now own ⟨s, round.dispatched ++ [request], some index⟩

def dispatchAt (plugins : List PluginId) (start now : Nat) (round : DispatchRound)
    (offset : Nat) : DispatchRound :=
  let s := round.scheduler
  if s.config.dispatchBudgetPerTick ≤ round.dispatched.length then round
  else
    let index := (start + offset) % plugins.length
    match plugins[index]? with
    | none => round
    | some plugin => dispatchLoop plugin index now s.config.perPluginDispatchBudget round

section
variable (s : QueryScheduler)

def dispatchReady (now : Nat) : QueryScheduler × List DispatchedRequest :=
  let plugins := s.plugins.keys
  let pluginCount := plugins.length
  if pluginCount = 0 || s.config.dispatchBudgetPerTick = 0 ||
      s.config.perPluginDispatchBudget = 0 then
    (s.recordRemainingQueuePeaks, [])
  else
    let start := s.roundRobinCursor % pluginCount
    let round := (List.range pluginCount).foldl (dispatchAt plugins start now) ⟨s, [], none⟩
    let cursor :=
      match round.lastServed with
      | some index => (index + 1) % pluginCount
      | none => (start + 1) % pluginCount
    let s := { round.scheduler with roundRobinCursor := cursor }
    (s.recordRemainingQueuePeaks, round.dispatched)

def settleDeadlines (now : Nat) : QueryScheduler :=
  let s := s.reclaimObsoleteQueued s.currentGeneration now true
  let s := s.plugins.keys.foldl (fun s plugin => s.applyDeadlinesFor now plugin) s
  s.recordExplicitQueuePeaks

def tick (now : Nat) : QueryScheduler × List DispatchedRequest :=
  let now' := s.clampNow now
  let s := s.observeNow now
  if s.isShutdown then (s, [])
  else (s.settleDeadlines now').dispatchReady now'

def complete (plugin : PluginId) (generation : Generation) (now : Nat) :
    QueryScheduler × CompletionOutcome :=
  let now' := s.clampNow now
  let s := s.observeNow now
  match (s.plugins.get? plugin).bind fun state =>
      state.inFlight.find? (·.generation = generation) with
  | none => (s, .unknown)
  | some request =>
    let s := s.modifyPlugin plugin fun state =>
      { state with inFlight := state.inFlight.eraseP (·.generation = generation) }
    if request.cancelReason.isSome || generation ≠ s.currentGeneration then (s, .stale)
    else if !request.finalResultRecorded then
      (s.pushTrace (.finalResult now' plugin generation (now' - request.dispatchedAt)), .accepted)
    else (s, .accepted)

def cancelPlugin (plugin : PluginId) (reason : CancelReason) (now : Nat) :
    QueryScheduler × List Generation :=
  (s.observeNow now).invalidatePlugin plugin reason (s.clampNow now) true

def unregisterPlugin (plugin : PluginId) : QueryScheduler × Bool :=
  if s.plugins.contains plugin then
    let plugins := s.plugins.erase plugin
    ({ s with
        plugins := plugins
        roundRobinCursor :=
          if plugins.keys.isEmpty then 0 else min s.roundRobinCursor (plugins.keys.length - 1)
        cancellations := s.cancellations.filter (·.plugin ≠ plugin) }, true)
  else (s, false)

def drainCancellations : QueryScheduler × List CancelledRequest :=
  ({ s with cancellations := [] }, s.cancellations)

end

def shutdownPlugin (now : Nat) (s : QueryScheduler) (plugin : PluginId) : QueryScheduler :=
  (s.invalidatePlugin plugin .shutdown now false).1.modifyPlugin plugin fun state =>
    { state with inFlight := [], queue := [], relevant := false, burstStarted := none }

variable (s : QueryScheduler)

def shutdown (now : Nat) : QueryScheduler :=
  let now' := s.clampNow now
  let s := s.observeNow now
  if s.isShutdown then s
  else
    let s := s.plugins.keys.foldl (shutdownPlugin now') s
    { s with resultQueueDepth := 0, isShutdown := true }

def disablePlugin (plugin : PluginId) (now : Nat) : QueryScheduler :=
  let s' := ((s.observeNow now).invalidatePlugin plugin .disabled (s.clampNow now) true).1
  s'.modifyPlugin plugin fun state =>
    { state with enabled := false, relevant := false, burstStarted := none, inFlight := [] }

def enablePlugin (plugin : PluginId) (now : Nat) : QueryScheduler :=
  (s.observeNow now).modifyPlugin plugin fun state =>
    { state with enabled := true, relevant := false, burstStarted := none }

/-- The first in-flight request of the generation learns of a result. -/
def noteResult (completion : BatchCompletion) (request : InFlightRequest) : InFlightRequest :=
  { request with
    firstResultRecorded := true
    finalResultRecorded := request.finalResultRecorded || completion ≠ .partial_ }

variable (plugin : PluginId) (generation : Generation)

def usable : Bool :=
  (s.plugins.get? plugin).any fun state => state.inFlight.any fun request =>
    request.generation = generation && request.cancelReason.isNone

def rejectStaleResult (now : Nat) : QueryScheduler :=
  let s := s.count .rejectedStaleResults 1
  let s := s.modifyPlugin plugin fun state =>
    { state with diagnostics :=
      { state.diagnostics with
        rejectedStaleResults := satAdd state.diagnostics.rejectedStaleResults 1 } }
  s.pushTrace (.staleResultRejected now plugin generation)

def modifyFirst (p : InFlightRequest → Bool) (f : InFlightRequest → InFlightRequest) :
    List InFlightRequest → List InFlightRequest
  | [] => []
  | r :: rs => if p r then f r :: rs else r :: modifyFirst p f rs

def recordResultBatch
    (items : Nat) (completion : BatchCompletion) (now : Nat) : QueryScheduler × BatchAdmission :=
  let now' := s.clampNow now
  let s := s.observeNow now
  if generation ≠ s.currentGeneration || !s.usable plugin generation then
    (s.rejectStaleResult plugin generation now', .staleRejected)
  else if s.config.resultQueueCapacity ≤ s.resultQueueDepth then (s, .rejectedResultQueueFull)
  else
    let s := { s with resultQueueDepth := satAdd s.resultQueueDepth 1 }
    match (s.plugins.get? plugin).bind fun state =>
        state.inFlight.find? (·.generation = generation) with
    | none => (s, .accepted)
    | some request =>
      let first := !request.firstResultRecorded
      let finalResult := completion ≠ .partial_ && !request.finalResultRecorded
      let latency := now' - request.dispatchedAt
      let s := s.modifyPlugin plugin fun state =>
        { state with inFlight :=
          modifyFirst (·.generation = generation) (noteResult completion) state.inFlight }
      let s := if first then s.pushTrace (.firstResult now' plugin generation latency) else s
      let s := s.pushTrace (.resultBatch now' plugin generation items completion)
      let s := if finalResult then s.pushTrace (.finalResult now' plugin generation latency) else s
      (s, .accepted)

def recordRanking (generation : Generation) (rankedItems now : Nat) : QueryScheduler :=
  let s' := { s.observeNow now with resultQueueDepth := 0 }
  s'.pushTrace (.ranking (s.clampNow now) generation rankedItems)

def recordPresentation (generation : Generation) (visibleItems now : Nat) : QueryScheduler :=
  let s' := { s.observeNow now with resultQueueDepth := 0 }
  s'.pushTrace (.presentation (s.clampNow now) generation visibleItems)

variable [Lowercase]

def registerPlugin (s : QueryScheduler) (plugin : PluginId) (policy : PluginPolicy) :
    QueryScheduler :=
  { s with plugins := s.plugins.insert plugin (PluginState.new (normalizePolicy policy)) }

def setPolicy (s : QueryScheduler) (plugin : PluginId) (policy : PluginPolicy) (now : Nat) :
    QueryScheduler :=
  let now' := s.clampNow now
  let s := s.observeNow now
  match s.plugins.get? plugin with
  | none => s
  | some old =>
    let reason := if old.policy.profile = policy.profile then CancelReason.reconfigured
      else .profileChanged
    (s.invalidatePlugin plugin reason now' true).1.modifyPlugin plugin fun state =>
      { state with policy := normalizePolicy policy, relevant := false, burstStarted := none }

end QueryScheduler

inductive Op where
  | registerPlugin (plugin : PluginId) (policy : PluginPolicy)
  | setPolicy (plugin : PluginId) (policy : PluginPolicy) (now : Nat)
  | disablePlugin (plugin : PluginId) (now : Nat)
  | enablePlugin (plugin : PluginId) (now : Nat)
  | submitQuery (query : String) (now : Nat)
  | tick (now : Nat)
  | complete (plugin : PluginId) (generation : Generation) (now : Nat)
  | cancelPlugin (plugin : PluginId) (reason : CancelReason) (now : Nat)
  | unregisterPlugin (plugin : PluginId)
  | drainCancellations
  | shutdown (now : Nat)
  | recordResultBatch (plugin : PluginId) (generation : Generation) (items : Nat)
      (completion : BatchCompletion) (now : Nat)
  | recordRanking (generation : Generation) (rankedItems now : Nat)
  | recordPresentation (generation : Generation) (visibleItems now : Nat)

inductive Output where
  | done
  | generation (generation : Generation)
  | dispatched (requests : List DispatchedRequest)
  | completion (outcome : CompletionOutcome)
  | invalidated (generations : List Generation)
  | unregistered (found : Bool)
  | cancellations (notices : List CancelledRequest)
  | admission (admission : BatchAdmission)

/-- One call on the scheduler; only the exhausted generation counter panics. -/
def step [Lowercase] (s : QueryScheduler) : Op → Option (QueryScheduler × Output)
  | .registerPlugin plugin policy => some (s.registerPlugin plugin policy, .done)
  | .setPolicy plugin policy now => some (s.setPolicy plugin policy now, .done)
  | .disablePlugin plugin now => some (s.disablePlugin plugin now, .done)
  | .enablePlugin plugin now => some (s.enablePlugin plugin now, .done)
  | .submitQuery query now => (s.submitQuery query now).map fun r => (r.1, .generation r.2)
  | .tick now => some ((s.tick now).1, .dispatched (s.tick now).2)
  | .complete plugin generation now =>
    some ((s.complete plugin generation now).1, .completion (s.complete plugin generation now).2)
  | .cancelPlugin plugin reason now =>
    some ((s.cancelPlugin plugin reason now).1, .invalidated (s.cancelPlugin plugin reason now).2)
  | .unregisterPlugin plugin =>
    some ((s.unregisterPlugin plugin).1, .unregistered (s.unregisterPlugin plugin).2)
  | .drainCancellations => some (s.drainCancellations.1, .cancellations s.drainCancellations.2)
  | .shutdown now => some (s.shutdown now, .done)
  | .recordResultBatch plugin generation items completion now =>
    let r := s.recordResultBatch plugin generation items completion now
    some (r.1, .admission r.2)
  | .recordRanking generation rankedItems now =>
    some (s.recordRanking generation rankedItems now, .done)
  | .recordPresentation generation visibleItems now =>
    some (s.recordPresentation generation visibleItems now, .done)

end CriKey.Scheduler
