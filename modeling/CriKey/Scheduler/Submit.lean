import CriKey.Scheduler.State

/-! A keystroke: reclaiming obsolete queue slots, cancelling superseded work, the
debounce decision and the admission of the new request, plugin by plugin. -/
namespace CriKey.Scheduler
open CriKey.Base CriKey.Core

def gateReason (state : PluginState) (normalized : String) : Option GateReason :=
  if !state.enabled then some .disabled
  else if !state.policy.profile.allowsHostGating then none
  else if normalized = "" then
    if state.policy.activation.supportsEmptyQuery then none else some .emptyQueryUnsupported
  else if charCount normalized < state.policy.debounce.minimumQueryLength then
    some .minimumQueryLength
  else
    let activation := state.policy.activation
    if activation.prefixes.isEmpty && activation.keywords.isEmpty &&
        activation.patterns.isEmpty then none
    else
      let prefixMatches := activation.prefixes.any fun start => startsWith normalized start
      let keywordMatches := (firstWord normalized).elim false fun first =>
        activation.keywords.any fun keyword => first == keyword
      let patternMatches := activation.patterns.any fun pattern => pattern.isMatch normalized
      if prefixMatches || keywordMatches || patternMatches then none
      -- one reason, in declaration precedence
      else if !activation.prefixes.isEmpty then some .prefixMismatch
      else if !activation.keywords.isEmpty then some .keywordMismatch
      else some .patternMismatch

inductive PreparedRequest where
  | legacy (decision : LegacyDispatch)
  | modern (ready : Bool) (dueAt : Option Nat) (dueReason : Option DueReason)
      (decision : DebounceDecision)

inductive EitherDecision where
  | legacy (decision : LegacyDispatch)
  | modern (decision : DebounceDecision)

def InFlightRequest.cancel (reason : CancelReason) (request : InFlightRequest) : InFlightRequest :=
  if request.cancelReason.isNone then { request with cancelReason := some reason } else request

namespace PluginState

variable (state : PluginState)

/-- The records of an invalidation: a running request with whether it is cancelled
only now, then the queue. -/
def invalidationRecords (includeAlreadyCancelled : Bool) : List (Generation × Bool) :=
  (state.inFlight.filter fun r => includeAlreadyCancelled || r.cancelReason.isNone).map
      (fun r => (r.generation, r.cancelReason.isNone)) ++
    state.queue.map fun r => (r.generation, true)

def drainQueue : PluginState :=
  { state with
    queue := []
    relevant := false
    burstStarted := none
    history :=
      { state.history with
        cancelledQueued := state.history.cancelledQueued ++ state.queue.map (·.generation) } }

def cancelInFlight (reason : CancelReason) : PluginState :=
  { state with inFlight := state.inFlight.map (·.cancel reason) }

def noteCancelled (generation : Generation) : PluginState :=
  { state with
    diagnostics :=
      { state.diagnostics with
        cancelledRequests := satAdd state.diagnostics.cancelledRequests 1 }
    history := { state.history with reported := state.history.reported ++ [generation] } }

def noteRejected : PluginState :=
  { state with
    diagnostics :=
      { state.diagnostics with
        rejectedQueueFull := satAdd state.diagnostics.rejectedQueueFull 1 } }

/-- What a query change makes of the running requests and, when the query is gated
out, of the queue. -/
def supersede (gated : Bool) (reason : CancelReason) : PluginState :=
  let state := state.cancelInFlight reason
  if gated then state.drainQueue else state

def supersededGenerations (gated : Bool) : List Generation :=
  (state.inFlight.filter fun r => r.cancelReason.isNone).map (·.generation) ++
    if gated then state.queue.map (·.generation) else []

def obsoleteGenerations (current : Generation) : List Generation :=
  (state.queue.filter fun r => r.generation ≠ current).map (·.generation)

/-- `retain` of the current generation, counting what it dropped. -/
def dropObsolete (current : Generation) : PluginState :=
  { state with
    queue := state.queue.filter fun r => r.generation = current
    diagnostics :=
      { state.diagnostics with
        droppedObsoleteRequests := satAdd state.diagnostics.droppedObsoleteRequests
          (min (state.obsoleteGenerations current).length u64Max) } }

/-- A quiet gap after a dispatch, seen with an empty queue, ends the burst. -/
def quietGap (now : Nat) : Bool :=
  state.queue.isEmpty && state.burstStarted.isSome &&
    state.diagnostics.lastDispatchedAt.any fun last =>
      now - last ≥ state.policy.debounce.debounceMs

def settleBurst (now : Nat) : PluginState :=
  if state.quietGap now then { state with burstStarted := none } else state

def legacyDecision (generation : Generation) : LegacyDispatch :=
  match state.inFlight.head? with
  | some running => .queuedBehindRunning running.generation generation
  | none =>
    match state.queue.head? with
    | some pending => .queuedBehindRunning pending.generation generation
    | none => .now generation

def prepare (generation : Generation) (now : Nat) : PluginState × Option PreparedRequest :=
  let state := state.settleBurst now
  let wasRelevant := state.relevant
  let state := { state with relevant := true }
  let debounce := state.policy.debounce
  if !state.policy.profile.allowsTimeDebounce then
    (state, some (.legacy (state.legacyDecision generation)))
  else if !wasRelevant && debounce.leadingEdge then
    ({ state with burstStarted := some now }, some (.modern true none none .leadingEdge))
  else if debounce.trailingEdge then
    let burst := state.burstStarted.getD now
    let trailingAt := satAdd now debounce.debounceMs
    let maximumAt := debounce.maximumWaitMs.map fun wait => satAdd burst wait
    let dueAt := maximumAt.elim trailingAt fun maximum => min trailingAt maximum
    let dueReason :=
      if maximumAt.any fun maximum => maximum < trailingAt then DueReason.maximumWait
      else DueReason.trailingEdge
    ({ state with burstStarted := some burst },
      some (.modern false (some dueAt) (some dueReason) (.deferred dueAt)))
  else (state, none)

def canReuseSlot : Bool :=
  let queueCapacity := effectiveQueueCapacity state.policy
  match effectiveQueuePolicy state.policy with
  | .replaceOldest => 0 < state.queue.length
  | .dropOldest => 0 < queueCapacity && queueCapacity ≤ state.queue.length
  | .rejectNewest => false

/-- The generation a newest-wins queue replaces. -/
def superseded : Option Generation :=
  match effectiveQueuePolicy state.policy with
  | .replaceOldest => state.queue.getLast?.map (·.generation)
  | _ => none

/-- The generation a full drop-oldest queue evicts. -/
def evicted : Option Generation :=
  match effectiveQueuePolicy state.policy with
  | .dropOldest =>
    if effectiveQueueCapacity state.policy ≤ state.queue.length then
      state.queue.head?.map (·.generation)
    else none
  | _ => none

def enqueue (request : PendingRequest) : PluginState :=
  let kept :=
    match effectiveQueuePolicy state.policy with
    | .replaceOldest => []
    | .rejectNewest => state.queue
    | .dropOldest =>
      if effectiveQueueCapacity state.policy ≤ state.queue.length then state.queue.tail
      else state.queue
  { state with
    queue := kept ++ [request]
    history :=
      { state.history with enqueued := state.history.enqueued ++ [request.generation] } }

def noteCoalesced : PluginState :=
  { state with
    diagnostics :=
      { state.diagnostics with
        coalescedRequests := satAdd state.diagnostics.coalescedRequests 1 } }

def noteDropped : PluginState :=
  { state with
    diagnostics :=
      { state.diagnostics with
        droppedObsoleteRequests := satAdd state.diagnostics.droppedObsoleteRequests 1 } }

end PluginState

namespace QueryScheduler

section
variable (s : QueryScheduler) (plugin : PluginId) (generation : Generation)

def emitCancellation (reason : CancelReason) (now : Nat) (newlyCancelled : Bool) : QueryScheduler :=
  if !newlyCancelled then s
  else
    let s := s.count .cancelled 1
    let s := s.modifyPlugin plugin fun state => state.noteCancelled generation
    let s :=
      -- the newest notices are kept
      if s.cancellations.length = s.config.requestQueueCapacity then
        { s with cancellations := s.cancellations.tail }.count .droppedCancellationNotifications 1
      else s
    let notice : CancelledRequest := ⟨plugin, generation, reason, now⟩
    let s := { s with cancellations := s.cancellations ++ [notice] }
    s.pushTrace (.cancelled now plugin generation reason)

def invalidatePlugin (reason : CancelReason)
    (now : Nat) (includeAlreadyCancelled : Bool) : QueryScheduler × List Generation :=
  match s.plugins.get? plugin with
  | none => (s, [])
  | some state =>
    let records := state.invalidationRecords includeAlreadyCancelled
    let s := s.modifyPlugin plugin fun state => (state.cancelInFlight reason).drainQueue
    let s := records.foldl
      (fun s record => s.emitCancellation plugin record.1 reason now record.2) s
    (s, records.map (·.1))

def reclaimPlugin (current : Generation) (now : Nat)
    (includeReplaceOldest : Bool) : QueryScheduler :=
  match s.plugins.get? plugin with
  | none => s
  | some state =>
    let policy := effectiveQueuePolicy state.policy
    let obsolete := state.obsoleteGenerations current
    if (!includeReplaceOldest && policy == .replaceOldest) || obsolete.isEmpty then s
    else
      let s := s.modifyPlugin plugin fun state => state.dropObsolete current
      let s := s.count .droppedObsolete (min obsolete.length u64Max)
      obsolete.foldl (fun s generation =>
        s.pushTrace (.requestDropped now plugin generation policy)) s

def reclaimObsoleteQueued (current : Generation) (now : Nat)
    (includeReplaceOldest : Bool) : QueryScheduler :=
  s.plugins.keys.foldl (fun s plugin => s.reclaimPlugin plugin current now includeReplaceOldest) s

/-- A request that leaves or never enters the queue: both counters and the trace. -/
def discardRequest (now : Nat)
    (policy : QueuePolicy) (counter : Counter) (note : PluginState → PluginState) :
    QueryScheduler :=
  let s := s.count counter 1
  let s := s.modifyPlugin plugin note
  s.pushTrace (.requestDropped now plugin generation policy)

def refuseRequest (now : Nat) (policy : QueuePolicy) (counter : Counter) : QueryScheduler :=
  s.discardRequest plugin generation now policy counter (·.noteRejected)

def enqueueRequest (state : PluginState)
    (request : PendingRequest) (decision : EitherDecision) (now : Nat) : QueryScheduler :=
  let s := s.modifyPlugin plugin fun state => state.enqueue request
  let (s, decision) :=
    match state.superseded with
    | none => (s, decision)
    | some old =>
      (s.discardRequest plugin old now .replaceOldest .coalesced (·.noteCoalesced),
        match decision with
        | .modern _ => .modern (.coalesced old)
        | .legacy d => .legacy d)
  let s :=
    match state.evicted with
    | none => s
    | some old =>
      s.discardRequest plugin old now .dropOldest .droppedObsolete (·.noteDropped)
  match decision with
  | .legacy decision => s.pushTrace (.legacyDispatch now plugin request.generation decision)
  | .modern decision => s.pushTrace (.debounce now plugin request.generation decision)

/-- Whether the shared bound refuses a plugin that has no slot to reuse. -/
def globalQueueFull (state : PluginState) : Bool :=
  s.config.requestQueueCapacity ≤ s.totalQueued && !state.canReuseSlot

def admitRequest (state : PluginState)
    (generation : Generation) (query : String) (now : Nat) (prepared : PreparedRequest) :
    QueryScheduler :=
  let queuePolicy := effectiveQueuePolicy state.policy
  let queueCapacity := effectiveQueueCapacity state.policy
  if s.globalQueueFull state then
    s.refuseRequest plugin generation now queuePolicy .rejectedGlobalQueueFull
  else if queueCapacity = 0 || (queuePolicy == .rejectNewest &&
      queueCapacity ≤ state.queue.length) then
    s.refuseRequest plugin generation now queuePolicy .rejectedPluginQueueFull
  else
    match prepared with
    | .legacy decision =>
      s.enqueueRequest plugin state ⟨generation, query, true, none, none⟩ (.legacy decision) now
    | .modern ready dueAt dueReason decision =>
      s.enqueueRequest plugin state ⟨generation, query, ready, dueAt, dueReason⟩
        (.modern decision) now

/-- The part of the per-plugin path behind the gate. -/
def scheduleRequest (query : String) (now : Nat) : QueryScheduler :=
  match s.plugins.get? plugin with
  | none => s
  | some state =>
    let s := s.modifyPlugin plugin fun state => (state.prepare generation now).1
    match state.prepare generation now with
    | (_, none) => s
    | (state, some prepared) => s.admitRequest plugin state generation query now prepared

def processQueryForPlugin (query normalized : String) (now : Nat) : QueryScheduler :=
  match s.plugins.get? plugin with
  | none => s
  | some state =>
    let gate := gateReason state normalized
    let reason := if gate.isSome then CancelReason.noLongerRelevant else .queryChanged
    let cancelled := state.supersededGenerations gate.isSome
    let s := s.modifyPlugin plugin fun state => state.supersede gate.isSome reason
    let s := cancelled.foldl
      (fun s generation => s.emitCancellation plugin generation reason now true) s
    match gate with
    | some reason => s.pushTrace (.debounce now plugin generation (.gated reason))
    | none => s.scheduleRequest plugin generation query now

/-- A newest-wins slot that holds an older generation. -/
def reclaimsReplaceSlot (plugin : PluginId) : Bool :=
  (s.plugins.get? plugin).any fun state =>
    effectiveQueuePolicy state.policy == .replaceOldest &&
      state.queue.any fun request => request.generation ≠ generation

/-- Stale newest-wins slots are serviced first. -/
def serviceOrder : List PluginId :=
  s.plugins.keys.filter (s.reclaimsReplaceSlot generation) ++
    s.plugins.keys.filter fun plugin => !s.reclaimsReplaceSlot generation plugin

/-- The clock, the new generation and the trace entry of a keystroke. -/
def keystroke (normalized : String) (now : Nat) : Option (QueryScheduler × Generation) :=
  let now' := s.clampNow now
  let s := s.observeNow now
  match s.generations.advance with
  | none => none
  | some (generations, generation) =>
    let s := { s with generations := generations, resultQueueDepth := 0 }
    some (s.pushTrace (.keystroke now' generation (charCount normalized)), generation)

/-- The loop of a keystroke over the plugins, in the order given. -/
def processQuery (plugins : List PluginId) (generation : Generation)
    (query normalized : String) (now : Nat) : QueryScheduler :=
  plugins.foldl (fun s plugin => s.processQueryForPlugin plugin generation query normalized now) s

end

def submitQuery [Lowercase] (s : QueryScheduler) (query : String) (now : Nat) :
    Option (QueryScheduler × Generation) :=
  let now' := s.clampNow now
  let normalized := toLowercase (trim query)
  match s.keystroke normalized now with
  | none => none
  | some (s, generation) =>
    if s.isShutdown then some (s, generation)
    else
      let s := s.reclaimObsoleteQueued generation now' false
      some (s.processQuery (s.serviceOrder generation) generation query normalized now', generation)

end QueryScheduler
end CriKey.Scheduler
