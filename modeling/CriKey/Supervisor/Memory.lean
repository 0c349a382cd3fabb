import CriKey.Base.Machine
import CriKey.Base.Table
import CriKey.Core.Text
import CriKey.Supervisor.Budget

/-! The plugin supervisor: worker states, health counters and the circuit breaker of every
registered plugin. Durations are counted in nanoseconds. -/
namespace CriKey.Supervisor
open CriKey.Base CriKey.Core

inductive WorkerState where
  | notStarted | starting | ready | busy | restarting | suspended | failed
deriving DecidableEq, Repr

inductive FailureKind where
  | startup | crash | timeout | protocolViolation | resourceLimit
deriving DecidableEq, Repr

def u32Max : Nat := 2 ^ 32 - 1

def satAdd32 (a b : Nat) : Nat := min (a + b) u32Max

/-- The longest duration: all 64 bits of the seconds and the last nanosecond. -/
def durationMax : Nat := 2 ^ 64 * 1000000000 - 1

def durationAdd (a b : Nat) : Option Nat := if a + b ≤ durationMax then some (a + b) else none

structure PluginHealth where
  startupFailures : Nat := 0
  crashes : Nat := 0
  timeouts : Nat := 0
  softTimeouts : Nat := 0
  protocolViolations : Nat := 0
  resourceLimitFailures : Nat := 0
  cancellationsHonoured : Nat := 0
  cancellationsIgnored : Nat := 0
  staleResultsRejected : Nat := 0
  obsoleteRequestsDropped : Nat := 0
  concurrencyRefusals : ConcurrencyRefusals := {}
  queueDepth : Nat := 0
  averageLatencyMs : Nat := 0
  peakLatencyMs : Nat := 0
  latencySamples : Nat := 0
deriving DecidableEq, Repr

structure CircuitBreakerConfig where
  /-- Consecutive failures that suspend a plugin; zero disables suspension. -/
  failureThreshold : Nat
  cooldown : Nat
deriving DecidableEq, Repr

inductive SupervisorError where
  | unknownPlugin (plugin : PluginId)
  | alreadyRegistered (plugin : PluginId)
  | illegalTransition (plugin : PluginId) (operation : String) (state : WorkerState)
  | invalidConfig (reason : String)
  | regressiveTimestamp (plugin : PluginId) (previous received : Nat)
deriving DecidableEq, Repr

structure CircuitDiagnostics where
  failureStreak : Nat := 0
  lastFailure : Option FailureKind := none
  lastFailureAt : Option Nat := none
  retryAt : Option Nat := none
deriving DecidableEq, Repr

structure PluginRecord where
  state : WorkerState := .notStarted
  health : PluginHealth := {}
  circuit : CircuitDiagnostics := {}
  lastEventAt : Option Nat := none
  latencyMeanNs : Nat := 0
  latencyRemainder : Nat := 0
deriving DecidableEq, Repr

def failureAllowed (state : WorkerState) : FailureKind → Bool
  | .startup => state = .starting || state = .restarting
  | .timeout => state = .busy
  | .crash | .protocolViolation | .resourceLimit =>
    state = .starting || state = .ready || state = .busy || state = .restarting

def failureOperation : FailureKind → String
  | .startup => "record startup failure"
  | .crash => "record crash"
  | .timeout => "record hard timeout"
  | .protocolViolation => "record protocol violation"
  | .resourceLimit => "record resource-limit failure"

def PluginHealth.countFailure (h : PluginHealth) : FailureKind → PluginHealth
  | .startup => { h with startupFailures := satAdd32 h.startupFailures 1 }
  | .crash => { h with crashes := satAdd32 h.crashes 1 }
  | .timeout => { h with timeouts := satAdd32 h.timeouts 1 }
  | .protocolViolation => { h with protocolViolations := satAdd32 h.protocolViolations 1 }
  | .resourceLimit => { h with resourceLimitFailures := satAdd32 h.resourceLimitFailures 1 }

def cooldownOverflow : String := "circuit-breaker cooldown overflows the event timestamp"

def noRetryTimestamp : String := "suspended plugin has no retry timestamp"

namespace PluginRecord
variable (plugin : PluginId) (record : PluginRecord)

/-- The error of a transition that the state of the worker does not allow. -/
def illegalTransition (operation : String) : Except SupervisorError PluginRecord :=
  .error (.illegalTransition plugin operation record.state)

def validateEventTimestamp (received : Nat) : Except SupervisorError Unit :=
  match record.lastEventAt with
  | some previous =>
    if received < previous then .error (.regressiveTimestamp plugin previous received) else .ok ()
  | none => .ok ()

def start : Except SupervisorError PluginRecord :=
  if record.state ≠ .notStarted then record.illegalTransition plugin "start"
  else .ok { record with state := .starting }

def stop : Except SupervisorError PluginRecord :=
  if record.state = .notStarted ∨ record.state = .suspended then
    record.illegalTransition plugin "stop"
  else .ok { record with state := .notStarted, circuit := { record.circuit with retryAt := none } }

def restart : Except SupervisorError PluginRecord :=
  if record.state = .ready ∨ record.state = .busy ∨ record.state = .failed then
    .ok { record with state := .restarting }
  else record.illegalTransition plugin "restart"

def markReady : Except SupervisorError PluginRecord :=
  if record.state = .starting ∨ record.state = .busy ∨ record.state = .restarting then
    .ok { record with state := .ready }
  else record.illegalTransition plugin "mark ready"

def markBusy : Except SupervisorError PluginRecord :=
  if record.state ≠ .ready then record.illegalTransition plugin "mark busy"
  else .ok { record with state := .busy }

def recordFailure (config : CircuitBreakerConfig) (failure : FailureKind) (at_ : Nat) :
    Except SupervisorError PluginRecord :=
  if !failureAllowed record.state failure then
    record.illegalTransition plugin (failureOperation failure)
  else do
    record.validateEventTimestamp plugin at_
    let nextStreak := satAdd32 record.circuit.failureStreak 1
    let opensCircuit :=
      config.failureThreshold != 0 && decide (config.failureThreshold ≤ nextStreak)
    let retryAt ←
      if opensCircuit then
        match durationAdd at_ config.cooldown with
        | some retryAt => Except.ok (some retryAt)
        | none => Except.error (SupervisorError.invalidConfig cooldownOverflow)
      else Except.ok none
    return { record with
      health := record.health.countFailure failure
      circuit := ⟨nextStreak, some failure, some at_, retryAt⟩
      lastEventAt := some at_
      state := if opensCircuit then .suspended else .failed }

def recordSoftTimeout : Except SupervisorError PluginRecord :=
  if record.state ≠ .busy then record.illegalTransition plugin "record soft timeout"
  else .ok { record with
    health := { record.health with softTimeouts := satAdd32 record.health.softTimeouts 1 } }

def recordSuccess : Except SupervisorError PluginRecord :=
  if record.state = .ready ∨ record.state = .busy then
    .ok { record with circuit := { record.circuit with failureStreak := 0, retryAt := none } }
  else record.illegalTransition plugin "record success"

def resumeIfReady (now : Nat) : Except SupervisorError PluginRecord :=
  if record.state ≠ .suspended then
    record.illegalTransition plugin "resume suspended plugin"
  else
    match record.circuit.retryAt with
    | none => .error (.invalidConfig noRetryTimestamp)
    | some retryAt => do
      record.validateEventTimestamp plugin now
      let record := { record with lastEventAt := some now }
      return if retryAt ≤ now then
        { record with state := .restarting, circuit := { record.circuit with retryAt := none } }
      else record

/-- The running mean of the latencies, with the remainder it leaves. -/
def sampleLatency (sampleNs : Nat) : PluginRecord :=
  let oldCount := record.health.latencySamples
  if oldCount = 0 then
    { record with
      latencyMeanNs := sampleNs
      latencyRemainder := 0
      health := { record.health with latencySamples := 1 } }
  else if oldCount ≠ u64Max then
    let newCount := oldCount + 1
    let adjustedSample := record.latencyRemainder + sampleNs
    let record := { record with health := { record.health with latencySamples := newCount } }
    if record.latencyMeanNs ≤ adjustedSample then
      let excess := adjustedSample - record.latencyMeanNs
      { record with
        latencyMeanNs := record.latencyMeanNs + excess / newCount
        latencyRemainder := excess % newCount }
    else
      let deficit := record.latencyMeanNs - adjustedSample
      let decrement := (deficit - 1) / newCount + 1
      { record with
        latencyMeanNs := record.latencyMeanNs - decrement
        latencyRemainder := decrement * newCount - deficit }
  else record

def recordLatency (latency : Nat) : Except SupervisorError PluginRecord :=
  if record.state ≠ .busy then record.illegalTransition plugin "record suggestion latency"
  else
    let record := record.sampleLatency latency
    let latencyMs := min (latency / 1000000) u64Max
    .ok { record with
      health := { record.health with
        averageLatencyMs := min (record.latencyMeanNs / 1000000) u64Max
        peakLatencyMs := max record.health.peakLatencyMs latencyMs } }

def recordQueueDepth (depth : Nat) : PluginRecord :=
  { record with health := { record.health with queueDepth := depth } }

def recordCancellation (honoured : Bool) (delta : Nat) : PluginRecord :=
  if honoured then
    { record with health := { record.health with
        cancellationsHonoured := satAdd record.health.cancellationsHonoured delta } }
  else
    { record with health := { record.health with
        cancellationsIgnored := satAdd record.health.cancellationsIgnored delta } }

def recordStaleResultRejected (delta : Nat) : PluginRecord :=
  { record with health := { record.health with
      staleResultsRejected := satAdd record.health.staleResultsRejected delta } }

def recordObsoleteRequestDropped (delta : Nat) : PluginRecord :=
  { record with health := { record.health with
      obsoleteRequestsDropped := satAdd record.health.obsoleteRequestsDropped delta } }

def recordConcurrencyRefusal (kind : BudgetKind) (delta : Nat) : PluginRecord :=
  { record with health := { record.health with
      concurrencyRefusals := record.health.concurrencyRefusals.add kind delta } }

end PluginRecord

structure MemorySupervisor where
  circuitBreaker : CircuitBreakerConfig
  plugins : Table PluginId PluginRecord

/-- What a call does to the record of a registered plugin. -/
inductive Event where
  | start | stop | restart | markReady | markBusy
  | recordFailure (failure : FailureKind) (at_ : Nat)
  | recordSoftTimeout
  | recordSuccess
  | resumeIfReady (now : Nat)
  | recordLatency (latency : Nat)
  | recordQueueDepth (depth : Nat)
  | recordCancellation (honoured : Bool) (delta : Nat)
  | recordStaleResultRejected (delta : Nat)
  | recordObsoleteRequestDropped (delta : Nat)
  | recordConcurrencyRefusal (kind : BudgetKind) (delta : Nat)
deriving DecidableEq, Repr

def PluginRecord.apply (config : CircuitBreakerConfig) (plugin : PluginId)
    (record : PluginRecord) : Event → Except SupervisorError PluginRecord
  | .start => record.start plugin
  | .stop => record.stop plugin
  | .restart => record.restart plugin
  | .markReady => record.markReady plugin
  | .markBusy => record.markBusy plugin
  | .recordFailure failure at_ => record.recordFailure plugin config failure at_
  | .recordSoftTimeout => record.recordSoftTimeout plugin
  | .recordSuccess => record.recordSuccess plugin
  | .resumeIfReady now => record.resumeIfReady plugin now
  | .recordLatency latency => record.recordLatency plugin latency
  | .recordQueueDepth depth => .ok (record.recordQueueDepth depth)
  | .recordCancellation honoured delta => .ok (record.recordCancellation honoured delta)
  | .recordStaleResultRejected delta => .ok (record.recordStaleResultRejected delta)
  | .recordObsoleteRequestDropped delta => .ok (record.recordObsoleteRequestDropped delta)
  | .recordConcurrencyRefusal kind delta => .ok (record.recordConcurrencyRefusal kind delta)

namespace MemorySupervisor

def new (circuitBreaker : CircuitBreakerConfig) : MemorySupervisor := ⟨circuitBreaker, .empty⟩

variable (s : MemorySupervisor) (plugin : PluginId)

def register : Except SupervisorError MemorySupervisor :=
  if s.plugins.contains plugin then .error (.alreadyRegistered plugin)
  else .ok { s with plugins := s.plugins.insert plugin {} }

def unregister : MemorySupervisor × Bool :=
  ({ s with plugins := s.plugins.erase plugin }, s.plugins.contains plugin)

/-- Every call that goes through `record_mut`. -/
def record (event : Event) : Except SupervisorError MemorySupervisor :=
  match s.plugins.get? plugin with
  | none => .error (.unknownPlugin plugin)
  | some record =>
    match record.apply s.circuitBreaker plugin event with
    | .error e => .error e
    | .ok record => .ok { s with plugins := s.plugins.modify plugin fun _ => record }

end MemorySupervisor

inductive Op where
  | register (plugin : PluginId)
  | unregister (plugin : PluginId)
  | record (plugin : PluginId) (event : Event)
deriving DecidableEq, Repr

inductive Output where
  | result (result : Except SupervisorError Unit)
  | removed (found : Bool)

/-- A failed call hands the supervisor back as it was. -/
def settle (s : MemorySupervisor) :
    Except SupervisorError MemorySupervisor → MemorySupervisor × Output
  | .ok s' => (s', .result (.ok ()))
  | .error e => (s, .result (.error e))

def step (s : MemorySupervisor) : Op → Option (MemorySupervisor × Output)
  | .register plugin => some (settle s (s.register plugin))
  | .unregister plugin => some ((s.unregister plugin).1, .removed (s.unregister plugin).2)
  | .record plugin event => some (settle s (s.record plugin event))

end CriKey.Supervisor
