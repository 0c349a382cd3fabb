import CriKey.Core.Generation
import CriKey.Core.Text

/-! Scheduling profiles, plugin policies and the scheduler configuration, with the
normalisation every policy passes before it is stored. -/
namespace CriKey.Scheduler
open CriKey.Base CriKey.Core

inductive SchedulingProfile where
  | legacyStrict | legacyOptimized | modern
deriving DecidableEq, Repr

namespace SchedulingProfile

def allowsTimeDebounce : SchedulingProfile → Bool
  | legacyStrict => false
  | _ => true

def allowsHostGating : SchedulingProfile → Bool
  | legacyStrict => false
  | _ => true

end SchedulingProfile

structure DebouncePolicy where
  debounceMs : Nat
  maximumWaitMs : Option Nat
  leadingEdge : Bool
  trailingEdge : Bool
  minimumQueryLength : Nat

def DebouncePolicy.default : DebouncePolicy where
  debounceMs := 50
  maximumWaitMs := some 200
  leadingEdge := true
  trailingEdge := true
  minimumQueryLength := 0

structure ActivationPolicy where
  supportsEmptyQuery : Bool
  prefixes : List String
  keywords : List String
  patterns : List ActivationPattern

def ActivationPolicy.default : ActivationPolicy where
  supportsEmptyQuery := false
  prefixes := []
  keywords := []
  patterns := []

/-- Overflow behaviour of one plugin's undispatched request queue. -/
inductive QueuePolicy where
  | replaceOldest | rejectNewest | dropOldest
deriving DecidableEq, Repr

structure PluginPolicy where
  profile : SchedulingProfile
  debounce : DebouncePolicy
  activation : ActivationPolicy
  maxConcurrentRequests : Nat
  queuePolicy : QueuePolicy
  queueCapacity : Nat

namespace PluginPolicy

def legacyStrict : PluginPolicy where
  profile := .legacyStrict
  debounce :=
    { debounceMs := 0
      maximumWaitMs := none
      leadingEdge := true
      trailingEdge := true
      minimumQueryLength := 0 }
  activation := { ActivationPolicy.default with supportsEmptyQuery := true }
  maxConcurrentRequests := 1
  queuePolicy := .replaceOldest
  queueCapacity := 1

def modern : PluginPolicy where
  profile := .modern
  debounce := .default
  activation := .default
  maxConcurrentRequests := 1
  queuePolicy := .replaceOldest
  queueCapacity := 1

end PluginPolicy

/-- Bounds and budgets. The capacity is a machine word, which the saturating queue
count relies on. -/
structure SchedulerConfig where
  requestQueueCapacity : Nat
  requestQueueCapacity_le : requestQueueCapacity ≤ u64Max
  resultQueueCapacity : Nat
  perPluginDispatchBudget : Nat
  dispatchBudgetPerTick : Nat
  traceCapacity : Nat

def SchedulerConfig.default : SchedulerConfig where
  requestQueueCapacity := 64
  requestQueueCapacity_le := by decide
  resultQueueCapacity := 64
  perPluginDispatchBudget := 1
  dispatchBudgetPerTick := 16
  traceCapacity := 1024

def normalizeConfig (config : SchedulerConfig) : SchedulerConfig where
  requestQueueCapacity := max config.requestQueueCapacity 1
  requestQueueCapacity_le := Nat.max_le.mpr ⟨config.requestQueueCapacity_le, by decide⟩
  resultQueueCapacity := max config.resultQueueCapacity 1
  perPluginDispatchBudget := max config.perPluginDispatchBudget 1
  dispatchBudgetPerTick := max config.dispatchBudgetPerTick 1
  traceCapacity := max config.traceCapacity 1

/-- `retain_mut` over the declared literals: trimmed, lower-cased, empty ones gone. -/
def normalizeLiterals [Lowercase] (literals : List String) : List String :=
  (literals.map fun literal => toLowercase (trim literal)).filter (· ≠ "")

def normalizePolicy [Lowercase] (policy : PluginPolicy) : PluginPolicy :=
  if policy.profile = .legacyStrict then .legacyStrict
  else
    let debounce := policy.debounce
    { policy with
      maxConcurrentRequests := max policy.maxConcurrentRequests 1
      queueCapacity := max policy.queueCapacity 1
      debounce :=
        if !debounce.leadingEdge && !debounce.trailingEdge then
          { debounce with trailingEdge := true }
        else debounce
      activation :=
        { policy.activation with
          prefixes := normalizeLiterals policy.activation.prefixes
          keywords := normalizeLiterals policy.activation.keywords } }

variable (policy : PluginPolicy)

def effectiveConcurrencyLimit : Nat :=
  if policy.profile = .legacyStrict then 1 else policy.maxConcurrentRequests

def effectiveQueuePolicy : QueuePolicy :=
  if policy.profile = .legacyStrict then .replaceOldest else policy.queuePolicy

def effectiveQueueCapacity : Nat :=
  if policy.profile = .legacyStrict then 1 else policy.queueCapacity

/-- What `normalizePolicy` establishes and every stored policy keeps. -/
structure PluginPolicy.Normal : Prop where
  strict : policy.profile = .legacyStrict → policy = .legacyStrict
  capacity : 1 ≤ effectiveQueueCapacity policy
  concurrency : 1 ≤ effectiveConcurrencyLimit policy
  edge : policy.debounce.leadingEdge = true ∨ policy.debounce.trailingEdge = true

lemma normalizePolicy_normal [Lowercase] (policy : PluginPolicy) :
    (normalizePolicy policy).Normal := by
  by_cases hp : policy.profile = .legacyStrict
  · have he : normalizePolicy policy = .legacyStrict := by simp [normalizePolicy, hp]
    rw [he]
    exact ⟨fun _ => rfl, by decide, by decide, Or.inl rfl⟩
  · refine ⟨?_, ?_, ?_, ?_⟩
    · intro h
      simp [normalizePolicy, hp] at h
    · simp [normalizePolicy, effectiveQueueCapacity, hp]
    · simp [normalizePolicy, effectiveConcurrencyLimit, hp]
    · cases hl : policy.debounce.leadingEdge <;> cases ht : policy.debounce.trailingEdge <;>
        simp [normalizePolicy, hp, hl, ht]

lemma normalizeConfig_capacity (config : SchedulerConfig) :
    1 ≤ (normalizeConfig config).requestQueueCapacity := Nat.le_max_right _ _

end CriKey.Scheduler
