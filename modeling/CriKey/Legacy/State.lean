import CriKey.Base.Table
import CriKey.Core.Item
import CriKey.Scheduler.Policy

/-! The state of the legacy runtime: one live instance a plugin, the requests that wait to cross
the worker boundary, and what is displayed. -/
namespace CriKey.Legacy
open CriKey.Base CriKey.Core CriKey.Scheduler

structure InstanceId where
  get : Nat
deriving DecidableEq, Repr

inductive LegacyCallback where
  | onStart | onCatalog | onSuggest | onExecute | onActivated | onDeactivated | onEvents
deriving DecidableEq, Repr

/-- The identity of a suggestion request, and therefore the dynamic cache key. -/
structure CacheKey where
  query : String
  selected : Option ItemId
deriving DecidableEq, Repr

inductive LegacyRequestKind where
  | start
  | catalog
  | initialSuggest (query : String)
  | argumentSuggest (query : String) (selected : ItemId) (selectedItem : Item)
deriving DecidableEq, Repr

structure LegacyRequest where
  plugin : PluginId
  inst : InstanceId
  generation : Generation
  kind : LegacyRequestKind
deriving DecidableEq, Repr

def LegacyRequest.callback (request : LegacyRequest) : LegacyCallback :=
  match request.kind with
  | .start => .onStart
  | .catalog => .onCatalog
  | .initialSuggest _ => .onSuggest
  | .argumentSuggest _ _ _ => .onSuggest

inductive LegacyOutcome where
  | acknowledged
  | suggestions (items : List Item)
  | setCatalog (items : List Item)
  | mergeCatalog (items : List Item)
  | abandoned
  | executed
  | failed
deriving DecidableEq, Repr

/-- One reply, echoing the envelope of the request that caused it. -/
structure LegacyResponse where
  plugin : PluginId
  inst : InstanceId
  generation : Generation
  callback : LegacyCallback
  outcome : LegacyOutcome
deriving DecidableEq, Repr

/-! ### Instances -/

inductive DynamicCachePolicy where
  | refused | compatibilityMetadata | legacyOptimizedOverride
deriving DecidableEq, Repr

def DynamicCachePolicy.permitsCaching : DynamicCachePolicy → Bool
  | .refused => false
  | _ => true

structure LegacyCompatibility where
  dynamicSuggestionCache : Bool
deriving DecidableEq, Repr

def cachePolicyOf (profile : SchedulingProfile) (compatibility : LegacyCompatibility) :
    DynamicCachePolicy :=
  if compatibility.dynamicSuggestionCache then .compatibilityMetadata
  else if profile = .legacyStrict then .refused
  else .legacyOptimizedOverride

structure RetainedAnswer where
  key : CacheKey
  items : List Item
deriving DecidableEq, Repr

inductive WorkKind where
  | catalog
  | suggest (query : String) (selected : Option Item)
deriving DecidableEq, Repr

namespace WorkKind

def callback : WorkKind → LegacyCallback
  | catalog => .onCatalog
  | suggest _ _ => .onSuggest

def intoRequestKind : WorkKind → LegacyRequestKind
  | catalog => .catalog
  | suggest query none => .initialSuggest query
  | suggest query (some item) => .argumentSuggest query item.stableId item

def cacheKey : WorkKind → Option CacheKey
  | catalog => none
  | suggest query selected => some ⟨query, selected.map (·.stableId)⟩

end WorkKind

structure PendingWork where
  generation : Generation
  work : WorkKind
deriving DecidableEq, Repr

structure RunningWork where
  generation : Generation
  callback : LegacyCallback
  key : Option CacheKey
  dispatchedAtMs : Option Nat := none
  terminationRequested : Bool := false
  softWarned : Bool := false
  hungReported : Bool := false
deriving DecidableEq, Repr

def WorkKind.decided (work : WorkKind) (generation : Generation) : RunningWork :=
  { generation, callback := work.callback, key := work.cacheKey }

structure Instance where
  id : InstanceId
  cachePolicy : DynamicCachePolicy
  queuedStart : Bool
  started : Bool
  disabled : Bool
  running : Option RunningWork
  pending : Option PendingWork
  pendingCatalog : Bool
  lastAnswer : Option RetainedAnswer
deriving DecidableEq, Repr

namespace Instance

def new (id : InstanceId) (profile : SchedulingProfile) (compatibility : LegacyCompatibility) :
    Instance where
  id := id
  cachePolicy := cachePolicyOf profile compatibility
  queuedStart := true
  started := false
  disabled := false
  running := none
  pending := none
  pendingCatalog := false
  lastAnswer := none

/-- A queued-but-undispatched `on_start` counts as busy. -/
def busy (i : Instance) : Bool := !i.disabled && (i.running.isSome || i.queuedStart)

def pendingDepth (i : Instance) : Nat := i.pending.isSome.toNat + i.pendingCatalog.toNat

end Instance

/-- Per-plugin state that outlives any one instance. -/
structure PluginRecord where
  profile : SchedulingProfile
  compatibility : LegacyCompatibility
  inst : Instance
  catalog : List Item
deriving DecidableEq, Repr

structure LegacyDeadlines where
  softWarningMs : Nat
  hungWorkerMs : Nat
  teardownMs : Nat
deriving DecidableEq, Repr

structure ShutdownReport where
  requestedAtMs : Nat
  completedAtMs : Nat
  instances : Nat
  abandoned : Nat
deriving DecidableEq, Repr

/-- The keys of `plugins` are in registration order, which is broadcast order. -/
structure LegacyRuntime where
  deadlines : LegacyDeadlines
  plugins : Table PluginId PluginRecord
  outbox : List LegacyRequest
  nextGeneration : Nat
  nextInstance : Nat
  currentGeneration : Generation
  query : String
  selected : Option (PluginId × Item)
  visible : List Item
  shutDown : Bool
  shutdownReport : Option ShutdownReport

namespace LegacyRuntime

def new (deadlines : LegacyDeadlines) : LegacyRuntime where
  deadlines := deadlines
  plugins := .empty
  outbox := []
  nextGeneration := 0
  nextInstance := 0
  currentGeneration := .zero
  query := ""
  selected := none
  visible := []
  shutDown := false
  shutdownReport := none

/-- The live instance of a plugin. -/
def inst? (rt : LegacyRuntime) (p : PluginId) : Option Instance :=
  (rt.plugins.get? p).map (·.inst)

def catalog (rt : LegacyRuntime) (p : PluginId) : List Item :=
  ((rt.plugins.get? p).map (·.catalog)).getD []

def setInstance (p : PluginId) (i : Instance) (rt : LegacyRuntime) : LegacyRuntime :=
  { rt with plugins := rt.plugins.modify p fun record => { record with inst := i } }

end LegacyRuntime
end CriKey.Legacy
