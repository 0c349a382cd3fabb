import CriKey.Legacy.State

/-! The event coalescer of the legacy layer: what is recorded for each plugin, the burst of raw
notifications in front of it, and what a tick delivers. Times are milliseconds. -/
namespace CriKey.Events
open CriKey.Base BitVec
open CriKey.Core (PluginId)
open CriKey.Legacy (LegacyCallback)

/-! ### Flags -/

def allBits : BitVec 32 := 0x7f

/-- A set of flags has defined bits only. -/
structure LegacyEventFlags where
  bits : BitVec 32
  defined : bits &&& ~~~allBits = 0
deriving DecidableEq, Repr

namespace LegacyEventFlags

@[ext] lemma ext {f g : LegacyEventFlags} (h : f.bits = g.bits) : f = g := by
  cases g
  cases h
  rfl

def empty : LegacyEventFlags := ⟨0, by decide⟩
def appConfig : LegacyEventFlags := ⟨0x01, by decide⟩
def packageConfig : LegacyEventFlags := ⟨0x02, by decide⟩
def packages : LegacyEventFlags := ⟨0x08, by decide⟩
def filesystem : LegacyEventFlags := ⟨0x10, by decide⟩
def desktop : LegacyEventFlags := ⟨0x20, by decide⟩
def startMenu : LegacyEventFlags := ⟨0x40, by decide⟩

def isEmpty (flags : LegacyEventFlags) : Bool := flags.bits = 0

def contains (flags other : LegacyEventFlags) : Bool := flags.bits &&& other.bits = other.bits

def insert (flags other : LegacyEventFlags) : LegacyEventFlags where
  bits := flags.bits ||| other.bits
  defined := by
    have hdistrib : (flags.bits ||| other.bits) &&& ~~~allBits =
        (flags.bits &&& ~~~allBits) ||| (other.bits &&& ~~~allBits) := by
      ext i
      simp [Bool.and_or_distrib_right]
    rw [hdistrib, flags.defined, other.defined]
    rfl

lemma isEmpty_iff {flags : LegacyEventFlags} : flags.isEmpty = true ↔ flags = empty := by
  rw [isEmpty, decide_eq_true_eq]
  exact ⟨fun h => ext h, fun h => h ▸ rfl⟩

@[simp] lemma insert_empty (flags : LegacyEventFlags) : flags.insert empty = flags := by
  ext1
  exact or_zero

@[simp] lemma empty_insert (flags : LegacyEventFlags) : empty.insert flags = flags := by
  ext1
  exact zero_or

lemma insert_assoc (f g h : LegacyEventFlags) : (f.insert g).insert h = f.insert (g.insert h) := by
  ext1
  exact or_assoc _ _ _

lemma contains_insert_left (f g : LegacyEventFlags) : (f.insert g).contains f = true := by
  rw [contains, decide_eq_true_eq]
  ext i
  simp only [insert, getElem_and, getElem_or]
  cases f.bits[i] <;> simp

lemma contains_insert_right (f g : LegacyEventFlags) : (f.insert g).contains g = true := by
  rw [contains, decide_eq_true_eq]
  ext i
  simp only [insert, getElem_and, getElem_or]
  cases g.bits[i] <;> simp

lemma contains_trans {f g h : LegacyEventFlags} (hfg : f.contains g = true)
    (hgh : g.contains h = true) : f.contains h = true := by
  rw [contains, decide_eq_true_eq] at hfg hgh ⊢
  rw [← hgh, ← BitVec.and_assoc, hfg]

def union : List LegacyEventFlags → LegacyEventFlags
  | [] => empty
  | f :: fs => f.insert (union fs)

lemma union_concat (fs : List LegacyEventFlags) (f : LegacyEventFlags) :
    union (fs ++ [f]) = (union fs).insert f := by
  induction fs with
  | nil => simp [union]
  | cons g fs ih => rw [List.cons_append, union, union, ih, insert_assoc]

lemma union_contains {fs : List LegacyEventFlags} {f : LegacyEventFlags} (h : f ∈ fs) :
    (union fs).contains f = true := by
  induction fs with
  | nil => cases h
  | cons g fs ih =>
    cases List.mem_cons.mp h with
    | inl heq =>
      rw [heq]
      exact contains_insert_left _ _
    | inr hmem => exact contains_trans (contains_insert_right _ _) (ih hmem)

end LegacyEventFlags

/-! ### Raw notifications -/

inductive WatchScope where
  | applicationConfig
  | packageConfig
  | packageFiles
  | desktop
  | startMenu
  | pluginData
deriving DecidableEq, Repr

def LegacyEventFlags.forWatchScope (scope : WatchScope) : LegacyEventFlags :=
  let specific :=
    match scope with
    | .applicationConfig => appConfig
    | .packageConfig => packageConfig
    | .packageFiles => packages
    | .desktop => desktop
    | .startMenu => startMenu
    | .pluginData => empty
  specific.insert filesystem

inductive RawFilesystemKind where
  | created
  | modified
  | removed
  | renamed
deriving DecidableEq, Repr

structure RawFilesystemNotification where
  scope : WatchScope
  path : String
  kind : RawFilesystemKind
deriving DecidableEq, Repr

structure CoalescerConfig where
  rawFilesystemWindowMs : Nat
  rawFilesystemMaximumWaitMs : Nat
  activationWindowMs : Nat
deriving DecidableEq, Repr

def maxRetainedRawNotifications : Nat := 256

structure RawBurst where
  flags : LegacyEventFlags
  firstAt : Nat
  lastAt : Nat
  retained : List RawFilesystemNotification
deriving DecidableEq, Repr

def RawBurst.new (time : Nat) : RawBurst := ⟨.empty, time, time, []⟩

/-- The flags and the times are taken before the inspection buffer is looked at. -/
def RawBurst.absorb (burst : RawBurst) (notification : RawFilesystemNotification)
    (flags : LegacyEventFlags) (time : Nat) : RawBurst where
  flags := burst.flags.insert flags
  firstAt := min burst.firstAt time
  lastAt := max burst.lastAt time
  retained :=
    if notification ∈ burst.retained then burst.retained
    else if burst.retained.length ≥ maxRetainedRawNotifications then burst.retained
    else burst.retained ++ [notification]

def RawBurst.deadline (burst : RawBurst) (config : CoalescerConfig) : Nat :=
  let sliding := satAdd burst.lastAt config.rawFilesystemWindowMs
  let maximum := satAdd burst.firstAt config.rawFilesystemMaximumWaitMs
  min sliding maximum

/-! ### Plugins -/

inductive ActivationState where
  | activated
  | deactivated
deriving DecidableEq, Repr

inductive NoticeKind where
  | activated
  | deactivated
deriving DecidableEq, Repr

structure PendingNotice where
  kind : NoticeKind
  dueAt : Nat
deriving DecidableEq, Repr

structure InFlight where
  callback : LegacyCallback
  since : Nat
deriving DecidableEq, Repr

structure PluginSlot where
  pending : LegacyEventFlags := .empty
  pendingSince : Option Nat := none
  notice : Option PendingNotice := none
  inFlight : Option InFlight := none
  state : ActivationState := .deactivated
deriving DecidableEq, Repr

/-- The older of the time a slot has waited since and a new one. -/
def PluginSlot.waitingSince (slot : PluginSlot) (time : Nat) : Option Nat :=
  some (match slot.pendingSince with
    | some existing => min existing time
    | none => time)

def mergePending (flags : LegacyEventFlags) (time : Nat) (slot : PluginSlot) : PluginSlot :=
  { slot with pending := slot.pending.insert flags, pendingSince := slot.waitingSince time }

structure EventDelivery where
  plugin : PluginId
  callback : LegacyCallback
  flags : LegacyEventFlags
  time : Nat
deriving DecidableEq, Repr

/-- What a tick does to one plugin: nothing while a callback runs, a due notice before events,
and everything pending as one union. -/
def PluginSlot.deliver (now : Nat) (slot : PluginSlot) :
    PluginSlot × Option (LegacyCallback × LegacyEventFlags) :=
  if slot.inFlight.isSome then (slot, none)
  else
    match slot.notice.filter (·.dueAt ≤ now) with
    | some notice =>
      let (state, callback) : ActivationState × LegacyCallback :=
        match notice.kind with
        | .activated => (.activated, .onActivated)
        | .deactivated => (.deactivated, .onDeactivated)
      ({ slot with
          notice := none
          state
          pendingSince := if slot.pending.isEmpty then none else slot.pendingSince
          inFlight := some ⟨callback, now⟩ }, some (callback, .empty))
    | none =>
      if slot.pending.isEmpty then (slot, none)
      else
        ({ slot with
            pending := .empty
            pendingSince := if slot.notice.isNone then none else slot.pendingSince
            inFlight := some ⟨.onEvents, now⟩ }, some (.onEvents, slot.pending))

/-! ### The coalescer -/

structure EventCoalescer where
  config : CoalescerConfig
  plugins : Table PluginId PluginSlot
  rawBurst : Option RawBurst

namespace EventCoalescer

def new (config : CoalescerConfig) : EventCoalescer := ⟨config, .empty, none⟩

variable (c : EventCoalescer) (plugin : PluginId)

def registerPlugin : EventCoalescer :=
  { c with plugins := if c.plugins.contains plugin then c.plugins else c.plugins.insert plugin {} }

def unregisterPlugin : EventCoalescer :=
  { c with plugins := c.plugins.erase plugin }

def postEvent (flags : LegacyEventFlags) (time : Nat) : EventCoalescer :=
  if flags.isEmpty then c
  else { c with plugins := c.plugins.modify plugin (mergePending flags time) }

def broadcastEvent (flags : LegacyEventFlags) (time : Nat) : EventCoalescer :=
  if flags.isEmpty then c
  else { c with plugins := c.plugins.mapValues (mergePending flags time) }

def noteRawFilesystem (notification : RawFilesystemNotification) (time : Nat) : EventCoalescer :=
  let flags := LegacyEventFlags.forWatchScope notification.scope
  let burst := c.rawBurst.getD (.new time)
  { c with rawBurst := some (burst.absorb notification flags time) }

def note (kind : NoticeKind) (time dueAt : Nat) : EventCoalescer :=
  { c with plugins := c.plugins.modify plugin fun slot =>
      { slot with notice := some ⟨kind, dueAt⟩, pendingSince := slot.waitingSince time } }

def noteActivated (time : Nat) : EventCoalescer :=
  c.note plugin .activated time time

def noteDeactivated (time : Nat) : EventCoalescer :=
  c.note plugin .deactivated time (satAdd time c.config.activationWindowMs)

/-- A duplicate start is ignored. -/
def beginCallback (callback : LegacyCallback) (time : Nat) : EventCoalescer :=
  { c with plugins := c.plugins.modify plugin fun slot =>
      { slot with inFlight := slot.inFlight.or (some ⟨callback, time⟩) } }

def endCallback : EventCoalescer :=
  { c with plugins := c.plugins.modify plugin fun slot => { slot with inFlight := none } }

def pendingFlags : LegacyEventFlags :=
  match c.plugins.get? plugin with
  | some slot => slot.pending
  | none => .empty

def flushDueRawBurst (now : Nat) : EventCoalescer :=
  match c.rawBurst with
  | none => c
  | some burst =>
    if burst.deadline c.config ≤ now then
      { c with
        rawBurst := none
        plugins := c.plugins.mapValues (mergePending burst.flags burst.lastAt) }
    else c

def inOrder : List (PluginId × PluginSlot) :=
  c.plugins.entries.mergeSort fun left right => decide (left.1.name ≤ right.1.name)

def tick (now : Nat) : EventCoalescer × List EventDelivery :=
  let c := c.flushDueRawBurst now
  let deliveries := c.inOrder.filterMap fun entry =>
    (entry.2.deliver now).2.map fun given => ⟨entry.1, given.1, given.2, now⟩
  ({ c with plugins := c.plugins.mapValues fun slot => (slot.deliver now).1 }, deliveries)

end EventCoalescer

/-! ### Operations -/

inductive Operation where
  | register (plugin : PluginId)
  | unregister (plugin : PluginId)
  | post (plugin : PluginId) (flags : LegacyEventFlags) (time : Nat)
  | broadcast (flags : LegacyEventFlags) (time : Nat)
  | noteRaw (notification : RawFilesystemNotification) (time : Nat)
  | activated (plugin : PluginId) (time : Nat)
  | deactivated (plugin : PluginId) (time : Nat)
  | beginCallback (plugin : PluginId) (callback : LegacyCallback) (time : Nat)
  | endCallback (plugin : PluginId)
  | tick (now : Nat)
deriving DecidableEq, Repr

def step (c : EventCoalescer) : Operation → Option (EventCoalescer × List EventDelivery)
  | .register plugin => some (c.registerPlugin plugin, [])
  | .unregister plugin => some (c.unregisterPlugin plugin, [])
  | .post plugin flags time => some (c.postEvent plugin flags time, [])
  | .broadcast flags time => some (c.broadcastEvent flags time, [])
  | .noteRaw notification time => some (c.noteRawFilesystem notification time, [])
  | .activated plugin time => some (c.noteActivated plugin time, [])
  | .deactivated plugin time => some (c.noteDeactivated plugin time, [])
  | .beginCallback plugin callback time => some (c.beginCallback plugin callback time, [])
  | .endCallback plugin => some (c.endCallback plugin, [])
  | .tick now => some (c.tick now)

end CriKey.Events
