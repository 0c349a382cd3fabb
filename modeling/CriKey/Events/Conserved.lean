import CriKey.Base.Machine
import CriKey.Events.Coalescer

/-! Events are neither lost nor repeated: what a trace of operations says about one plugin,
against what the coalescer holds and delivers. -/
namespace CriKey.Events
open CriKey.Base LegacyEventFlags Table List Option EventCoalescer
open CriKey.Core (PluginId)
open CriKey.Legacy (LegacyCallback)

abbrev Trace := List (Operation × List EventDelivery)

/-- What a trace says about one plugin: whether it is registered, the flags it was given since
its last event delivery, whether a callback of it runs, and the raw notifications of the burst
that is open, with their times. -/
structure Ledger where
  registered : Bool
  given : LegacyEventFlags
  busy : Bool
  raw : List (LegacyEventFlags × Nat)
deriving DecidableEq, Repr

def Ledger.blank : Ledger := ⟨false, .empty, false, []⟩

/-- The window after the last notification, cut off by the longest wait after the first. -/
def deadlineOf (add : Nat → Nat → Nat) (config : CoalescerConfig)
    (raw : List (LegacyEventFlags × Nat)) :
    Option Nat :=
  match (raw.map Prod.snd).min?, (raw.map Prod.snd).max? with
  | some first, some last =>
    some (min (add last config.rawFilesystemWindowMs) (add first config.rawFilesystemMaximumWaitMs))
  | _, _ => none

/-- The flags a tick takes from the open burst. Times stop at the largest machine number. -/
def Ledger.flushed (config : CoalescerConfig) (now : Nat) (ledger : Ledger) : LegacyEventFlags :=
  if (deadlineOf satAdd config ledger.raw).any (· ≤ now) then .union (ledger.raw.map Prod.fst)
  else .empty

def isEvents (plugin : PluginId) (delivery : EventDelivery) : Bool :=
  delivery.plugin = plugin && delivery.callback = .onEvents

variable (config : CoalescerConfig) (plugin : PluginId)

def Ledger.record (ledger : Ledger) :
    Operation × List EventDelivery → Ledger
  | (.register q, _) =>
    if q = plugin && !ledger.registered then
      { ledger with registered := true, given := .empty, busy := false }
    else ledger
  | (.unregister q, _) => if q = plugin then { ledger with registered := false } else ledger
  | (.post q flags _, _) =>
    if q = plugin then { ledger with given := ledger.given.insert flags } else ledger
  | (.broadcast flags _, _) => { ledger with given := ledger.given.insert flags }
  | (.noteRaw notification time, _) =>
    { ledger with raw := ledger.raw ++ [(.forWatchScope notification.scope, time)] }
  | (.activated _ _, _) | (.deactivated _ _, _) => ledger
  | (.beginCallback q _ _, _) => if q = plugin then { ledger with busy := true } else ledger
  | (.endCallback q, _) => if q = plugin then { ledger with busy := false } else ledger
  | (.tick now, deliveries) =>
    { registered := ledger.registered
      given :=
        if deliveries.any (isEvents plugin) then .empty
        else ledger.given.insert (ledger.flushed config now)
      busy := ledger.busy || deliveries.any (·.plugin = plugin)
      raw := if (deadlineOf satAdd config ledger.raw).any (· ≤ now) then [] else ledger.raw }

def Ledger.read (trace : Trace) : Ledger :=
  trace.foldl (Ledger.record config plugin) .blank

/-- What a tick after a trace owes to one plugin. -/
structure Conserved (ledger : Ledger) (now : Nat)
    (after : EventCoalescer) (deliveries : List EventDelivery) : Prop where
  /-- An event delivery carries everything given since the last one, and never nothing. -/
  events : ∀ d ∈ deliveries, isEvents plugin d = true →
    ledger.registered = true ∧ d.flags = ledger.given.insert (ledger.flushed config now) ∧
      d.flags ≠ .empty
  /-- Past the deadline of its burst, a raw notification has reached the plugin. -/
  raw : ∀ note ∈ ledger.raw, ∀ deadline ∈ deadlineOf (· + ·) config ledger.raw, deadline ≤ now →
    ledger.registered = true →
    ((LegacyEventFlags.union ((deliveries.filter (isEvents plugin)).map (·.flags))).insert
      (after.pendingFlags plugin)).contains note.1 = true
  /-- Nothing starts while a callback runs, and one thing at a time. -/
  serial : (deliveries.filter (·.plugin = plugin)).length ≤ if ledger.busy then 0 else 1

/-! ### The state agrees with the trace -/

structure Agrees (ledger : Ledger)
    (c : EventCoalescer) : Prop where
  config : c.config = config
  registered : (c.plugins.get? plugin).isSome = ledger.registered
  slot : ∀ slot, c.plugins.get? plugin = some slot →
    slot.pending = ledger.given ∧ slot.inFlight.isSome = ledger.busy
  burst : match c.rawBurst with
    | none => ledger.raw = []
    | some burst => burst.flags = .union (ledger.raw.map Prod.fst) ∧
        (ledger.raw.map Prod.snd).min? = some burst.firstAt ∧
        (ledger.raw.map Prod.snd).max? = some burst.lastAt

variable {config : CoalescerConfig} {plugin : PluginId} {ledger next : Ledger} {c : EventCoalescer}

lemma agrees_new : Agrees config plugin .blank (.new config) :=
  ⟨rfl, rfl, nofun, rfl⟩

section
variable (h : Agrees config plugin ledger c)
include h

lemma Agrees.withPlugins (plugins : Table PluginId PluginSlot)
    (hraw : next.raw = ledger.raw) (hregistered : (plugins.get? plugin).isSome = next.registered)
    (hslot : ∀ slot, plugins.get? plugin = some slot →
      slot.pending = next.given ∧ slot.inFlight.isSome = next.busy) :
    Agrees config plugin next { c with plugins } :=
  ⟨h.config, hregistered, hslot, by simpa only [hraw] using h.burst⟩

/-- A change of the plugin's own slot. -/
lemma Agrees.mapSlot {plugins : Table PluginId PluginSlot} {f : PluginSlot → PluginSlot}
    (hget : plugins.get? plugin = (c.plugins.get? plugin).map f)
    (hraw : next.raw = ledger.raw) (hregistered : next.registered = ledger.registered)
    (hf : ∀ slot, slot.pending = ledger.given → slot.inFlight.isSome = ledger.busy →
      (f slot).pending = next.given ∧ (f slot).inFlight.isSome = next.busy) :
    Agrees config plugin next { c with plugins } := by
  refine h.withPlugins _ hraw ?_ ?_
  · rw [hget, isSome_map, h.registered, hregistered]
  · intro slot hslot
    rw [hget, map_eq_some_iff] at hslot
    obtain ⟨old, hold, rfl⟩ := hslot
    exact hf old (h.slot old hold).1 (h.slot old hold).2

/-- A change of the other slots. -/
lemma Agrees.others {plugins : Table PluginId PluginSlot}
    (hsame : plugins.get? plugin = c.plugins.get? plugin) :
    Agrees config plugin ledger { c with plugins } :=
  h.withPlugins _ rfl (by rw [hsame, h.registered]) fun slot hslot => h.slot slot (hsame ▸ hslot)

lemma Agrees.modify_ne {q : PluginId} (hq : q ≠ plugin) (f : PluginSlot → PluginSlot) :
    Agrees config plugin ledger { c with plugins := c.plugins.modify q f } :=
  h.others (get?_modify_ne c.plugins f (Ne.symm hq))

lemma Agrees.register (q : PluginId) :
    Agrees config plugin (ledger.record config plugin (.register q, [])) (c.registerPlugin q) := by
  rw [registerPlugin, Ledger.record]
  by_cases hq : q = plugin
  · subst hq
    cases hknown : c.plugins.get? q with
    | some slot =>
      have hregistered : ledger.registered = true := by rw [← h.registered, hknown, isSome_some]
      simpa [Table.contains, hknown, hregistered] using h
    | none =>
      have hregistered : ledger.registered = false := by
        rw [← h.registered, hknown, isSome_none]
      simp only [Table.contains, hknown, isSome_none, hregistered, decide_true,
        Bool.not_false, Bool.and_self, if_true, Bool.false_eq_true, if_false]
      refine h.withPlugins _ rfl ?_ ?_
      · rw [Table.get?_insert, if_pos rfl, Option.isSome_some]
      · intro slot hslot
        rw [Table.get?_insert, if_pos rfl] at hslot
        cases hslot
        exact ⟨rfl, rfl⟩
  · simp only [hq, decide_false, Bool.false_and, Bool.false_eq_true, if_false]
    split
    · exact h
    have hsame : (c.plugins.insert q {}).get? plugin = c.plugins.get? plugin := by
      rw [get?_insert, if_neg (Ne.symm hq)]
    exact h.others hsame

lemma Agrees.unregister (q : PluginId) :
    Agrees config plugin (ledger.record config plugin (.unregister q, []))
      (c.unregisterPlugin q) := by
  rw [unregisterPlugin, Ledger.record]
  by_cases hq : q = plugin
  · subst hq
    have hgone : (c.plugins.erase q).get? q = none := by rw [get?_erase, if_pos rfl]
    rw [if_pos rfl]
    exact h.withPlugins _ rfl (by rw [hgone, isSome_none]) fun slot hslot => by
      rw [hgone] at hslot
      cases hslot
  · have hsame : (c.plugins.erase q).get? plugin = c.plugins.get? plugin := by
      rw [get?_erase, if_neg (Ne.symm hq)]
    rw [if_neg hq]
    exact h.others hsame

lemma Agrees.post (q : PluginId) (flags : LegacyEventFlags)
    (time : Nat) : Agrees config plugin (ledger.record config plugin (.post q flags time, []))
      (c.postEvent q flags time) := by
  rw [postEvent, Ledger.record]
  by_cases hempty : flags.isEmpty = true
  · rw [isEmpty_iff.mp hempty, insert_empty, ite_self]
    exact h
  rw [if_neg hempty]
  by_cases hq : q = plugin
  · subst hq
    rw [if_pos rfl]
    refine h.mapSlot (get?_modify_self ..) rfl rfl fun slot hpending hbusy => ⟨?_, hbusy⟩
    rw [mergePending, hpending]
  · rw [if_neg hq]
    exact h.modify_ne hq _

lemma Agrees.broadcast (flags : LegacyEventFlags)
    (time : Nat) : Agrees config plugin (ledger.record config plugin (.broadcast flags time, []))
      (c.broadcastEvent flags time) := by
  rw [broadcastEvent, Ledger.record]
  by_cases hempty : flags.isEmpty = true
  · rw [isEmpty_iff.mp hempty, insert_empty]
    exact h
  · rw [if_neg hempty]
    refine h.mapSlot (get?_mapValues ..) rfl rfl fun slot hpending hbusy => ⟨?_, hbusy⟩
    rw [mergePending, hpending]

end

lemma min?_concat {times : List Nat} {first : Nat} (h : times.min? = some first) (time : Nat) :
    (times ++ [time]).min? = some (min first time) := by
  cases times with
  | nil => cases h
  | cons t times =>
    rw [cons_append, min?_cons', foldl_append, some.inj h]
    rfl

lemma max?_concat {times : List Nat} {last : Nat} (h : times.max? = some last) (time : Nat) :
    (times ++ [time]).max? = some (max last time) := by
  cases times with
  | nil => cases h
  | cons t times =>
    rw [cons_append, max?_cons', foldl_append, some.inj h]
    rfl

section
variable (h : Agrees config plugin ledger c)
include h

lemma Agrees.noteRaw (notification : RawFilesystemNotification)
    (time : Nat) :
    Agrees config plugin (ledger.record config plugin (.noteRaw notification time, []))
      (c.noteRawFilesystem notification time) := by
  refine ⟨h.config, h.registered, h.slot, ?_⟩
  have hburst := h.burst
  simp only [noteRawFilesystem, Ledger.record, map_append, map_cons,
    map_nil, union_concat, RawBurst.absorb]
  cases hopen : c.rawBurst with
  | none =>
    rw [hopen] at hburst
    simp [hburst, RawBurst.new, union]
  | some burst =>
    rw [hopen] at hburst
    obtain ⟨hflags, hfirst, hlast⟩ := hburst
    refine ⟨by rw [getD_some, hflags], ?_, ?_⟩
    · exact min?_concat hfirst time
    · exact max?_concat hlast time

lemma Agrees.note (q : PluginId) (kind : NoticeKind)
    (time dueAt : Nat) : Agrees config plugin ledger (c.note q kind time dueAt) := by
  by_cases hq : q = plugin
  · subst hq
    exact h.mapSlot (get?_modify_self ..) rfl rfl fun slot hpending hbusy => ⟨hpending, hbusy⟩
  · exact h.modify_ne hq _

lemma Agrees.beginCallback (q : PluginId) (callback : LegacyCallback) (time : Nat) :
    Agrees config plugin (ledger.record config plugin (.beginCallback q callback time, []))
      (c.beginCallback q callback time) := by
  rw [EventCoalescer.beginCallback, Ledger.record]
  by_cases hq : q = plugin
  · subst hq
    rw [if_pos rfl]
    refine h.mapSlot (get?_modify_self ..) rfl rfl fun slot hpending hbusy => ⟨hpending, ?_⟩
    cases slot.inFlight <;> rfl
  · rw [if_neg hq]
    exact h.modify_ne hq _

lemma Agrees.endCallback (q : PluginId) :
    Agrees config plugin (ledger.record config plugin (.endCallback q, [])) (c.endCallback q) := by
  rw [EventCoalescer.endCallback, Ledger.record]
  by_cases hq : q = plugin
  · subst hq
    rw [if_pos rfl]
    exact h.mapSlot (get?_modify_self ..) rfl rfl fun slot hpending _ => ⟨hpending, rfl⟩
  · rw [if_neg hq]
    exact h.modify_ne hq _

end

/-! ### Ticks -/

lemma Agrees.deadline (h : Agrees config plugin ledger c) :
    deadlineOf satAdd config ledger.raw = c.rawBurst.map (·.deadline config) := by
  have hburst := h.burst
  cases hopen : c.rawBurst with
  | none =>
    rw [hopen] at hburst
    rw [hburst]
    rfl
  | some burst =>
    rw [hopen] at hburst
    rw [deadlineOf, hburst.2.1, hburst.2.2]
    rfl

lemma deadline_reached {raw : List (LegacyEventFlags × Nat)} {deadline now : Nat}
    (h : deadline ∈ deadlineOf (· + ·) config raw) (hdue : deadline ≤ now) :
    (deadlineOf satAdd config raw).any (· ≤ now) = true := by
  rw [deadlineOf] at h ⊢
  cases hfirst : (raw.map Prod.snd).min? with
  | none => simp [hfirst] at h
  | some first =>
    cases hlast : (raw.map Prod.snd).max? with
    | none => simp [hlast] at h
    | some last =>
      rw [hfirst, hlast] at h
      cases h
      have hsliding := satAdd_le_add last config.rawFilesystemWindowMs
      have hmaximum := satAdd_le_add first config.rawFilesystemMaximumWaitMs
      simp only [any_some, decide_eq_true_eq]
      omega

/-- The ledger between the two halves of a tick. -/
def Ledger.flush (config : CoalescerConfig) (now : Nat) (ledger : Ledger) : Ledger :=
  { ledger with
    given := ledger.given.insert (ledger.flushed config now)
    raw := if (deadlineOf satAdd config ledger.raw).any (· ≤ now) then [] else ledger.raw }

lemma Agrees.flush (h : Agrees config plugin ledger c) (now : Nat) :
    Agrees config plugin (ledger.flush config now) (c.flushDueRawBurst now) := by
  have hburst := h.burst
  rw [Ledger.flush, Ledger.flushed, flushDueRawBurst, h.deadline]
  cases hopen : c.rawBurst with
  | none =>
    simp only [map_none, any_none, Bool.false_eq_true, if_false, insert_empty]
    exact h
  | some burst =>
    rw [hopen] at hburst
    simp only [map_some, any_some, decide_eq_true_eq]
    by_cases hdue : burst.deadline config ≤ now
    · simp only [h.config, hdue, if_true]
      refine ⟨rfl, ?_, ?_, rfl⟩
      · rw [get?_mapValues, isSome_map, h.registered]
      · intro slot hslot
        rw [get?_mapValues, map_eq_some_iff] at hslot
        obtain ⟨old, hold, rfl⟩ := hslot
        obtain ⟨hpending, hbusy⟩ := h.slot old hold
        exact ⟨by rw [mergePending, hpending, hburst.1], hbusy⟩
    · simp only [h.config, hdue, if_false, insert_empty]
      exact h

lemma deliver_cases (slot : PluginSlot) (now : Nat) : slot.deliver now = (slot, none) ∨
      (slot.inFlight = none ∧ ∃ after callback,
        slot.deliver now = (after, some (callback, .empty)) ∧
        callback ≠ .onEvents ∧ after.pending = slot.pending ∧ after.inFlight.isSome = true) ∨
      (slot.inFlight = none ∧ ∃ after, slot.deliver now = (after, some (.onEvents, slot.pending)) ∧
        slot.pending ≠ .empty ∧ after.pending = .empty ∧ after.inFlight.isSome = true) := by
  rw [PluginSlot.deliver]
  cases hflight : slot.inFlight with
  | some _ => exact .inl rfl
  | none =>
    simp only [Option.isSome_none, Bool.false_eq_true, if_false, true_and]
    cases hnotice : slot.notice.filter (·.dueAt ≤ now) with
    | some notice =>
      right
      left
      obtain ⟨kind, dueAt⟩ := notice
      cases kind with
      | activated =>
        refine ⟨_, .onActivated, rfl, ?_⟩
        exact ⟨by decide, rfl, rfl⟩
      | deactivated =>
        refine ⟨_, .onDeactivated, rfl, ?_⟩
        exact ⟨by decide, rfl, rfl⟩
    | none =>
      by_cases hempty : slot.pending.isEmpty = true
      · left
        simp only [hempty, if_true]
      right
      right
      simp only [hempty]
      refine ⟨_, rfl, ?_⟩
      exact ⟨fun heq => hempty (isEmpty_iff.mpr heq), rfl, rfl⟩

def deliveryOf (now : Nat) (entry : PluginId × PluginSlot) : Option EventDelivery :=
  (entry.2.deliver now).2.map fun given => ⟨entry.1, given.1, given.2, now⟩

lemma plugin_of_deliveryOf {now : Nat} {entry : PluginId × PluginSlot} {d : EventDelivery}
    (h : deliveryOf now entry = some d) : d.plugin = entry.1 := by
  rw [deliveryOf, map_eq_some_iff] at h
  obtain ⟨given, -, rfl⟩ := h
  rfl

lemma filter_filterMap_of_notMem {entries : List (PluginId × PluginSlot)} (now : Nat)
    (h : plugin ∉ entries.map Prod.fst) :
    (entries.filterMap (deliveryOf now)).filter (·.plugin = plugin) = [] := by
  rw [filter_eq_nil_iff]
  intro d hd
  obtain ⟨entry, hentry, hof⟩ := mem_filterMap.mp hd
  have hne : entry.1 ≠ plugin := fun heq => h (heq ▸ mem_map_of_mem hentry)
  simp [plugin_of_deliveryOf hof, hne]

lemma deliveries_to (plugin : PluginId) (c : EventCoalescer) (now : Nat) :
    (c.inOrder.filterMap (deliveryOf now)).filter (·.plugin = plugin) =
      match c.plugins.get? plugin with
      | some slot => (deliveryOf now (plugin, slot)).toList
      | none => [] := by
  have hperm : c.inOrder.Perm c.plugins.entries := mergeSort_perm _ _
  have hkeys : (c.inOrder.map Prod.fst).Perm c.plugins.keys := hperm.map Prod.fst
  cases hslot : c.plugins.get? plugin with
  | none =>
    refine filter_filterMap_of_notMem now fun hmem => ?_
    exact (get?_eq_none_iff _ _).mp hslot (hkeys.mem_iff.mp hmem)
  | some slot =>
    obtain ⟨before, after, hsplit⟩ :=
      append_of_mem (hperm.mem_iff.mpr (mem_entries_of_get? hslot))
    have hnodup : (c.inOrder.map Prod.fst).Nodup := hkeys.nodup_iff.mpr (keys_nodup _)
    rw [hsplit, map_append, map_cons, nodup_middle, nodup_cons, List.mem_append, not_or] at hnodup
    rw [hsplit, filterMap_append, filter_append,
      filter_filterMap_of_notMem now hnodup.1.1, filterMap_cons]
    cases hof : deliveryOf now (plugin, slot) with
    | none =>
      simp only [hof]
      exact filter_filterMap_of_notMem now hnodup.1.2
    | some d =>
      simp only [hof]
      rw [filter_cons_of_pos (by simp [plugin_of_deliveryOf hof]),
        filter_filterMap_of_notMem now hnodup.1.2]
      rfl

lemma tick_eq (c : EventCoalescer) (now : Nat) : c.tick now =
    ({ c.flushDueRawBurst now with plugins :=
        (c.flushDueRawBurst now).plugins.mapValues fun slot => (slot.deliver now).1 },
      (c.flushDueRawBurst now).inOrder.filterMap (deliveryOf now)) := rfl

/-- The three things a tick can do for a plugin, with what each leaves behind. -/
inductive Turn (plugin : PluginId) (ledger : Ledger) (after : EventCoalescer)
    (deliveries : List EventDelivery) : Prop
  | idle (hnone : deliveries.filter (·.plugin = plugin) = [])
      (hregistered : (after.plugins.get? plugin).isSome = ledger.registered)
      (hslot : ∀ slot, after.plugins.get? plugin = some slot →
        slot.pending = ledger.given ∧ slot.inFlight.isSome = ledger.busy)
  | notice {d : EventDelivery} {slot : PluginSlot}
      (hone : deliveries.filter (·.plugin = plugin) = [d]) (hcallback : d.callback ≠ .onEvents)
      (hregistered : ledger.registered = true) (hfree : ledger.busy = false)
      (hslot : after.plugins.get? plugin = some slot) (hpending : slot.pending = ledger.given)
      (hbusy : slot.inFlight.isSome = true)
  | events {d : EventDelivery} {slot : PluginSlot}
      (hone : deliveries.filter (·.plugin = plugin) = [d]) (hcallback : d.callback = .onEvents)
      (hregistered : ledger.registered = true) (hfree : ledger.busy = false)
      (hflags : d.flags = ledger.given) (hne : ledger.given ≠ .empty)
      (hslot : after.plugins.get? plugin = some slot) (hpending : slot.pending = .empty)
      (hbusy : slot.inFlight.isSome = true)

lemma Agrees.turn (h : Agrees config plugin ledger c) (now : Nat) :
    Turn plugin (ledger.flush config now) (c.tick now).1 (c.tick now).2 := by
  have hflush := h.flush now
  rw [tick_eq]
  generalize c.flushDueRawBurst now = f at hflush
  generalize ledger.flush config now = l at hflush
  have hto := deliveries_to plugin f now
  cases hslot : f.plugins.get? plugin with
  | none =>
    rw [hslot] at hto
    refine .idle hto ?_ fun slot hafter => ?_
    · rw [get?_mapValues, ← hflush.registered, hslot]
      rfl
    · rw [get?_mapValues, hslot] at hafter
      cases hafter
  | some slot =>
    rw [hslot] at hto
    obtain ⟨hpending, hbusy⟩ := hflush.slot slot hslot
    have hregistered : l.registered = true := by rw [← hflush.registered, hslot, isSome_some]
    have hafter : (f.plugins.mapValues fun slot => (slot.deliver now).1).get? plugin =
        some (slot.deliver now).1 := by
      rw [get?_mapValues, hslot]
      rfl
    obtain hsame | ⟨hfree, after, callback, hgiven, hcallback, hkept, hstarted⟩ |
      ⟨hfree, after, hgiven, hne, hempty, hstarted⟩ := deliver_cases slot now
    · simp only [deliveryOf, hsame] at hto
      refine .idle hto ?_ fun slot' hslot' => ?_
      · rw [hafter, hregistered]
        rfl
      · rw [hafter, hsame] at hslot'
        cases hslot'
        exact ⟨hpending, hbusy⟩
    · simp only [deliveryOf, hgiven] at hto
      rw [hgiven] at hafter
      exact .notice hto hcallback hregistered (by rw [← hbusy, hfree]; rfl) hafter
        (hkept.trans hpending) hstarted
    · simp only [deliveryOf, hgiven] at hto
      rw [hgiven] at hafter
      exact .events hto rfl hregistered (by rw [← hbusy, hfree]; rfl) hpending (hpending ▸ hne)
        hafter hempty hstarted

section
variable (deliveries : List EventDelivery)

lemma any_isEvents : deliveries.any (isEvents plugin) =
      (deliveries.filter (·.plugin = plugin)).any (·.callback = .onEvents) := by
  rw [List.any_filter]
  rfl

lemma any_plugin :
    deliveries.any (·.plugin = plugin) = !(deliveries.filter (·.plugin = plugin)).isEmpty := by
  rw [Bool.eq_iff_iff, Bool.not_eq_true', List.isEmpty_eq_false_iff, ne_eq, filter_eq_nil_iff]
  simp

lemma filter_isEvents : deliveries.filter (isEvents plugin) =
      (deliveries.filter (·.plugin = plugin)).filter (·.callback = .onEvents) := by
  rw [List.filter_filter]
  refine filter_congr fun d _ => ?_
  rw [isEvents, Bool.and_comm]

end

lemma Agrees.tick (h : Agrees config plugin ledger c) (now : Nat) :
    Agrees config plugin (ledger.record config plugin (.tick now, (c.tick now).2))
      (c.tick now).1 := by
  have hflush := h.flush now
  have hturn := h.turn now
  refine ⟨hflush.config, ?_, ?_, hflush.burst⟩
  · cases hturn with
    | idle _ hregistered _ => exact hregistered
    | notice _ _ hregistered _ hslot _ _ | events _ _ hregistered _ _ _ hslot _ _ =>
      exact (congrArg isSome hslot).trans hregistered.symm
  · intro slot hslot'
    rw [Ledger.record, any_isEvents, any_plugin]
    cases hturn with
    | idle hnone _ hslot =>
      rw [hnone]
      obtain ⟨hpending, hbusy⟩ := hslot slot hslot'
      exact ⟨hpending, by rw [hbusy]; exact (Bool.or_false _).symm⟩
    | notice hone hcallback _ _ hslot hpending hbusy =>
      obtain rfl := some.inj (hslot.symm.trans hslot')
      rw [hone]
      refine ⟨?_, by simp [hbusy]⟩
      simpa [hcallback, Ledger.flush] using hpending
    | events hone hcallback _ _ _ _ hslot hpending hbusy =>
      obtain rfl := some.inj (hslot.symm.trans hslot')
      rw [hone]
      simp [hcallback, hbusy, hpending]

lemma Agrees.conserved (h : Agrees config plugin ledger c) (now : Nat) :
    Conserved config plugin ledger now (c.tick now).1 (c.tick now).2 := by
  have hturn := h.turn now
  refine ⟨?_, ?_, ?_⟩
  · intro d hd hevents
    have hmine : d ∈ ((c.tick now).2.filter (·.plugin = plugin)).filter
        (·.callback = .onEvents) := by
      rw [← filter_isEvents]
      exact mem_filter.mpr ⟨hd, hevents⟩
    cases hturn with
    | idle hnone _ _ => simp [hnone] at hmine
    | notice hone hcallback _ _ _ _ _ => simp [hone, hcallback] at hmine
    | events hone hcallback hregistered _ hflags hne _ _ _ =>
      rw [hone, mem_filter, mem_singleton] at hmine
      obtain rfl := hmine.1
      exact ⟨hregistered, hflags, hflags ▸ hne⟩
  · intro note hnote deadline hdeadline hdue hregistered
    have hgiven : (ledger.flush config now).given.contains note.1 = true := by
      have hflushed : ledger.flushed config now = .union (ledger.raw.map Prod.fst) :=
        if_pos (deadline_reached hdeadline hdue)
      rw [Ledger.flush, hflushed]
      exact contains_trans (contains_insert_right _ _) (union_contains (mem_map_of_mem hnote))
    rw [filter_isEvents, pendingFlags]
    cases hturn with
    | idle hnone hafter hslot =>
      obtain ⟨slot, hsome⟩ := isSome_iff_exists.mp (hafter.trans hregistered)
      rw [hnone, hsome]
      simp [union, (hslot slot hsome).1, hgiven]
    | notice hone hcallback _ _ hslot hpending _ =>
      rw [hone, hslot]
      simp [hcallback, hpending, union, hgiven]
    | events hone hcallback _ _ hflags _ hslot hpending _ =>
      rw [hone, hslot]
      simp [hcallback, hpending, union, hflags, hgiven]
  · cases hturn with
    | idle hnone _ _ => simp [hnone]
    | notice hone _ _ hfree _ _ _ | events hone _ _ hfree _ _ _ _ _ =>
      have hfree' : ledger.busy = false := hfree
      simp [hone, hfree']

/-! ### Runs -/

lemma Agrees.step (h : Agrees config plugin ledger c) {op : Operation} {after : EventCoalescer}
    {deliveries : List EventDelivery} (hstep : step c op = some (after, deliveries)) :
    Agrees config plugin (ledger.record config plugin (op, deliveries)) after := by
  cases op with
  | register q =>
    cases hstep
    exact h.register q
  | unregister q =>
    cases hstep
    exact h.unregister q
  | post q flags time =>
    cases hstep
    exact h.post q flags time
  | broadcast flags time =>
    cases hstep
    exact h.broadcast flags time
  | noteRaw notification time =>
    cases hstep
    exact h.noteRaw notification time
  | activated q time =>
    cases hstep
    exact h.note q _ _ _
  | deactivated q time =>
    cases hstep
    exact h.note q _ _ _
  | beginCallback q callback time =>
    cases hstep
    exact h.beginCallback q callback time
  | endCallback q =>
    cases hstep
    exact h.endCallback q
  | tick now =>
    cases hstep
    exact h.tick now

lemma agrees_run {trace : Trace} (h : Exec step (.new config) trace c) :
    Agrees config plugin (.read config plugin trace) c := by
  refine Exec.invariant (fun trace c => Agrees config plugin (.read config plugin trace) c)
    agrees_new ?_ h
  intro trace c op after deliveries _ hagrees hstep
  rw [Ledger.read, foldl_append]
  exact hagrees.step hstep

/-- Whatever the operations and their order, each tick delivers what the trace says it owes. -/
theorem events_conserved {trace : Trace} (h : Exec step (.new config) trace c) (plugin : PluginId)
    (now : Nat) :
    Conserved config plugin (.read config plugin trace) now (c.tick now).1 (c.tick now).2 :=
  (agrees_run h).conserved now

/-- A change on the desktop and a posted event go out as one delivery when the burst is over. -/
theorem desktop_burst_conserved :
    let config : CoalescerConfig := ⟨20, 200, 50⟩
    let change : RawFilesystemNotification := ⟨.desktop, "a.lnk", .created⟩
    let plugin : PluginId := ⟨"demo"⟩
    ∃ trace c, Exec step (.new config) trace c ∧ trace.map Prod.fst =
        [.register plugin, .noteRaw change 0, .post plugin .appConfig 5, .noteRaw change 3] ∧
      Conserved config plugin (.read config plugin trace) 23 (c.tick 23).1 (c.tick 23).2 ∧
      (c.tick 23).2.map (fun d => (d.callback, d.flags.bits)) = [(.onEvents, 0x31)] := by
  intro config change plugin
  obtain ⟨c, trace, hrun, hticked⟩ := run_of_eval step (.new config)
    [.register plugin, .noteRaw change 0, .post plugin .appConfig 5, .noteRaw change 3]
    (fun c _ => (c.tick 23).2.map (fun d => (d.callback, d.flags.bits)) = [(.onEvents, 0x31)])
    (by decide +kernel)
  obtain ⟨hexec, hops⟩ := exec_of_run hrun
  exact ⟨trace, c, hexec, hops, events_conserved hexec plugin 23, hticked⟩

end CriKey.Events
