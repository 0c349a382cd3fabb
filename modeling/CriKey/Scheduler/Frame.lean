import CriKey.Scheduler.Postings

/-! What the building blocks of a keystroke do to the plugin table and to the books. -/
namespace CriKey.Scheduler
open CriKey.Base CriKey.Core PluginState List Table Ledger

/-- Cancellation notices of one plugin. -/
def PluginState.noteAll (generations : List Generation) (state : PluginState) : PluginState :=
  generations.foldl (fun state g => state.noteCancelled g) state

namespace PluginState
variable (state : PluginState) (gs : List Generation)

lemma noteAll_eq : state.noteAll gs = { state with
      diagnostics := { state.diagnostics with
          cancelledRequests := (state.noteAll gs).diagnostics.cancelledRequests }
      history := { state.history with reported := state.history.reported ++ gs } } := by
  unfold noteAll
  induction gs generalizing state with
  | nil => simp
  | cons g gs ih =>
    rw [foldl_cons, ih]
    simp [noteCancelled]

@[simp] lemma noteAll_frame : (state.noteAll gs).queue = state.queue ∧
    (state.noteAll gs).inFlight = state.inFlight ∧ (state.noteAll gs).policy = state.policy ∧
    (state.noteAll gs).enabled = state.enabled ∧ (state.noteAll gs).relevant = state.relevant ∧
    (state.noteAll gs).burstStarted = state.burstStarted ∧
    (state.noteAll gs).diagnostics.lastDispatchedAt = state.diagnostics.lastDispatchedAt := by
  rw [noteAll_eq]
  simp

variable (state : PluginState)

/-- An invalidation seen from the plugin: running work is cancelled, the queue is
drained, and whatever was not cancelled before is reported. -/
def invalidated (reason : CancelReason) : PluginState :=
  ((state.cancelInFlight reason).drainQueue).noteAll (state.supersededGenerations true)

/-- The reclamation of one plugin's queue. -/
def reclaimed (current : Generation) (includeReplaceOldest : Bool) : PluginState :=
  if (!includeReplaceOldest && effectiveQueuePolicy state.policy == .replaceOldest) ||
      (state.obsoleteGenerations current).isEmpty then state
  else state.dropObsolete current

/-- Running work superseded by a query that passes the gate. -/
def superseding : PluginState :=
  (state.cancelInFlight .queryChanged).noteAll (state.supersededGenerations false)

def pendingRequest (generation : Generation) (query : String) : PreparedRequest → PendingRequest
  | .legacy _ => ⟨generation, query, true, none, none⟩
  | .modern ready dueAt dueReason _ => ⟨generation, query, ready, dueAt, dueReason⟩

/-- The queue and its two counters after an admission. -/
def admitted (request : PendingRequest) : PluginState :=
  let next := state.enqueue request
  let next := if state.superseded.isSome then next.noteCoalesced else next
  if state.evicted.isSome then next.noteDropped else next

def pluginQueueFull : Bool :=
  effectiveQueueCapacity state.policy = 0 || (effectiveQueuePolicy state.policy == .rejectNewest &&
      effectiveQueueCapacity state.policy ≤ state.queue.length)

inductive Outcome where
  | gated
  | idle
  | refusedGlobal
  | refusedPlugin
  | queued (request : PendingRequest)
deriving DecidableEq

/-- `full`: the shared bound is reached when the plugin is serviced. -/
def outcome (full : Bool) (generation : Generation)
    (query normalized : String) (now : Nat) : Outcome :=
  match gateReason state normalized with
  | some _ => .gated
  | none =>
    match state.superseding.prepare generation now with
    | (_, none) => .idle
    | (next, some prepared) =>
      if full && !next.canReuseSlot then .refusedGlobal
      else if next.pluginQueueFull then .refusedPlugin
      else .queued (pendingRequest generation query prepared)

/-- One plugin's state after a keystroke serviced it. -/
def processed (full : Bool) (generation : Generation)
    (query normalized : String) (now : Nat) : PluginState :=
  let next := (state.superseding.prepare generation now).1
  match state.outcome full generation query normalized now with
  | .gated => state.invalidated .noLongerRelevant
  | .idle => next
  | .refusedGlobal => next.noteRejected
  | .refusedPlugin => next.noteRejected
  | .queued request => next.admitted request

end PluginState

namespace QueryScheduler
variable (s : QueryScheduler)

lemma emitCancellation_posts {p : PluginId} (hp : p ∈ s.plugins.keys) (g : Generation)
    (reason : CancelReason) (now : Nat) (newly : Bool) :
    Posts s (s.emitCancellation p g reason now newly) := by
  cases newly with
  | false => exact .refl s
  | true =>
    obtain ⟨state, hstate⟩ := Option.isSome_iff_exists.mp ((mem_keys_iff _ _).mp hp)
    refine Posts.trans ?_ (pushTrace_posts _ _)
    by_cases hfull : s.cancellations.length = s.config.requestQueueCapacity
    · have hledger : s.ledger.notices.length = s.ledger.capacity := (length_map _).trans hfull
      simp only [modifyPlugin, count, hfull, if_true]
      refine .one (·.noteCancelled g) (.cancelled g) hstate rfl rfl ?_ rfl rfl rfl rfl
      simp only [postTotals, hledger, if_true, map_append, map_tail]
      rfl
    · have hledger : s.ledger.notices.length ≠ s.ledger.capacity := (length_map _).trans_ne hfull
      simp only [modifyPlugin, count, hfull, if_false]
      refine .one (·.noteCancelled g) (.cancelled g) hstate rfl rfl ?_ rfl rfl rfl rfl
      simp only [postTotals, hledger, if_false, map_append]
      rfl

lemma emitAll_posts {α : Type} {p : PluginId} (hp : p ∈ s.plugins.keys) (records : List α)
    (f : α → Generation) (newly : α → Bool) (reason : CancelReason) (now : Nat) :
    Posts s (records.foldl (fun s r => s.emitCancellation p (f r) reason now (newly r)) s) :=
  .foldl _ _ fun t r hkeys => emitCancellation_posts t (hkeys ▸ hp) (f r) reason now (newly r)

lemma emitCancellation_plugins (p : PluginId) (g : Generation) (reason : CancelReason)
    (now : Nat) (newly : Bool) :
    (s.emitCancellation p g reason now newly).plugins =
      if newly then s.plugins.modify p (·.noteCancelled g) else s.plugins := by
  cases newly with
  | false => simp [emitCancellation]
  | true =>
    simp only [emitCancellation, Bool.not_true, Bool.false_eq_true, if_false, pushTrace_plugins]
    split <;> rfl

lemma emitAll_plugins (p : PluginId) (reason : CancelReason) (now : Nat)
    (records : List (Generation × Bool)) :
    (records.foldl (fun s r => s.emitCancellation p r.1 reason now r.2) s).plugins =
      s.plugins.modify p (·.noteAll ((records.filter (·.2)).map (·.1))) := by
  induction records generalizing s with
  | nil =>
    simp [Table.modify, noteAll]
  | cons r records ih =>
    obtain ⟨g, newly⟩ := r
    rw [foldl_cons, ih, emitCancellation_plugins]
    cases newly with
    | false => simp
    | true =>
      rw [if_pos rfl, modify_modify]
      simp [noteAll]

lemma emitNew_plugins (p : PluginId) (reason : CancelReason) (now : Nat) (gs : List Generation) :
    (gs.foldl (fun s g => s.emitCancellation p g reason now true) s).plugins =
      s.plugins.modify p (·.noteAll gs) := by
  have h := emitAll_plugins s p reason now (gs.map fun g => (g, true))
  rw [foldl_map] at h
  simpa [filter_map, Function.comp_def] using h

lemma invalidationRecords_new (state : PluginState) (incl : Bool) :
    ((state.invalidationRecords incl).filter (·.2)).map (·.1) =
      state.supersededGenerations true := by
  unfold invalidationRecords supersededGenerations
  rw [filter_append, map_append, filter_map, filter_filter, map_map]
  congr 1
  · congr 1
    apply filter_congr
    intro r _
    cases hr : r.cancelReason <;> cases incl <;> simp [hr]
  · rw [filter_eq_self.mpr (by simp), map_map]
    rfl

lemma invalidatePlugin_posts (p : PluginId) (reason : CancelReason) (now : Nat) (incl : Bool) :
    Posts s (s.invalidatePlugin p reason now incl).1 := by
  unfold invalidatePlugin
  cases hp : s.plugins.get? p with
  | none => exact .refl s
  | some state =>
    have hquiet := modifyPlugin_posts s p (fun state => (state.cancelInFlight reason).drainQueue)
      fun _ => rfl
    exact hquiet.trans (emitAll_posts _ (hquiet.keys ▸ mem_keys_of_get? hp) _ _ _ reason now)

lemma invalidatePlugin_plugins (p : PluginId) (reason : CancelReason) (now : Nat) (incl : Bool) :
    (s.invalidatePlugin p reason now incl).1.plugins =
      s.plugins.modify p (·.invalidated reason) := by
  unfold invalidatePlugin
  cases hp : s.plugins.get? p with
  | none => exact (modify_eq_self _ hp).symm
  | some state =>
    simp only [emitAll_plugins, modifyPlugin_plugins, modify_modify, invalidationRecords_new]
    exact modify_congr _ _ hp rfl

lemma reclaimPlugin_posts (p : PluginId) (current : Generation) (now : Nat) (incl : Bool) :
    Posts s (s.reclaimPlugin p current now incl) := by
  unfold reclaimPlugin
  cases hp : s.plugins.get? p with
  | none => exact .refl s
  | some state =>
    simp only
    split
    · exact .refl s
    · refine Posts.trans ?_ (traceAll_posts _ _ _)
      exact .one (·.dropObsolete current)
        (.dropped (min (state.obsoleteGenerations current).length u64Max)) hp rfl rfl rfl rfl rfl
        rfl rfl

lemma reclaimPlugin_plugins (p : PluginId) (current : Generation) (now : Nat) (incl : Bool) :
    (s.reclaimPlugin p current now incl).plugins =
      s.plugins.modify p (·.reclaimed current incl) := by
  unfold reclaimPlugin
  cases hp : s.plugins.get? p with
  | none => exact (modify_eq_self _ hp).symm
  | some state =>
    simp only
    split
    · rename_i hskip
      have hid : state.reclaimed current incl = state := by
        rw [reclaimed, if_pos hskip]
      exact (modify_fixed (·.reclaimed current incl) hp hid).symm
    · rename_i hdrop
      have heq : state.reclaimed current incl = state.dropObsolete current := by
        rw [reclaimed, if_neg hdrop]
      rw [traceAll_plugins]
      exact modify_congr (·.dropObsolete current) (·.reclaimed current incl) hp heq.symm

lemma reclaimObsoleteQueued_posts (current : Generation) (now : Nat) (incl : Bool) :
    Posts s (s.reclaimObsoleteQueued current now incl) :=
  .foldl _ _ fun t p _ => reclaimPlugin_posts t p current now incl

lemma foldl_local_plugins (f : QueryScheduler → PluginId → QueryScheduler)
    (g : PluginState → PluginState) (hf : ∀ s p, (f s p).plugins = s.plugins.modify p g)
    (ps : List PluginId) :
    (ps.foldl f s).plugins = ps.foldl (fun t p => t.modify p g) s.plugins := by
  induction ps generalizing s with
  | nil => rfl
  | cons p ps ih => rw [foldl_cons, ih, hf, foldl_cons]

lemma reclaimObsoleteQueued_plugins (current : Generation) (now : Nat) (incl : Bool) :
    (s.reclaimObsoleteQueued current now incl).plugins =
      s.plugins.mapValues (·.reclaimed current incl) := by
  rw [reclaimObsoleteQueued, foldl_local_plugins s _ (·.reclaimed current incl)
    (fun s p => reclaimPlugin_plugins s p current now incl), foldl_modify_all]

end QueryScheduler
end CriKey.Scheduler
