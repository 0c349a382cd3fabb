import CriKey.Scheduler.Frame

/-! A keystroke seen from one plugin: the per-plugin path is the local function
`processed`, told only whether the shared bound is reached. -/
namespace CriKey.Scheduler
open CriKey.Base CriKey.Core PluginState Table List

namespace PluginState
variable (state : PluginState) (g : Generation) (now : Nat)

lemma settleBurst_eq : state.settleBurst now =
      { state with burstStarted := (state.settleBurst now).burstStarted } := by
  unfold settleBurst
  split <;> rfl

lemma prepare_eq : (state.prepare g now).1 = { state with
        relevant := true
        burstStarted := (state.prepare g now).1.burstStarted } := by
  unfold prepare
  rw [settleBurst_eq]
  simp only
  split
  · rfl
  · split
    · rfl
    · split <;> rfl

@[simp] lemma prepare_frame : (state.prepare g now).1.queue = state.queue ∧
    (state.prepare g now).1.inFlight = state.inFlight ∧
    (state.prepare g now).1.policy = state.policy ∧
    (state.prepare g now).1.enabled = state.enabled ∧
    (state.prepare g now).1.diagnostics = state.diagnostics ∧
    (state.prepare g now).1.history = state.history := by
  rw [prepare_eq]
  simp

@[simp] lemma superseding_frame : state.superseding.queue = state.queue ∧
    state.superseding.policy = state.policy ∧ state.superseding.enabled = state.enabled ∧
    state.superseding.inFlight = state.inFlight.map (·.cancel .queryChanged) ∧
    state.superseding.relevant = state.relevant ∧
    state.superseding.burstStarted = state.burstStarted ∧
    state.superseding.diagnostics.lastDispatchedAt = state.diagnostics.lastDispatchedAt := by
  simp [superseding, cancelInFlight]

@[simp] lemma invalidated_queue (reason : CancelReason) :
    (state.invalidated reason).queue = [] := by
  simp [invalidated, drainQueue]

@[simp] lemma invalidated_inFlight (reason : CancelReason) :
    (state.invalidated reason).inFlight = state.inFlight.map (·.cancel reason) := by
  simp [invalidated, drainQueue, cancelInFlight]

@[simp] lemma invalidated_policy (reason : CancelReason) :
    (state.invalidated reason).policy = state.policy := by
  simp [invalidated, drainQueue, cancelInFlight]

@[simp] lemma admitted_frame (request : PendingRequest) :
    (state.admitted request).policy = state.policy ∧
    (state.admitted request).inFlight = state.inFlight ∧
    (state.admitted request).queue = (state.enqueue request).queue ∧
    (state.admitted request).history.reported = state.history.reported ∧
    (state.admitted request).relevant = state.relevant ∧
    (state.admitted request).burstStarted = state.burstStarted := by
  unfold admitted
  split <;> split <;> exact ⟨rfl, rfl, rfl, rfl, rfl, rfl⟩

end PluginState

namespace QueryScheduler
variable (s : QueryScheduler)

/-- The shared bound on queued requests is reached. -/
def isFull : Bool := s.config.requestQueueCapacity ≤ s.totalQueued

lemma foldl_satAdd (ns : List Nat) (a : Nat) (ha : a ≤ u64Max) :
    ns.foldl satAdd a = min (a + ns.sum) u64Max := by
  induction ns generalizing a with
  | nil => simpa using ha
  | cons n ns ih =>
    rw [foldl_cons, ih (satAdd a n) (satAdd_le_max a n), sum_cons]
    unfold satAdd
    omega

lemma totalQueued_eq : s.totalQueued = min (s.plugins.sum (·.queue.length)) u64Max := by
  have h := foldl_satAdd (s.plugins.values.map (·.queue.length)) 0 (Nat.zero_le _)
  rw [foldl_map, Nat.zero_add] at h
  exact h

lemma isFull_iff :
    s.isFull = true ↔ s.config.requestQueueCapacity ≤ s.plugins.sum (·.queue.length) := by
  have hcap := s.config.requestQueueCapacity_le
  rw [isFull, decide_eq_true_iff, totalQueued_eq]
  omega

lemma isFull_congr {s t : QueryScheduler} (hc : t.config = s.config)
    (hs : t.plugins.sum (·.queue.length) = s.plugins.sum (·.queue.length)) :
    t.isFull = s.isFull := by
  rw [Bool.eq_iff_iff, isFull_iff, isFull_iff, hc, hs]

@[simp] lemma discardRequest_plugins (p : PluginId) (g : Generation) (now : Nat)
    (policy : QueuePolicy) (c : Counter) (note : PluginState → PluginState) :
    (s.discardRequest p g now policy c note).plugins = s.plugins.modify p note := by
  simp [discardRequest]

lemma enqueueRequest_plugins {p : PluginId} {state : PluginState}
    (hp : s.plugins.get? p = some state) (request : PendingRequest) (decision : EitherDecision)
    (now : Nat) : (s.enqueueRequest p state request decision now).plugins =
      s.plugins.modify p (·.admitted request) := by
  have hadm : ∀ f : PluginState → PluginState, f state = state.admitted request →
      s.plugins.modify p f = s.plugins.modify p (·.admitted request) :=
    fun f hf => modify_congr f _ hp hf
  unfold enqueueRequest
  cases hsup : state.superseded <;> cases hev : state.evicted <;> cases decision <;>
    simp only [pushTrace_plugins, modifyPlugin_plugins, discardRequest_plugins, modify_modify] <;>
    exact hadm _ (by simp [admitted, hsup, hev])

section
variable {p : PluginId} (hp : p ∈ s.plugins.keys)
include hp

lemma discardRequest_posts (g : Generation) (now : Nat)
    (policy : QueuePolicy) (c : Counter) (note : PluginState → PluginState) (e : Posting)
    (hacc : ∀ state, (note state).account = state.account.post e)
    (htotals : ((s.count c 1).diagnostics.totals, s.ledger.notices) = s.ledger.postTotals p e) :
    Posts s (s.discardRequest p g now policy c note) := by
  obtain ⟨state, hstate⟩ := Option.isSome_iff_exists.mp ((mem_keys_iff _ _).mp hp)
  refine Posts.trans ?_ (pushTrace_posts _ _)
  exact .one note e hstate rfl (hacc state) htotals rfl rfl rfl rfl

lemma enqueueRequest_posts (state : PluginState)
    (request : PendingRequest) (decision : EitherDecision) (now : Nat) :
    Posts s (s.enqueueRequest p state request decision now) := by
  have henq := modifyPlugin_posts s p (·.enqueue request) fun _ => rfl
  have hcoalesced : ∀ t old, Posts s t →
      Posts s (t.discardRequest p old now .replaceOldest .coalesced (·.noteCoalesced)) :=
    fun t old ht => ht.trans (discardRequest_posts t (ht.keys ▸ hp) old now _ _ _ .coalesced
      (fun _ => rfl) rfl)
  have hdropped : ∀ t old, Posts s t →
      Posts s (t.discardRequest p old now .dropOldest .droppedObsolete (·.noteDropped)) :=
    fun t old ht => ht.trans (discardRequest_posts t (ht.keys ▸ hp) old now _ _ _ (.dropped 1)
      (fun _ => rfl) rfl)
  unfold enqueueRequest
  cases state.superseded <;> cases state.evicted <;> cases decision <;>
    refine Posts.trans ?_ (pushTrace_posts _ _) <;>
    first
      | exact henq
      | exact hcoalesced _ _ henq
      | exact hdropped _ _ henq
      | exact hdropped _ _ (hcoalesced _ _ henq)

lemma admitRequest_posts (state : PluginState) (g : Generation)
    (query : String) (now : Nat) (prepared : PreparedRequest) :
    Posts s (s.admitRequest p state g query now prepared) := by
  unfold admitRequest
  simp only
  split
  · exact discardRequest_posts s hp g now _ _ _ .rejectedGlobal (fun _ => rfl) rfl
  split
  · exact discardRequest_posts s hp g now _ _ _ .rejectedPlugin (fun _ => rfl) rfl
  · cases prepared <;> exact enqueueRequest_posts s hp _ _ _ _

end

lemma scheduleRequest_posts (p : PluginId) (g : Generation) (query : String) (now : Nat) :
    Posts s (s.scheduleRequest p g query now) := by
  have hquiet := modifyPlugin_posts s p (fun state => (state.prepare g now).1) fun state => by
    simp [PluginState.account]
  unfold scheduleRequest
  cases hp : s.plugins.get? p with
  | none => exact .refl s
  | some state =>
    simp only
    split
    · exact hquiet
    · exact hquiet.trans
        (admitRequest_posts _ (hquiet.keys ▸ mem_keys_of_get? hp) _ _ _ _ _)

/-- The first half of a plugin's turn, gated or not. -/
lemma supersede_posts {p : PluginId} {state : PluginState} (hp : s.plugins.get? p = some state)
    (gated : Bool) (reason : CancelReason) (now : Nat) :
    Posts s ((state.supersededGenerations gated).foldl
      (fun s g => s.emitCancellation p g reason now true)
      (s.modifyPlugin p fun state => state.supersede gated reason)) := by
  have hquiet := modifyPlugin_posts s p (fun state => state.supersede gated reason) fun state => by
    cases gated <;> rfl
  exact hquiet.trans (emitAll_posts _ (hquiet.keys ▸ mem_keys_of_get? hp) _ id (fun _ => true)
    reason now)

lemma processQueryForPlugin_posts (p : PluginId) (g : Generation) (query normalized : String)
    (now : Nat) : Posts s (s.processQueryForPlugin p g query normalized now) := by
  unfold processQueryForPlugin
  cases hp : s.plugins.get? p with
  | none => exact .refl s
  | some state =>
    simp only
    split
    · exact (supersede_posts s hp _ _ now).trans (pushTrace_posts _ _)
    · exact (supersede_posts s hp _ _ now).trans (scheduleRequest_posts _ p g query now)

/-- What the shared bound decides is the same before and after the request was
prepared: no queue has changed its length yet. -/
lemma scheduleRequest_plugins {p : PluginId} {state : PluginState}
    (hp : s.plugins.get? p = some state) (g : Generation) (query : String) (now : Nat) :
    (s.scheduleRequest p g query now).plugins = s.plugins.modify p fun state =>
        match state.prepare g now with
        | (next, none) => next
        | (next, some prepared) =>
          if s.isFull && !next.canReuseSlot then next.noteRejected
          else if next.pluginQueueFull then next.noteRejected
          else next.admitted (PluginState.pendingRequest g query prepared) := by
  unfold scheduleRequest
  rw [hp]
  simp only
  have hfull : (s.modifyPlugin p fun state => (state.prepare g now).1).isFull = s.isFull := by
    apply isFull_congr
    · rfl
    · exact sum_modify_of_eq _ _ _ _ fun v _ => by simp
  have hget : (s.modifyPlugin p fun state => (state.prepare g now).1).plugins.get? p =
      some (state.prepare g now).1 := by simp [hp]
  cases hprep : state.prepare g now with
  | mk next prepared =>
    rw [hprep] at hget
    cases prepared with
    | none =>
      simp only [modifyPlugin_plugins]
      apply modify_congr _ _ hp
      simp [hprep]
    | some prepared =>
      simp only [admitRequest]
      have hglobal : (s.modifyPlugin p fun state => (state.prepare g now).1).globalQueueFull
          next = (s.isFull && !next.canReuseSlot) := by
        rw [← hfull]
        rfl
      rw [hglobal]
      split
      · rename_i hf
        rw [refuseRequest, discardRequest_plugins, modifyPlugin_plugins, modify_modify]
        exact modify_congr _ _ hp (by simp [hprep, hf])
      · rename_i hf
        change (if next.pluginQueueFull then _ else _ : QueryScheduler).plugins = _
        split
        · rename_i hq
          rw [refuseRequest, discardRequest_plugins, modifyPlugin_plugins, modify_modify]
          exact modify_congr _ _ hp (by simp [hprep, hq])
        · rename_i hq
          cases prepared with
          | legacy decision | modern ready dueAt dueReason decision =>
            rw [enqueueRequest_plugins _ hget, modifyPlugin_plugins, modify_modify]
            exact modify_congr _ _ hp (by simp [hprep, hf, hq, pendingRequest])

lemma processQueryForPlugin_plugins (p : PluginId) (g : Generation)
    (query normalized : String) (now : Nat) :
    (s.processQueryForPlugin p g query normalized now).plugins =
      s.plugins.modify p fun state => state.processed s.isFull g query normalized now := by
  unfold processQueryForPlugin
  cases hp : s.plugins.get? p with
  | none => exact (modify_eq_self _ hp).symm
  | some state =>
    simp only
    cases hgate : gateReason state normalized with
    | some reason =>
      simp only [pushTrace_plugins, emitNew_plugins, modifyPlugin_plugins, modify_modify]
      apply modify_congr _ _ hp
      simp [processed, outcome, hgate, invalidated, supersede]
    | none =>
      simp only [Option.isSome_none, Bool.false_eq_true, if_false]
      have hplugins : (foldl (fun s g => s.emitCancellation p g .queryChanged now true)
          (s.modifyPlugin p fun state => state.supersede false .queryChanged)
          (state.supersededGenerations false)).plugins = s.plugins.modify p (·.superseding) := by
        rw [emitNew_plugins, modifyPlugin_plugins, modify_modify]
        exact modify_congr _ _ hp rfl
      have hget := congrArg (·.get? p) hplugins
      simp only [get?_modify_self, hp] at hget
      rw [scheduleRequest_plugins _ hget, hplugins, modify_modify]
      apply modify_congr _ _ hp
      have hfull : (foldl (fun s g => s.emitCancellation p g .queryChanged now true)
          (s.modifyPlugin p fun state => state.supersede false .queryChanged)
          (state.supersededGenerations false)).isFull = s.isFull := by
        apply isFull_congr
        · exact (supersede_posts s hp _ _ now).config
        · rw [hplugins]
          exact sum_modify_of_eq _ _ _ _ fun v _ => by simp
      rw [hfull]
      unfold processed outcome
      simp only [hgate]
      cases hprep : state.superseding.prepare g now with
      | mk next prepared =>
        cases prepared with
        | none => rfl
        | some prepared =>
          simp only
          split
          · rfl
          · split <;> rfl

end QueryScheduler
end CriKey.Scheduler
