import CriKey.Scheduler.Keystroke

/-! A tick seen from one plugin: obsolete slots are reclaimed, elapsed deadlines make
requests ready, and some of the ready requests are handed over in queue order. -/
namespace CriKey.Scheduler
open CriKey.Base CriKey.Core Table List

namespace PluginState

/-- The deadline half of a tick, for one plugin. -/
def settled (state : PluginState) (current : Generation) (now : Nat) : PluginState :=
  let next := (state.reclaimed current true).applyDeadlines now
  if next.hasExplicitPolicy then next.notePeak else next

/-- `Dispatches now state requests next`: handing over `requests` one after the other,
each at the front, ready and within the concurrency limit. -/
inductive Dispatches (now : Nat) (state : PluginState) :
    List PendingRequest → PluginState → Prop
  | start : Dispatches now state [] state
  | next {requests : List PendingRequest} {mid : PluginState} {request : PendingRequest} :
      Dispatches now state requests mid → mid.dispatchable = some request →
      Dispatches now state (requests ++ [request]) (mid.dispatch request now)

lemma dispatchable_eq_some {state : PluginState} {request : PendingRequest}
    (h : state.dispatchable = some request) :
    state.inFlight.length < effectiveConcurrencyLimit state.policy ∧
      request.ready = true ∧ state.queue = request :: state.queue.tail := by
  unfold dispatchable at h
  split at h
  · simp at h
  rename_i hroom
  cases hq : state.queue with
  | nil => simp [hq] at h
  | cons r rs =>
    simp only [hq, head?_cons, Option.filter] at h
    split at h
    · rename_i hready
      obtain rfl := Option.some_inj.mp h
      exact ⟨Nat.lt_of_not_le hroom, hready, rfl⟩
    · simp at h

end PluginState

/-- What a tick hands to the plugin `p` for a queued request. -/
def PendingRequest.handedTo (p : PluginId) (now : Nat) (request : PendingRequest) :
    DispatchedRequest :=
  ⟨p, request.generation, request.query, now⟩

namespace QueryScheduler
variable (s : QueryScheduler)

lemma applyDeadlinesFor_posts (now : Nat) (p : PluginId) : Posts s (s.applyDeadlinesFor now p) := by
  unfold applyDeadlinesFor
  split
  · exact .refl s
  · exact (modifyPlugin_posts s p (·.applyDeadlines now) fun _ => rfl).trans (traceAll_posts _
      (fun due : Generation × DueReason => .debounce now p due.1 due.2.decision) _)

lemma applyDeadlinesFor_plugins (now : Nat) (p : PluginId) :
    (s.applyDeadlinesFor now p).plugins = s.plugins.modify p (·.applyDeadlines now) := by
  unfold applyDeadlinesFor
  cases hp : s.plugins.get? p with
  | none => exact (modify_eq_self _ hp).symm
  | some state =>
    rw [traceAll_plugins _ (fun due : Generation × DueReason =>
      QueryTraceEvent.debounce now p due.1 due.2.decision), modifyPlugin_plugins]

lemma recordExplicitQueuePeaks_posts : Posts s s.recordExplicitQueuePeaks := by
  have haccount : ∀ state : PluginState,
      (if state.hasExplicitPolicy then state.notePeak else state).account = state.account := by
    intro state
    split <;> rfl
  unfold recordExplicitQueuePeaks
  simp only
  split
  · refine .quiet rfl rfl rfl rfl ?_
    simp only [ledger, mapValues_mapValues, haccount]
    rfl
  · refine .quiet rfl rfl rfl rfl ?_
    simp only [ledger, mapValues_mapValues, haccount]

lemma recordExplicitQueuePeaks_plugins : s.recordExplicitQueuePeaks.plugins =
      s.plugins.mapValues fun state =>
        if state.hasExplicitPolicy then state.notePeak else state := by
  unfold recordExplicitQueuePeaks
  simp only
  split <;> rfl

lemma settleDeadlines_posts (now : Nat) : Posts s (s.settleDeadlines now) :=
  ((reclaimObsoleteQueued_posts s _ now true).trans
    (.foldl _ _ fun t p _ => applyDeadlinesFor_posts t now p)).trans
    (recordExplicitQueuePeaks_posts _)

lemma settleDeadlines_plugins (now : Nat) : (s.settleDeadlines now).plugins =
      s.plugins.mapValues (·.settled s.currentGeneration now) := by
  unfold settleDeadlines
  rw [recordExplicitQueuePeaks_plugins, foldl_local_plugins _ _ (·.applyDeadlines now)
    (fun s p => applyDeadlinesFor_plugins s now p), foldl_modify_all,
    reclaimObsoleteQueued_plugins, mapValues_mapValues, mapValues_mapValues]
  rfl

lemma dispatchOne_posts {p : PluginId} {state : PluginState} (hp : s.plugins.get? p = some state)
    (pending : PendingRequest) (now : Nat) : Posts s (s.dispatchOne p pending now) := by
  refine Posts.trans ?_ (pushTrace_posts _ _)
  exact .one (·.dispatch pending now) .dispatched hp rfl rfl rfl rfl rfl rfl rfl

lemma dispatchOne_plugins (p : PluginId) (pending : PendingRequest) (now : Nat) :
    (s.dispatchOne p pending now).plugins = s.plugins.modify p (·.dispatch pending now) := by
  simp [dispatchOne]

section Rule
variable (now : Nat) (P : QueryScheduler → List DispatchedRequest → Prop)
  (hone : ∀ t out p state pending, P t out → t.plugins.get? p = some state →
    state.dispatchable = some pending →
    P (t.dispatchOne p pending now) (out ++ [pending.handedTo p now]))
include hone

lemma dispatchLoop_rule (p : PluginId) (index own : Nat) (round : DispatchRound)
    (h : P round.scheduler round.dispatched) : P (dispatchLoop p index now own round).scheduler
      (dispatchLoop p index now own round).dispatched := by
  induction own generalizing round with
  | zero => exact h
  | succ own ih =>
    rw [dispatchLoop]
    split
    · exact h
    cases hget : round.scheduler.plugins.get? p with
    | none => simpa using h
    | some state =>
      cases hd : state.dispatchable with
      | none => simpa [hd] using h
      | some pending =>
        simp only [Option.bind_some, hd]
        exact ih _ (hone _ _ _ _ _ h hget hd)

lemma dispatchAt_rule (plugins : List PluginId) (start offset : Nat) (round : DispatchRound)
    (h : P round.scheduler round.dispatched) :
    P (dispatchAt plugins start now round offset).scheduler
      (dispatchAt plugins start now round offset).dispatched := by
  unfold dispatchAt
  simp only
  split
  · exact h
  · split
    · exact h
    · exact dispatchLoop_rule now P hone _ _ _ _ h

lemma dispatchReady_rule (h : P s []) : ∃ t cursor, P t (s.dispatchReady now).2 ∧
      (s.dispatchReady now).1 =
        ({ t with roundRobinCursor := cursor } : QueryScheduler).recordRemainingQueuePeaks := by
  unfold dispatchReady
  simp only
  split
  · exact ⟨s, s.roundRobinCursor, h, rfl⟩
  refine ⟨_, _, ?_, rfl⟩
  have hfold : ∀ (offsets : List Nat) (start : Nat) (round : DispatchRound),
      P round.scheduler round.dispatched →
      P (offsets.foldl (dispatchAt s.plugins.keys start now) round).scheduler
        (offsets.foldl (dispatchAt s.plugins.keys start now) round).dispatched := by
    intro offsets start
    induction offsets with
    | nil => exact fun _ h => h
    | cons offset offsets ih =>
      intro round h
      exact ih _ (dispatchAt_rule now P hone s.plugins.keys start offset round h)
  exact hfold _ _ _ h

end Rule

lemma dispatchReady_posts (now : Nat) : Posts s (s.dispatchReady now).1 := by
  obtain ⟨t, cursor, hposts, heq⟩ := dispatchReady_rule s now (fun t _ => Posts s t)
    (fun t _ p _ pending ht hp _ => ht.trans (dispatchOne_posts t hp pending now)) (.refl s)
  rw [heq]
  refine hposts.trans (.quiet rfl rfl rfl rfl ?_)
  simp only [recordRemainingQueuePeaks, ledger, mapValues_mapValues]
  rfl

lemma tick_posts (now : Nat) : Posts (s.observeNow now) (s.tick now).1 := by
  unfold tick
  simp only
  split
  · exact .refl _
  · exact (settleDeadlines_posts _ _).trans (dispatchReady_posts _ _)

lemma dispatchReady_spec (now : Nat) : (s.dispatchReady now).1.plugins.keys = s.plugins.keys ∧
      (∀ r ∈ (s.dispatchReady now).2, r.plugin ∈ s.plugins.keys) ∧
      ∀ p state, s.plugins.get? p = some state →
        ∃ requests next, state.Dispatches now requests next ∧
          (s.dispatchReady now).1.plugins.get? p = some next.notePeak ∧
          (s.dispatchReady now).2.filter (·.plugin = p) = requests.map (·.handedTo p now) := by
  obtain ⟨t, cursor, ⟨hkeys, hmem, hper⟩, heq⟩ := dispatchReady_rule s now
    (fun t out => t.plugins.keys = s.plugins.keys ∧
      (∀ r ∈ out, r.plugin ∈ s.plugins.keys) ∧ ∀ p state, s.plugins.get? p = some state →
        ∃ requests next, state.Dispatches now requests next ∧ t.plugins.get? p = some next ∧
          out.filter (·.plugin = p) = requests.map (·.handedTo p now))
    (by
      intro t out q mid pending ⟨hkeys, hmem, hper⟩ hq hd
      refine ⟨?_, ?_, ?_⟩
      · rw [dispatchOne_plugins, keys_modify, hkeys]
      · intro r hr
        rcases mem_append.mp hr with hold | hnew
        · exact hmem r hold
        · rw [mem_singleton.mp hnew, ← hkeys]
          exact mem_keys_of_get? hq
      · intro p state hp
        obtain ⟨requests, next, hrun, hnext, hout⟩ := hper p state hp
        rw [dispatchOne_plugins, filter_append, hout]
        by_cases hpq : p = q
        · subst p
          obtain rfl : next = mid := Option.some_inj.mp (hnext.symm.trans hq)
          refine ⟨requests ++ [pending], next.dispatch pending now, .next hrun hd, ?_, ?_⟩
          · simp [hq]
          · simp [PendingRequest.handedTo]
        · refine ⟨requests, next, hrun, ?_, ?_⟩
          · rw [get?_modify_ne _ _ hpq, hnext]
          · simp [PendingRequest.handedTo, Ne.symm hpq])
    ⟨rfl, by simp, fun p state hp => ⟨[], state, .start, hp, rfl⟩⟩
  rw [heq]
  refine ⟨?_, hmem, ?_⟩
  · simp [recordRemainingQueuePeaks, hkeys]
  · intro p state hp
    obtain ⟨requests, next, hrun, hnext, hout⟩ := hper p state hp
    exact ⟨requests, next, hrun, by simp [recordRemainingQueuePeaks, hnext], hout⟩

lemma tick_spec (now : Nat) (hlive : s.isShutdown = false) :
    (s.tick now).1.plugins.keys = s.plugins.keys ∧
      (∀ r ∈ (s.tick now).2, r.plugin ∈ s.plugins.keys) ∧
      ∀ p state, s.plugins.get? p = some state → ∃ requests next,
          (state.settled s.currentGeneration (s.clampNow now)).Dispatches (s.clampNow now)
            requests next ∧ (s.tick now).1.plugins.get? p = some next.notePeak ∧
          (s.tick now).2.filter (·.plugin = p) = requests.map (·.handedTo p (s.clampNow now)) := by
  have htick : s.tick now =
      ((s.observeNow now).settleDeadlines (s.clampNow now)).dispatchReady (s.clampNow now) := by
    simp [tick, observeNow, hlive]
  have hplugins := settleDeadlines_plugins (s.observeNow now) (s.clampNow now)
  obtain ⟨hkeys, hmem, hper⟩ := dispatchReady_spec
    ((s.observeNow now).settleDeadlines (s.clampNow now)) (s.clampNow now)
  rw [hplugins, keys_mapValues] at hkeys hmem
  rw [htick]
  refine ⟨hkeys, hmem, ?_⟩
  intro p state hp
  exact hper p _ (by rw [hplugins, get?_mapValues]; exact congrArg _ hp)

end QueryScheduler
end CriKey.Scheduler
