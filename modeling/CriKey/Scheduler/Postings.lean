import CriKey.Scheduler.Ledger
import CriKey.Scheduler.Runtime

/-! The scheduler keeps its books by postings: whatever a call does, its counters and
notices change by a list of postings to registered plugins. -/
namespace CriKey.Scheduler
open CriKey.Base CriKey.Core Table List Option Ledger

def PluginState.account (state : PluginState) : Account where
  dispatched := state.diagnostics.dispatchedRequests
  coalesced := state.diagnostics.coalescedRequests
  dropped := state.diagnostics.droppedObsoleteRequests
  rejected := state.diagnostics.rejectedQueueFull
  cancelled := state.diagnostics.cancelledRequests
  reported := state.history.reported

def SchedulerDiagnostics.totals (d : SchedulerDiagnostics) : Totals where
  dispatched := d.dispatchedRequests
  coalesced := d.coalescedRequests
  dropped := d.droppedObsoleteRequests
  rejectedPlugin := d.rejectedPluginQueueFull
  rejectedGlobal := d.rejectedGlobalQueueFull
  cancelled := d.cancelledRequests
  droppedNotices := d.droppedCancellationNotifications

def CancelledRequest.about (notice : CancelledRequest) : PluginId × Generation :=
  (notice.plugin, notice.generation)

namespace QueryScheduler

def ledger (s : QueryScheduler) : Ledger where
  accounts := s.plugins.mapValues (·.account)
  totals := s.diagnostics.totals
  notices := s.cancellations.map (·.about)
  capacity := s.config.requestQueueCapacity

/-- Configuration, generation counter, shutdown flag and clock are as before, and the
books change by postings to the plugins of `s`. -/
structure Posts (s s' : QueryScheduler) : Prop where
  config : s'.config = s.config
  generations : s'.generations = s.generations
  isShutdown : s'.isShutdown = s.isShutdown
  lastNow : s'.lastNow = s.lastNow
  entries : ∃ entries, (∀ e ∈ entries, e.1 ∈ s.plugins.keys) ∧
    s'.ledger = s.ledger.postAll entries

variable {s s' s'' : QueryScheduler} {p : PluginId}

lemma ledger_keys (s : QueryScheduler) : s.ledger.accounts.keys = s.plugins.keys :=
  keys_mapValues _ _

namespace Posts

lemma quiet (hconfig : s'.config = s.config) (hgenerations : s'.generations = s.generations)
    (hshut : s'.isShutdown = s.isShutdown) (hnow : s'.lastNow = s.lastNow)
    (hledger : s'.ledger = s.ledger) : Posts s s' :=
  ⟨hconfig, hgenerations, hshut, hnow, [], by simp, hledger⟩

lemma refl (s : QueryScheduler) : Posts s s := quiet rfl rfl rfl rfl rfl

lemma currentGeneration (h : Posts s s') : s'.currentGeneration = s.currentGeneration := by
  simp [QueryScheduler.currentGeneration, h.generations]

lemma keys (h : Posts s s') : s'.plugins.keys = s.plugins.keys := by
  obtain ⟨entries, -, he⟩ := h.entries
  rw [← ledger_keys s', he, keys_postAll, ledger_keys]

lemma trans (h : Posts s s') (h' : Posts s' s'') : Posts s s'' := by
  obtain ⟨es, hes, he⟩ := h.entries
  obtain ⟨fs, hfs, hf⟩ := h'.entries
  refine ⟨h'.config.trans h.config, h'.generations.trans h.generations,
    h'.isShutdown.trans h.isShutdown, h'.lastNow.trans h.lastNow, es ++ fs, ?_, ?_⟩
  · intro e hmem
    cases mem_append.mp hmem with
    | inl hmem => exact hes e hmem
    | inr hmem => exact h.keys ▸ hfs e hmem
  · rw [hf, he]
    exact foldl_append.symm

lemma foldl {α : Type} (f : QueryScheduler → α → QueryScheduler) (as : List α)
    (hf : ∀ t a, t.plugins.keys = s.plugins.keys → Posts t (f t a)) :
    Posts s (as.foldl f s) := by
  induction as generalizing s with
  | nil => exact refl s
  | cons a as ih =>
    have hone := hf s a rfl
    exact hone.trans (ih fun t b hkeys => hf t b (hkeys.trans hone.keys))

lemma one {state : PluginState} (f : PluginState → PluginState) (e : Posting)
    (hp : s.plugins.get? p = some state) (hplugins : s'.plugins = s.plugins.modify p f)
    (hacc : (f state).account = state.account.post e)
    (htotals : (s'.diagnostics.totals, s'.cancellations.map (·.about)) = s.ledger.postTotals p e)
    (hconfig : s'.config = s.config) (hgenerations : s'.generations = s.generations)
    (hshut : s'.isShutdown = s.isShutdown) (hnow : s'.lastNow = s.lastNow) : Posts s s' := by
  have haccounts : s'.plugins.mapValues (·.account) =
      (s.plugins.mapValues (·.account)).modify p (·.post e) := by
    rw [hplugins]
    apply mapValues_modify
    intro v hv
    obtain rfl := some_inj.mp (hp.symm.trans hv)
    exact hacc
  refine ⟨hconfig, hgenerations, hshut, hnow, [(p, e)], ?_, ?_⟩
  · intro x hx
    rw [mem_singleton.mp hx]
    exact mem_keys_of_get? hp
  · simp only [postAll, foldl_cons, foldl_nil, post, ← htotals]
    simp only [ledger, haccounts, hconfig]

end Posts

variable (s)

@[simp] lemma count_frame (c : Counter) (n : Nat) : (s.count c n).plugins = s.plugins ∧
    (s.count c n).config = s.config ∧ (s.count c n).cancellations = s.cancellations :=
  ⟨rfl, rfl, rfl⟩

@[simp] lemma modifyPlugin_plugins (p : PluginId) (f : PluginState → PluginState) :
    (s.modifyPlugin p f).plugins = s.plugins.modify p f := rfl

lemma modifyPlugin_posts (p : PluginId) (f : PluginState → PluginState)
    (hf : ∀ state, (f state).account = state.account) : Posts s (s.modifyPlugin p f) := by
  have haccounts := mapValues_modify_of_same PluginState.account f s.plugins p hf
  refine .quiet rfl rfl rfl rfl ?_
  simp only [ledger, modifyPlugin_plugins, haccounts]
  rfl

section Trace
variable (e : QueryTraceEvent)

@[simp] lemma pushTrace_plugins : (s.pushTrace e).plugins = s.plugins := by
  unfold pushTrace
  split
  · rfl
  · split <;> rfl

lemma pushTrace_ledger : (s.pushTrace e).ledger = s.ledger := by
  unfold pushTrace
  split
  · rfl
  · split <;> rfl

lemma pushTrace_posts : Posts s (s.pushTrace e) := by
  unfold pushTrace
  split
  · exact .quiet rfl rfl rfl rfl rfl
  · split <;> exact .quiet rfl rfl rfl rfl rfl

lemma pushTrace_if_posts (b : Bool) : Posts s (if b then s.pushTrace e else s) := by
  cases b with
  | false => exact .refl s
  | true => exact pushTrace_posts s e

variable {α : Type} (f : α → QueryTraceEvent) (as : List α)

lemma traceAll_plugins : (as.foldl (fun s a => s.pushTrace (f a)) s).plugins = s.plugins := by
  induction as generalizing s with
  | nil => rfl
  | cons a as ih => rw [foldl_cons, ih, pushTrace_plugins]

lemma traceAll_posts : Posts s (as.foldl (fun s a => s.pushTrace (f a)) s) :=
  .foldl _ as fun t a _ => pushTrace_posts t (f a)

end Trace
end QueryScheduler
end CriKey.Scheduler
