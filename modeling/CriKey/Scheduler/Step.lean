import CriKey.Scheduler.Dispatch

/-! Every call of the scheduler seen from one plugin. `PluginStep` lists what a call
can do to the state of a registered plugin; the invariants of later modules are
proved against this list and never look at the calls again. -/
namespace CriKey.Scheduler
open CriKey.Base CriKey.Core Table Option GenerationTracker

namespace QueryScheduler
variable (s : QueryScheduler)

section Loop
variable (g : Generation) (query normalized : String) (now : Nat)

lemma processQuery_posts (ps : List PluginId) :
    Posts s (s.processQuery ps g query normalized now) :=
  .foldl _ ps fun t p _ => processQueryForPlugin_posts t p g query normalized now

lemma processQuery_cons (p : PluginId) (ps : List PluginId) :
    s.processQuery (p :: ps) g query normalized now =
      (s.processQueryForPlugin p g query normalized now).processQuery ps g query normalized now :=
  rfl

lemma processQuery_append (ps qs : List PluginId) :
    s.processQuery (ps ++ qs) g query normalized now =
      (s.processQuery ps g query normalized now).processQuery qs g query normalized now :=
  List.foldl_append

lemma processQuery_get?_of_notMem {p : PluginId} {ps : List PluginId} (hp : p ∉ ps) :
    (s.processQuery ps g query normalized now).plugins.get? p = s.plugins.get? p := by
  induction ps generalizing s with
  | nil => rfl
  | cons q ps ih =>
    rw [List.mem_cons, not_or] at hp
    rw [processQuery_cons, ih _ hp.2, processQueryForPlugin_plugins, get?_modify_ne _ _ hp.1]

lemma processQuery_get? {p : PluginId} {pre post : List PluginId} (hn : (pre ++ p :: post).Nodup) :
    (s.processQuery (pre ++ p :: post) g query normalized now).plugins.get? p =
      (s.plugins.get? p).map fun state =>
        state.processed (s.processQuery pre g query normalized now).isFull g query normalized
          now := by
  have hpre : p ∉ pre := fun h => List.disjoint_of_nodup_append hn h List.mem_cons_self
  have hpost : p ∉ post := (List.nodup_cons.mp hn.of_append_right).1
  rw [processQuery_append, processQuery_cons, processQuery_get?_of_notMem _ _ _ _ _ hpost,
    processQueryForPlugin_plugins, get?_modify_self, processQuery_get?_of_notMem _ _ _ _ _ hpre]

end Loop

lemma serviceOrder_perm (g : Generation) : (s.serviceOrder g).Perm s.plugins.keys :=
  List.filter_append_perm _ _

lemma serviceOrder_nodup (g : Generation) : (s.serviceOrder g).Nodup :=
  (serviceOrder_perm s g).nodup_iff.mpr s.plugins.keys_nodup

variable {s} {s' : QueryScheduler} {g : Generation} {query normalized : String} {now : Nat}

lemma keystroke_spec (h : s.keystroke normalized now = some (s', g)) :
    s'.config = s.config ∧ s'.generations.counter = s.generations.counter + 1 ∧
      g = s'.currentGeneration ∧ s'.isShutdown = s.isShutdown ∧
      s'.lastNow = some (s.clampNow now) ∧ s'.plugins = s.plugins ∧ s'.ledger = s.ledger := by
  unfold keystroke at h
  simp only [observeNow] at h
  cases hadv : s.generations.advance with
  | none => simp [hadv] at h
  | some r =>
    simp only [hadv] at h
    obtain ⟨rfl, rfl⟩ := h
    obtain ⟨hcounter, hgen⟩ := advance_eq_some hadv
    refine ⟨(pushTrace_posts _ _).config, ?_, ?_, (pushTrace_posts _ _).isShutdown,
      (pushTrace_posts _ _).lastNow, pushTrace_plugins _ _, pushTrace_ledger _ _⟩
    · rw [(pushTrace_posts _ _).generations, hcounter]
    · rw [(pushTrace_posts _ _).currentGeneration, hgen]
      rfl

variable [Lowercase]

variable (h : s.submitQuery query now = some (s', g))
include h

/-- The two ends of a keystroke: a scheduler that is shut down stops after minting the
generation, a running one reclaims and then services its plugins. -/
lemma submitQuery_cases : ∃ s₁, s.keystroke (toLowercase (trim query)) now = some (s₁, g) ∧
      Posts s₁ s' ∧ ((s.isShutdown = true ∧ s' = s₁) ∨
        (s.isShutdown = false ∧ ∃ s₂, s₂ = s₁.reclaimObsoleteQueued g (s.clampNow now) false ∧
          s' = s₂.processQuery (s₂.serviceOrder g) g query (toLowercase (trim query))
            (s.clampNow now))) := by
  unfold submitQuery at h
  cases hk : s.keystroke (toLowercase (trim query)) now with
  | none => simp [hk] at h
  | some r =>
    obtain ⟨s₁, g₁⟩ := r
    have hshut := (keystroke_spec hk).2.2.2.1
    simp only [hk] at h
    cases hs : s.isShutdown with
    | true =>
      simp only [hshut, hs, if_true, some.injEq, Prod.mk.injEq] at h
      obtain ⟨rfl, rfl⟩ := h
      exact ⟨s₁, rfl, .refl _, .inl ⟨rfl, rfl⟩⟩
    | false =>
      simp only [hshut, hs] at h
      obtain ⟨rfl, rfl⟩ := h
      exact ⟨s₁, rfl, (reclaimObsoleteQueued_posts s₁ _ _ false).trans
        (processQuery_posts _ _ _ _ _ _), .inr ⟨rfl, _, rfl, rfl⟩⟩

lemma submitQuery_spec : s'.config = s.config ∧ s'.generations.counter = s.generations.counter + 1 ∧
      g = s'.currentGeneration ∧ s'.isShutdown = s.isShutdown ∧ s'.lastNow = some (s.clampNow now) ∧
      (s.isShutdown = true → s'.plugins = s.plugins) ∧
      (s.isShutdown = false → ∀ p, ∃ full, s'.plugins.get? p = (s.plugins.get? p).map fun state =>
          (state.reclaimed g false).processed full g query (toLowercase (trim query))
            (s.clampNow now)) := by
  obtain ⟨s₁, hk, hposts, hcase⟩ := submitQuery_cases h
  obtain ⟨hconfig, hcounter, hgen, hshut, hnow, hplugins, -⟩ := keystroke_spec hk
  refine ⟨hposts.config.trans hconfig, by rw [hposts.generations, hcounter],
    by rw [hposts.currentGeneration, hgen], hposts.isShutdown.trans hshut,
    hposts.lastNow.trans hnow, ?_⟩
  rcases hcase with ⟨hs, rfl⟩ | ⟨hs, s₂, hs₂, rfl⟩
  · exact ⟨fun _ => hplugins, by simp [hs]⟩
  refine ⟨by simp [hs], fun _ p => ?_⟩
  have hget : s₂.plugins.get? p = (s.plugins.get? p).map (·.reclaimed g false) := by
    rw [hs₂, reclaimObsoleteQueued_plugins, get?_mapValues, hplugins]
  by_cases hp : p ∈ s₂.serviceOrder g
  · obtain ⟨pre, post, horder⟩ := List.append_of_mem hp
    have hn := serviceOrder_nodup s₂ g
    rw [horder] at hn ⊢
    have hturn := processQuery_get? s₂ g query (toLowercase (trim query)) (s.clampNow now) hn
    rw [hget, map_map] at hturn
    exact ⟨_, hturn⟩
  · have hnone : s₂.plugins.get? p = none := by
      rw [get?_eq_none_iff, ← (serviceOrder_perm s₂ g).mem_iff]
      exact hp
    refine ⟨false, ?_⟩
    rw [processQuery_get?_of_notMem s₂ g query _ _ hp, hnone]
    rw [hnone] at hget
    rw [eq_comm, map_eq_none_iff] at hget ⊢
    exact hget

lemma submitQuery_lt : s.currentGeneration < g := by
  obtain ⟨-, hcounter, hg, -⟩ := submitQuery_spec h
  rw [hg]
  exact Nat.lt_of_lt_of_eq (Nat.lt_succ_self _) hcounter.symm

end QueryScheduler

/-- The generations an answer hands to the plugin. -/
def Output.sentTo (p : PluginId) : Output → List Generation
  | .dispatched requests => (requests.filter (·.plugin = p)).map (·.generation)
  | _ => []

namespace Op

def isSubmit : Op → Bool
  | .submitQuery _ _ => true
  | _ => false

def isShutdown : Op → Bool
  | .shutdown _ => true
  | _ => false

def isLocal : Op → Bool
  | .submitQuery _ _ | .tick _ | .shutdown _ => false
  | _ => true

/-- Calls that give the plugin a new entry or take its entry away. -/
def replaces (p : PluginId) : Op → Bool
  | .registerPlugin q _ | .unregisterPlugin q => q = p
  | _ => false

def time? : Op → Option Nat
  | .registerPlugin _ _ | .unregisterPlugin _ | .drainCancellations => none
  | .setPolicy _ _ now | .disablePlugin _ now | .enablePlugin _ now | .submitQuery _ now
  | .tick now | .complete _ _ now | .cancelPlugin _ _ now | .shutdown now
  | .recordResultBatch _ _ _ _ now | .recordRanking _ _ now | .recordPresentation _ _ now =>
    some now

end Op

variable [Lowercase]

/-! The calls on one plugin, as functions of its state. -/

namespace PluginState
variable (state : PluginState)

def reconfigured (policy : PluginPolicy) (reason : CancelReason) : PluginState :=
  { state.invalidated reason with
    policy := normalizePolicy policy, relevant := false, burstStarted := none }

omit [Lowercase]

def switchedOff : PluginState :=
  { state.invalidated .disabled with
    enabled := false, relevant := false, burstStarted := none, inFlight := [] }

def switchedOn : PluginState :=
  { state with enabled := true, relevant := false, burstStarted := none }

def completed (g : Generation) : PluginState :=
  { state with inFlight := state.inFlight.eraseP (·.generation = g) }

def stopped : PluginState :=
  { state.invalidated .shutdown with
    inFlight := [], queue := [], relevant := false, burstStarted := none }

def noted (g : Generation) (completion : BatchCompletion) : PluginState :=
  { state with
    inFlight := QueryScheduler.modifyFirst (·.generation = g)
      (QueryScheduler.noteResult completion) state.inFlight }

def staleNoted : PluginState :=
  { state with diagnostics :=
    { state.diagnostics with
      rejectedStaleResults := satAdd state.diagnostics.rejectedStaleResults 1 } }

end PluginState

/-- `PluginStep s p op state next sent`: the call `op` on the scheduler `s` may take the
state of the registered plugin `p` to `next`, handing over the requests `sent`. -/
inductive PluginStep (s : QueryScheduler) (p : PluginId) :
    Op → PluginState → PluginState → List PendingRequest → Prop
  | same {op : Op} {state : PluginState} (hop : op.isLocal = true)
      (hreg : op.replaces p = false) : PluginStep s p op state state []
  | closed {op : Op} {state : PluginState} (hop : op.isLocal = false)
      (hshut : s.isShutdown = true) : PluginStep s p op state state []
  | setPolicy {policy : PluginPolicy} {now : Nat} {state : PluginState} (reason : CancelReason) :
      PluginStep s p (.setPolicy p policy now) state (state.reconfigured policy reason) []
  | disable {now : Nat} {state : PluginState} :
      PluginStep s p (.disablePlugin p now) state state.switchedOff []
  | enable {now : Nat} {state : PluginState} :
      PluginStep s p (.enablePlugin p now) state state.switchedOn []
  | submit {query : String} {now : Nat} {g : Generation} {full : Bool} {state : PluginState}
      (hlive : s.isShutdown = false) (hg : g = ⟨s.generations.counter + 1⟩) :
      PluginStep s p (.submitQuery query now) state
        ((state.reclaimed g false).processed full g query (toLowercase (trim query))
          (s.clampNow now)) []
  | tick {now : Nat} {state next : PluginState} {sent : List PendingRequest}
      (hlive : s.isShutdown = false)
      (hrun : (state.settled s.currentGeneration (s.clampNow now)).Dispatches (s.clampNow now)
        sent next) :
      PluginStep s p (.tick now) state next.notePeak sent
  | complete {g : Generation} {now : Nat} {state : PluginState} :
      PluginStep s p (.complete p g now) state (state.completed g) []
  | cancel {reason : CancelReason} {now : Nat} {state : PluginState} :
      PluginStep s p (.cancelPlugin p reason now) state (state.invalidated reason) []
  | shutdown {now : Nat} {state : PluginState} :
      PluginStep s p (.shutdown now) state state.stopped []
  | result {g : Generation} {items : Nat} {completion : BatchCompletion} {now : Nat}
      {state : PluginState} :
      PluginStep s p (.recordResultBatch p g items completion now) state
        (state.noted g completion) []
  | staleResult {g : Generation} {items : Nat} {completion : BatchCompletion} {now : Nat}
      {state : PluginState} :
      PluginStep s p (.recordResultBatch p g items completion now) state state.staleNoted []

variable {s : QueryScheduler} {op : Op}

lemma PluginStep.not_replaces {p : PluginId} {state next : PluginState}
    {sent : List PendingRequest} (h : PluginStep s p op state next sent) :
    op.replaces p = false := by
  cases h with
  | same _ hreg => exact hreg
  | closed hop _ => cases op <;> first | rfl | simp [Op.isLocal] at hop
  | _ => rfl

/-- What a call does to the entry of `p`, registered or not. -/
inductive PluginChange (s s' : QueryScheduler) (p : PluginId) (op : Op) (out : Output) : Prop
  | absent (h : s.plugins.get? p = none) (h' : s'.plugins.get? p = none) (hout : out.sentTo p = [])
  | registered (policy : PluginPolicy) (hop : op = .registerPlugin p policy)
      (h' : s'.plugins.get? p = some (PluginState.new (normalizePolicy policy)))
      (hout : out.sentTo p = [])
  | removed (hop : op = .unregisterPlugin p) (h' : s'.plugins.get? p = none)
      (hout : out.sentTo p = [])
  | changed {state next : PluginState} {sent : List PendingRequest}
      (h : s.plugins.get? p = some state) (h' : s'.plugins.get? p = some next)
      (hstep : PluginStep s p op state next sent) (hout : out.sentTo p = sent.map (·.generation))

namespace PluginChange
variable {s s' : QueryScheduler} {op : Op} {out : Output}

variable {f : PluginState → PluginState}

lemma of_get? {p : PluginId} (hout : out.sentTo p = [])
    (hget : s'.plugins.get? p = (s.plugins.get? p).map f)
    (hf : ∀ state, PluginStep s p op state (f state) []) : PluginChange s s' p op out := by
  cases hs : s.plugins.get? p with
  | none => exact absent hs (by simp [hget, hs]) hout
  | some state => exact changed hs (by simp [hget, hs]) (hf state) (by simpa using hout)

lemma of_modify {q : PluginId} (p : PluginId)
    (hop : op.isLocal = true) (hreg : op.replaces p = false) (hout : out.sentTo p = [])
    (hplugins : s'.plugins = s.plugins.modify q f)
    (hf : p = q → ∀ state, PluginStep s p op state (f state) []) : PluginChange s s' p op out := by
  by_cases hpq : p = q
  · exact of_get? hout (by rw [hplugins, hpq, get?_modify_self]) (hf hpq)
  · refine of_get? (f := id) hout ?_ fun _ => .same hop hreg
    rw [hplugins, get?_modify_ne _ _ hpq, map_id_fun, id]

lemma of_same (p : PluginId) (hop : op.isLocal = true) (hreg : op.replaces p = false)
    (hout : out.sentTo p = []) (hget : s'.plugins.get? p = s.plugins.get? p) :
    PluginChange s s' p op out :=
  of_get? (f := id) hout (by simp [hget]) fun _ => .same hop hreg

lemma of_closed (p : PluginId) (hop : op.isLocal = false) (hshut : s.isShutdown = true)
    (hout : out.sentTo p = []) (hplugins : s'.plugins = s.plugins) : PluginChange s s' p op out :=
  of_get? (f := id) hout (by simp [hplugins]) fun _ => .closed hop hshut

end PluginChange

namespace QueryScheduler
variable (s : QueryScheduler)

lemma setPolicy_posts (p : PluginId) (policy : PluginPolicy) (now : Nat) :
    Posts (s.observeNow now) (s.setPolicy p policy now) := by
  unfold setPolicy
  simp only
  split
  · exact .refl _
  · exact (invalidatePlugin_posts _ p _ _ _).trans (modifyPlugin_posts _ p _ fun _ => rfl)

lemma setPolicy_plugins {p : PluginId} {state : PluginState} (policy : PluginPolicy) (now : Nat)
    (hp : s.plugins.get? p = some state) : ∃ reason, (s.setPolicy p policy now).plugins =
      s.plugins.modify p (·.reconfigured policy reason) := by
  have hp' : (s.observeNow now).plugins.get? p = some state := hp
  unfold setPolicy
  simp only [hp', modifyPlugin_plugins, invalidatePlugin_plugins, modify_modify]
  exact ⟨_, rfl⟩

lemma setPolicy_of_none {p : PluginId} (policy : PluginPolicy) (now : Nat)
    (hp : s.plugins.get? p = none) : s.setPolicy p policy now = s.observeNow now := by
  have hp' : (s.observeNow now).plugins.get? p = none := hp
  simp [setPolicy, hp']

omit [Lowercase]

lemma disablePlugin_posts (p : PluginId) (now : Nat) :
    Posts (s.observeNow now) (s.disablePlugin p now) :=
  (invalidatePlugin_posts _ p _ _ _).trans (modifyPlugin_posts _ p _ fun _ => rfl)

lemma disablePlugin_plugins (p : PluginId) (now : Nat) :
    (s.disablePlugin p now).plugins = s.plugins.modify p (·.switchedOff) := by
  simp only [disablePlugin, modifyPlugin_plugins, invalidatePlugin_plugins, modify_modify]
  rfl

lemma complete_posts (p : PluginId) (g : Generation) (now : Nat) :
    Posts (s.observeNow now) (s.complete p g now).1 := by
  have hquiet := modifyPlugin_posts (s.observeNow now) p (·.completed g) fun _ => rfl
  unfold complete
  simp only
  split
  · exact .refl _
  split
  · exact hquiet
  · split
    · exact hquiet.trans (pushTrace_posts _ _)
    · exact hquiet

lemma complete_plugins (p : PluginId) (g : Generation) (now : Nat) :
    (s.complete p g now).1.plugins = s.plugins ∨
      (s.complete p g now).1.plugins = s.plugins.modify p (·.completed g) := by
  unfold complete
  simp only
  split
  · exact .inl rfl
  right
  split
  · rfl
  split
  · rw [pushTrace_plugins]
    rfl
  · rfl

lemma recordResultBatch_posts (p : PluginId) (g : Generation) (items : Nat)
    (completion : BatchCompletion) (now : Nat) :
    Posts (s.observeNow now) (s.recordResultBatch p g items completion now).1 := by
  unfold recordResultBatch
  simp only
  split
  · refine Posts.trans ?_ (pushTrace_posts _ _)
    exact (modifyPlugin_posts (s.observeNow now) p (·.staleNoted) fun _ => rfl).trans
      (.quiet rfl rfl rfl rfl rfl)
  split
  · exact .refl _
  split
  · exact .quiet rfl rfl rfl rfl rfl
  refine Posts.trans (Posts.trans (Posts.trans ?_ (pushTrace_if_posts _ _ _))
    (pushTrace_posts _ _)) (pushTrace_if_posts _ _ _)
  exact (modifyPlugin_posts (s.observeNow now) p (·.noted g completion) fun _ => rfl).trans
    (.quiet rfl rfl rfl rfl rfl)

lemma recordResultBatch_plugins (p : PluginId) (g : Generation) (items : Nat)
    (completion : BatchCompletion) (now : Nat) :
    (s.recordResultBatch p g items completion now).1.plugins = s.plugins ∨
      (s.recordResultBatch p g items completion now).1.plugins =
        s.plugins.modify p (·.noted g completion) ∨
      (s.recordResultBatch p g items completion now).1.plugins =
        s.plugins.modify p (·.staleNoted) := by
  unfold recordResultBatch
  simp only
  split
  · right; right
    simp only [rejectStaleResult, pushTrace_plugins]
    rfl
  · split
    · exact .inl rfl
    split
    · exact .inl rfl
    · right; left
      split <;> split <;> simp only [pushTrace_plugins] <;> rfl

lemma shutdownPlugin_plugins (now : Nat) (p : PluginId) :
    (shutdownPlugin now s p).plugins = s.plugins.modify p (·.stopped) := by
  simp only [shutdownPlugin, modifyPlugin_plugins, invalidatePlugin_plugins, modify_modify]
  rfl

/-- All of a shutdown but its last assignment. -/
lemma shutdownAll_posts (ps : List PluginId) (now : Nat) :
    Posts s (ps.foldl (shutdownPlugin now) s) :=
  .foldl _ ps fun t p _ => (invalidatePlugin_posts t p _ _ _).trans
    (modifyPlugin_posts _ p _ fun _ => rfl)

lemma shutdown_plugins (now : Nat) (hlive : s.isShutdown = false) :
    (s.shutdown now).plugins = s.plugins.mapValues (·.stopped) := by
  simp only [shutdown, observeNow, hlive]
  rw [foldl_local_plugins _ _ (·.stopped) fun s p => shutdownPlugin_plugins s _ p]
  exact foldl_modify_all _ _

lemma unregisterPlugin_plugins (p : PluginId) :
    (s.unregisterPlugin p).1.plugins = s.plugins.erase p ∧
      ((s.unregisterPlugin p).1.plugins.get? p = none) := by
  have herase : (s.plugins.erase p).get? p = none := by simp [get?_erase]
  unfold unregisterPlugin
  split
  · exact ⟨rfl, herase⟩
  rename_i hc
  have hnone : s.plugins.get? p = none := by
    simpa [contains] using hc
  exact ⟨(erase_eq_self hnone).symm, hnone⟩

end QueryScheduler

open QueryScheduler

variable {s' : QueryScheduler} {out : Output}

lemma step_submit {query : String} {now : Nat}
    (h : step s (.submitQuery query now) = some (s', out)) :
    ∃ g, s.submitQuery query now = some (s', g) ∧ out = .generation g := by
  obtain ⟨⟨t, g⟩, hsub, heq⟩ := map_eq_some_iff.mp h
  obtain ⟨rfl, rfl⟩ := Prod.mk.inj heq
  exact ⟨g, hsub, rfl⟩

lemma step_plugin (h : step s op = some (s', out)) (p : PluginId) : PluginChange s s' p op out := by
  cases op with
  | registerPlugin q policy =>
    cases h
    by_cases hpq : p = q
    · subst hpq
      exact .registered policy rfl (by simp [registerPlugin, get?_insert]) rfl
    have hreg : (Op.registerPlugin q policy).replaces p = false := by
      simp [Op.replaces, Ne.symm hpq]
    have hget : (s.registerPlugin q policy).plugins.get? p = s.plugins.get? p := by
      simp [registerPlugin, get?_insert, hpq]
    exact .of_same p rfl hreg rfl hget
  | setPolicy q policy now =>
    cases h
    cases hq : s.plugins.get? q with
    | none =>
      exact .of_same p rfl rfl rfl (by rw [setPolicy_of_none s policy now hq]; rfl)
    | some state =>
      obtain ⟨reason, hplugins⟩ := setPolicy_plugins s policy now hq
      exact .of_modify p rfl rfl rfl hplugins fun hpq _ => hpq ▸ .setPolicy reason
  | disablePlugin q now =>
    cases h
    exact .of_modify p rfl rfl rfl (disablePlugin_plugins s q now) fun hpq _ => hpq ▸ .disable
  | enablePlugin q now =>
    cases h
    have hplugins : (s.enablePlugin q now).plugins = s.plugins.modify q (·.switchedOn) := rfl
    exact .of_modify p rfl rfl rfl hplugins fun hpq _ => hpq ▸ .enable
  | submitQuery query now =>
    obtain ⟨g, hsub, rfl⟩ := step_submit h
    obtain ⟨-, hcounter, hg, -, -, hclosed, hlive⟩ := submitQuery_spec hsub
    have hg' : g = ⟨s.generations.counter + 1⟩ := by
      rw [hg, ← hcounter]
      rfl
    cases hs : s.isShutdown with
    | true => exact .of_closed p rfl hs rfl (hclosed hs)
    | false =>
      obtain ⟨full, hget⟩ := hlive hs p
      exact .of_get? rfl hget fun _ => .submit hs hg'
  | tick now =>
    cases h
    cases hs : s.isShutdown with
    | true =>
      have htick : s.tick now = (s.observeNow now, []) := by simp [tick, observeNow, hs]
      rw [htick]
      exact .of_closed p rfl hs rfl rfl
    | false =>
      obtain ⟨hkeys, hmem, hper⟩ := tick_spec s now hs
      cases hp : s.plugins.get? p with
      | none =>
        have hnot := (get?_eq_none_iff _ _).mp hp
        refine .absent hp ((get?_eq_none_iff _ _).mpr (hkeys ▸ hnot)) ?_
        have hnil : (s.tick now).2.filter (·.plugin = p) = [] := by
          rw [List.filter_eq_nil_iff]
          intro r hr hrp
          exact hnot (of_decide_eq_true hrp ▸ hmem r hr)
        simp [Output.sentTo, hnil]
      | some state =>
        obtain ⟨sent, next, hrun, hnext, hout⟩ := hper p state hp
        refine .changed hp hnext (.tick hs hrun) ?_
        simp [Output.sentTo, hout, PendingRequest.handedTo]
  | complete q g now =>
    cases h
    rcases complete_plugins s q g now with hsame | hmod
    · exact .of_same p rfl rfl rfl (by rw [hsame])
    · exact .of_modify p rfl rfl rfl hmod fun hpq _ => hpq ▸ .complete
  | cancelPlugin q reason now =>
    cases h
    exact .of_modify p rfl rfl rfl (invalidatePlugin_plugins (s.observeNow now) q reason _ true)
      fun hpq _ => hpq ▸ .cancel
  | unregisterPlugin q =>
    cases h
    obtain ⟨herase, hnone⟩ := unregisterPlugin_plugins s q
    by_cases hpq : p = q
    · subst hpq
      exact .removed rfl hnone rfl
    have hreg : (Op.unregisterPlugin q).replaces p = false := by
      simp [Op.replaces, Ne.symm hpq]
    have hget : (s.unregisterPlugin q).1.plugins.get? p = s.plugins.get? p := by
      simp [herase, get?_erase, hpq]
    exact .of_same p rfl hreg rfl hget
  | drainCancellations =>
    cases h
    exact .of_same p rfl rfl rfl rfl
  | shutdown now =>
    cases h
    cases hs : s.isShutdown with
    | true =>
      have hsame : (s.shutdown now).plugins = s.plugins := by simp [shutdown, observeNow, hs]
      exact .of_closed p rfl hs rfl hsame
    | false =>
      have hget : (s.shutdown now).plugins.get? p = (s.plugins.get? p).map (·.stopped) := by
        rw [shutdown_plugins s now hs, get?_mapValues]
      exact .of_get? rfl hget fun _ => .shutdown
  | recordResultBatch q g items completion now =>
    cases h
    rcases recordResultBatch_plugins s q g items completion now with hsame | hmod | hmod
    · exact .of_same p rfl rfl rfl (by rw [hsame])
    · exact .of_modify p rfl rfl rfl hmod fun hpq _ => hpq ▸ .result
    · exact .of_modify p rfl rfl rfl hmod fun hpq _ => hpq ▸ .staleResult
  | recordRanking g n now | recordPresentation g n now =>
    cases h
    exact .of_same p rfl rfl rfl (congrArg (·.get? p) (pushTrace_plugins _ _))

/-- Where the state of a plugin after a call comes from. -/
lemma step_origin {p : PluginId} {next : PluginState} (h : step s op = some (s', out))
    (hnext : s'.plugins.get? p = some next) :
    (∃ policy, op = .registerPlugin p policy ∧ next = .new (normalizePolicy policy)) ∨
      ∃ state sent, s.plugins.get? p = some state ∧ PluginStep s p op state next sent := by
  cases step_plugin h p with
  | absent _ h' _ | removed _ h' _ => simp [h'] at hnext
  | registered policy hop h' _ => exact .inl ⟨policy, hop, some_inj.mp (hnext.symm.trans h')⟩
  | changed hs h' hp _ =>
    obtain rfl := some_inj.mp (h'.symm.trans hnext)
    exact .inr ⟨_, _, hs, hp⟩

/-- What a call does outside the plugin table. -/
structure StepFrame (s : QueryScheduler) (op : Op) (s' : QueryScheduler) (out : Output) :
    Prop where
  config : s'.config = s.config
  counter : s'.generations.counter = s.generations.counter + if op.isSubmit then 1 else 0
  submitted : op.isSubmit = true → out = .generation s'.currentGeneration
  isShutdown : s'.isShutdown = (s.isShutdown || op.isShutdown)
  lastNow : s'.lastNow = op.time?.elim s.lastNow fun now => some (s.clampNow now)

/-- The calls that read the clock, but for the query and the shutdown. -/
lemma step_posts {now : Nat} (h : step s op = some (s', out)) (hsub : op.isSubmit = false)
    (hshut : op.isShutdown = false) (htime : op.time? = some now) :
    Posts (s.observeNow now) s' := by
  cases op with
  | registerPlugin | unregisterPlugin | drainCancellations => cases htime
  | submitQuery => cases hsub
  | shutdown => cases hshut
  | setPolicy q policy _ =>
    cases htime
    cases h
    exact setPolicy_posts s q policy now
  | disablePlugin q _ =>
    cases htime
    cases h
    exact disablePlugin_posts s q now
  | enablePlugin q _ =>
    cases htime
    cases h
    exact modifyPlugin_posts (s.observeNow now) q _ fun _ => rfl
  | tick _ =>
    cases htime
    cases h
    exact tick_posts s now
  | complete q g _ =>
    cases htime
    cases h
    exact complete_posts s q g now
  | cancelPlugin q reason _ =>
    cases htime
    cases h
    exact invalidatePlugin_posts (s.observeNow now) q _ _ _
  | recordResultBatch q g items completion _ =>
    cases htime
    cases h
    exact recordResultBatch_posts s q g items completion now
  | recordRanking | recordPresentation =>
    cases htime
    cases h
    refine Posts.trans ?_ (pushTrace_posts _ _)
    exact .quiet rfl rfl rfl rfl rfl

omit [Lowercase] in
lemma StepFrame.of_posts {now : Nat} (h : Posts (s.observeNow now) s')
    (hsub : op.isSubmit = false) (hshut : op.isShutdown = false) (htime : op.time? = some now) :
    StepFrame s op s' out where
  config := h.config
  counter := by simp [h.generations, hsub, observeNow]
  submitted := by simp [hsub]
  isShutdown := by simp [h.isShutdown, hshut, observeNow]
  lastNow := by simp [h.lastNow, htime, observeNow]

lemma step_frame (h : step s op = some (s', out)) : StepFrame s op s' out := by
  cases op with
  | registerPlugin q policy =>
    cases h
    exact ⟨rfl, rfl, by simp [Op.isSubmit], by simp [registerPlugin, Op.isShutdown], rfl⟩
  | submitQuery query now =>
    obtain ⟨g, hsub, rfl⟩ := step_submit h
    obtain ⟨hconfig, hcounter, hg, hshut, hnow, -, -⟩ := submitQuery_spec hsub
    exact ⟨hconfig, hcounter, fun _ => by rw [hg], by simp [hshut, Op.isShutdown], hnow⟩
  | unregisterPlugin q =>
    cases h
    unfold unregisterPlugin
    split <;> exact ⟨rfl, rfl, by simp [Op.isSubmit], by simp [Op.isShutdown], rfl⟩
  | drainCancellations =>
    cases h
    exact ⟨rfl, rfl, by simp [Op.isSubmit], by simp [drainCancellations, Op.isShutdown], rfl⟩
  | shutdown now =>
    cases h
    unfold shutdown
    simp only
    split
    · rename_i hs
      have hs' : s.isShutdown = true := hs
      exact ⟨rfl, rfl, by simp [Op.isSubmit], by simp [observeNow, hs'], rfl⟩
    · have hposts := shutdownAll_posts (s.observeNow now) s.plugins.keys (s.clampNow now)
      exact ⟨hposts.config, congrArg counter hposts.generations,
        by simp [Op.isSubmit], by simp [Op.isShutdown], hposts.lastNow⟩
  | _ => exact .of_posts (step_posts h rfl rfl rfl) rfl rfl rfl

/-- Calls that neither change who is registered nor hand out notices. -/
def Op.onlyPosts : Op → Bool
  | .registerPlugin _ _ | .unregisterPlugin _ | .drainCancellations => false
  | _ => true

lemma step_entries (h : step s op = some (s', out)) (hop : op.onlyPosts = true) :
    ∃ entries, (∀ e ∈ entries, e.1 ∈ s.plugins.keys) ∧ s'.ledger = s.ledger.postAll entries := by
  cases op with
  | registerPlugin | unregisterPlugin | drainCancellations => cases hop
  | submitQuery query now =>
    obtain ⟨g, hsub, -⟩ := step_submit h
    obtain ⟨s₁, hk, hposts, -⟩ := submitQuery_cases hsub
    obtain ⟨-, -, -, -, -, hplugins, hledger⟩ := keystroke_spec hk
    rw [← hplugins, ← hledger]
    exact hposts.entries
  | shutdown now =>
    cases h
    unfold shutdown
    simp only
    split
    · exact ⟨[], by simp, rfl⟩
    · exact (shutdownAll_posts (s.observeNow now) s.plugins.keys (s.clampNow now)).entries
  | _ => exact (step_posts h rfl rfl rfl).entries

lemma step_total (s : QueryScheduler) (op : Op)
    (h : op.isSubmit = true → s.generations.counter < u64Max) :
    ∃ s' out, step s op = some (s', out) := by
  cases op with
  | submitQuery query now =>
    have hadv : (s.observeNow now).generations.advance = _ :=
      advance_of_lt (h rfl)
    simp only [step, submitQuery, keystroke, hadv]
    split <;> exact ⟨_, _, rfl⟩
  | _ => exact ⟨_, _, rfl⟩

end CriKey.Scheduler
