import CriKey.Scheduler.Freshness

/-! The shared bound on queued requests. Every run keeps the queues within it; whether a
keystroke also clears every obsolete slot depends on the plugins whose turn prepares
no request. -/
namespace CriKey.Scheduler
open CriKey.Base CriKey.Core PluginState Table Option Nat List

namespace PluginState

/-- A newest-wins slot that a keystroke leaves as it is: the query passes the gate, but a
leading-only burst that has begun prepares no request to replace it with. -/
def keepsStaleSlot (state : PluginState) (normalized : String) : Bool :=
  effectiveQueuePolicy state.policy == .replaceOldest && !state.queue.isEmpty &&
    (gateReason state normalized).isNone && state.policy.profile.allowsTimeDebounce &&
    state.relevant && !state.policy.debounce.trailingEdge

lemma prepare_eq_none_iff (state : PluginState) (g : Generation) (now : Nat)
    (hn : state.policy.Normal) : (state.prepare g now).2 = none ↔
      state.policy.profile.allowsTimeDebounce = true ∧ state.relevant = true ∧
        state.policy.debounce.trailingEdge = false := by
  have hedge := hn.edge
  unfold prepare
  rw [settleBurst_eq]
  simp only
  cases state.policy.profile.allowsTimeDebounce <;> cases state.relevant <;>
    cases hl : state.policy.debounce.leadingEdge <;>
    cases ht : state.policy.debounce.trailingEdge <;> simp_all

/-- A plugin as a keystroke of generation `g` meets it: explicit queues are empty. -/
structure Ready (g : Generation) (state : PluginState) : Prop where
  policy : state.policy.Normal
  queue_length : state.queue.length ≤ 1
  stale : ∀ r ∈ state.queue, r.generation ≠ g
  explicit_empty : effectiveQueuePolicy state.policy ≠ .replaceOldest → state.queue = []

lemma Fresh.ready {current g : Generation} {closed : Bool} {sent : List Generation}
    {state : PluginState} (h : state.Fresh current closed sent) (hlt : current < g) :
    (state.reclaimed g false).Ready g where
  policy := by simpa using h.policy
  queue_length := by
    have hlen := h.queue_length
    rw [queuedGens, length_map] at hlen
    exact (state.reclaimed_queue_sublist g false).length_le.trans hlen
  stale := by
    intro r hr he
    have hmem := (state.reclaimed_queue_sublist g false).subset hr
    have hle := h.queued_le r.generation (mem_map_of_mem hmem)
    exact absurd (he ▸ hle) hlt.not_ge
  explicit_empty := by
    intro hp
    simp only [reclaimed_frame] at hp
    exact (h.reclaimed_slot hlt).resolve_left hp

namespace Ready
variable {state : PluginState} {g : Generation} (h : state.Ready g) (full : Bool)
  (query normalized : String) (now : Nat)
include h

lemma pluginQueueFull_eq : (state.superseding.prepare g now).1.pluginQueueFull = false := by
  have hcap := h.policy.capacity
  unfold pluginQueueFull
  by_cases hp : effectiveQueuePolicy state.policy = .replaceOldest
  · simp [hp]
    omega
  · have hq := h.explicit_empty hp
    simp [hq]
    omega

lemma canReuseSlot_iff :
    (state.superseding.prepare g now).1.canReuseSlot = true ↔ state.queue ≠ [] := by
  have hempty := h.explicit_empty
  unfold canReuseSlot
  simp only [prepare_frame, superseding_frame]
  cases hp : effectiveQueuePolicy state.policy with
  | replaceOldest => simp [length_pos_iff]
  | rejectNewest =>
    have hq := hempty (by simp [hp])
    simp [hq]
  | dropOldest =>
    have hq := hempty (by simp [hp])
    simp [hq]
    omega

lemma enqueue_eq (request : PendingRequest) :
    ((state.superseding.prepare g now).1.enqueue request).queue = [request] := by
  apply enqueue_queue
  simp only [prepare_frame, superseding_frame]
  by_cases hp : effectiveQueuePolicy state.policy = .replaceOldest
  · exact Or.inl hp
  · exact Or.inr (h.explicit_empty hp)

lemma processed_queue : (state.processed full g query normalized now).queue =
      match state.outcome full g query normalized now with
      | .gated => []
      | .queued request => [request]
      | _ => state.queue := by
  unfold processed
  cases state.outcome full g query normalized now with
  | gated => simp
  | queued request => simp [h.enqueue_eq now]
  | idle | refusedGlobal | refusedPlugin => simp [noteRejected]

lemma outcome_eq : state.outcome full g query normalized now =
      if (gateReason state normalized).isSome then .gated
      else
        match (state.superseding.prepare g now).2 with
        | none => .idle
        | some prepared =>
          if full && state.queue.isEmpty then .refusedGlobal
          else .queued (pendingRequest g query prepared) := by
  have hfull := h.pluginQueueFull_eq now
  have hreuse : (state.superseding.prepare g now).1.canReuseSlot = !state.queue.isEmpty := by
    rw [Bool.eq_iff_iff, h.canReuseSlot_iff now]
    simp
  unfold outcome
  cases gateReason state normalized with
  | some reason => rfl
  | none =>
    cases hprep : state.superseding.prepare g now with
    | mk next prepared =>
      rw [hprep] at hfull hreuse
      cases prepared with
      | none => rfl
      | some prepared => simp [hfull, hreuse]

lemma not_refusedPlugin : state.outcome full g query normalized now ≠ .refusedPlugin := by
  intro hout
  rw [h.outcome_eq] at hout
  split at hout
  · simp at hout
  · split at hout
    · simp at hout
    · split at hout <;> simp at hout

lemma refusedGlobal_spec (hout : state.outcome full g query normalized now = .refusedGlobal) :
    full = true ∧ state.queue = [] := by
  rw [h.outcome_eq] at hout
  split at hout
  · simp at hout
  split at hout
  · simp at hout
  split at hout
  · rename_i hfull
    simpa using hfull
  · simp at hout

lemma processed_length :
    (state.processed full g query normalized now).queue.length ≤ state.queue.length ∨ full = false ∧
        (state.processed full g query normalized now).queue.length = state.queue.length + 1 := by
  rw [h.processed_queue]
  cases hout : state.outcome full g query normalized now with
  | gated | idle | refusedGlobal | refusedPlugin => simp
  | queued request =>
    obtain ⟨-, -, -, hreuse, -⟩ := outcome_queued state hout
    cases hq : state.queue with
    | nil =>
      right
      refine ⟨?_, rfl⟩
      cases full with
      | false => rfl
      | true => exact absurd hq ((h.canReuseSlot_iff now).mp (hreuse rfl))
    | cons r rs => simp

lemma processed_current :
    (∀ r ∈ (state.processed full g query normalized now).queue, r.generation = g) ↔
      state.keepsStaleSlot normalized = false := by
  have hnormal : state.superseding.policy.Normal := by simpa using h.policy
  have hnone := prepare_eq_none_iff state.superseding g now hnormal
  simp only [superseding_frame] at hnone
  have hout := h.outcome_eq full query normalized now
  rw [h.processed_queue]
  constructor
  · intro hall
    by_contra hkeeps
    simp only [keepsStaleSlot, Bool.not_eq_false, Bool.and_eq_true, Bool.not_eq_true',
      isNone_iff_eq_none] at hkeeps
    obtain ⟨⟨⟨⟨⟨-, hqueue⟩, hgate⟩, htime⟩, hrel⟩, htrail⟩ := hkeeps
    simp only [hgate, hnone.mpr ⟨htime, hrel, htrail⟩] at hout
    rw [hout] at hall
    cases hq : state.queue with
    | nil => simp [hq] at hqueue
    | cons r rs =>
      have hr : r ∈ state.queue := by simp [hq]
      exact h.stale r hr (hall r hr)
  · intro hkeeps
    cases hcase : state.outcome full g query normalized now with
    | gated => simp
    | queued request =>
      obtain ⟨prepared, -, rfl, -, -⟩ := outcome_queued state hcase
      simp [pendingRequest_generation]
    | refusedPlugin => exact absurd hcase (h.not_refusedPlugin full query normalized now)
    | refusedGlobal =>
      simp [(h.refusedGlobal_spec full query normalized now hcase).2]
    | idle =>
      rw [hcase] at hout
      split at hout
      · simp at hout
      rename_i hgate
      obtain ⟨htime, hrel, htrail⟩ := hnone.mp (outcome_idle state hcase)
      have hgate' : (gateReason state normalized).isNone = true := by simpa using hgate
      by_cases hp : effectiveQueuePolicy state.policy = .replaceOldest
      · have hq : state.queue = [] := by
          simpa [keepsStaleSlot, hp, hgate', htime, hrel, htrail] using hkeeps
        simp [hq]
      · simp [h.explicit_empty hp]

end Ready
end PluginState

namespace QueryScheduler
variable {s : QueryScheduler} {g : Generation} (query normalized : String) (now : Nat)

def queuedTotal (s : QueryScheduler) : Nat := s.plugins.sum (·.queue.length)

/-- The number of queued requests of one generation. -/
def queuedOf (s : QueryScheduler) (g : Generation) : Nat :=
  s.plugins.sum fun state => (state.queue.filter (·.generation = g)).length

/-- The shared bound on queued requests. -/
def Bounded (s : QueryScheduler) : Prop := s.queuedTotal ≤ s.config.requestQueueCapacity

lemma processQueryForPlugin_bounded {p : PluginId}
    (hready : ∀ state, s.plugins.get? p = some state → state.Ready g) (h : s.Bounded) :
    (s.processQueryForPlugin p g query normalized now).Bounded := by
  unfold Bounded queuedTotal at h ⊢
  rw [processQueryForPlugin_plugins, (processQueryForPlugin_posts ..).config]
  cases hp : s.plugins.get? p with
  | none => rwa [modify_eq_self _ hp]
  | some state =>
    have hsum := sum_modify (·.queue.length)
      (fun state => state.processed s.isFull g query normalized now) hp
    rcases (hready state hp).processed_length s.isFull query normalized now with
      hle | ⟨hfull, heq⟩
    · omega
    have hroom : ¬ s.config.requestQueueCapacity ≤ s.plugins.sum (·.queue.length) := by
      rw [← isFull_iff, hfull]
      simp
    omega

lemma processQuery_bounded (ps : List PluginId) (hn : ps.Nodup)
    (hready : ∀ p ∈ ps, ∀ state, s.plugins.get? p = some state → state.Ready g) (h : s.Bounded) :
    (s.processQuery ps g query normalized now).Bounded := by
  induction ps generalizing s with
  | nil => exact h
  | cons p ps ih =>
    obtain ⟨hp, hn⟩ := nodup_cons.mp hn
    refine ih hn ?_ (processQueryForPlugin_bounded query normalized now (hready p mem_cons_self) h)
    intro q hq state hs
    have hne : q ≠ p := fun he => hp (he ▸ hq)
    rw [processQueryForPlugin_plugins, get?_modify_ne _ _ hne] at hs
    exact hready q (mem_cons_of_mem _ hq) state hs

/-- The shared bound may only refuse a plugin without a slot, so the stale newest-wins
slots are all serviced before. What is left unserviced then holds nothing. -/
lemma unserviced_empty {p q : PluginId} {state : PluginState}
    (hready : ∀ q state, s.plugins.get? q = some state → state.Ready g)
    (hp : s.reclaimsReplaceSlot g p = false) (hq : s.plugins.get? q = some state)
    (hbefore : q ∉ (s.serviceOrder g).takeWhile (· ≠ p)) : state.queue = [] := by
  have hfirst : q ∉ s.plugins.keys.filter (s.reclaimsReplaceSlot g) := by
    intro hmem
    apply hbefore
    unfold serviceOrder
    rw [takeWhile_append_of_pos]
    · exact mem_append_left _ hmem
    · intro a ha
      have hrec := (mem_filter.mp ha).2
      simp only [decide_eq_true_eq]
      intro he
      rw [he, hp] at hrec
      simp at hrec
  have hslot : s.reclaimsReplaceSlot g q = false := by
    rw [mem_filter, not_and] at hfirst
    simpa using hfirst (mem_keys_of_get? hq)
  have hr := hready q state hq
  by_cases hpol : effectiveQueuePolicy state.policy = .replaceOldest
  · simp only [reclaimsReplaceSlot, hq, any_some, hpol, beq_self_eq_true, Bool.true_and,
      List.any_eq_false, decide_eq_true_eq, not_not] at hslot
    rw [eq_nil_iff_forall_not_mem]
    exact fun r hmem => hr.stale r hmem (hslot r hmem)
  · exact hr.explicit_empty hpol

end QueryScheduler

section
variable [Lowercase] {s s' : QueryScheduler}

namespace QueryScheduler

variable (s : QueryScheduler) (query : String) (now : Nat)

/-- The scheduler when a keystroke comes to the plugin `p`: the clock and the generation
have moved, explicit queues are reclaimed and the plugins before `p` are serviced. -/
def atTurn (p : PluginId) : Option QueryScheduler :=
  let now' := s.clampNow now
  let normalized := toLowercase (trim query)
  (s.keystroke normalized now).map fun r =>
    let s := r.1.reclaimObsoleteQueued r.2 now' false
    s.processQuery ((s.serviceOrder r.2).takeWhile (· ≠ p)) r.2 query normalized now'

/-- The turn of `p` refuses its request because the shared queue is full. -/
def refusesGlobally (p : PluginId) : Bool :=
  (s.plugins.get? p).any fun state =>
    state.outcome s.isFull s.currentGeneration query (toLowercase (trim query)) now = .refusedGlobal

/-- A keystroke left no obsolete work behind and refused none for its sake. -/
structure Cleared (s' : QueryScheduler)
    (g : Generation) : Prop where
  current : ∀ p state, s'.plugins.get? p = some state → ∀ r ∈ state.queue, r.generation = g
  total : s'.queuedTotal ≤ s'.config.requestQueueCapacity
  single : ∀ p state, s'.plugins.get? p = some state → state.queue.length ≤ 1
  refusal : ∀ p m, s.atTurn query now p = some m →
    m.refusesGlobally query (s.clampNow now) p = true → m.queuedOf g = m.config.requestQueueCapacity

end QueryScheduler

open QueryScheduler

variable {now : Nat} {g : Generation} {p : PluginId} {state : PluginState}

lemma submit_turn {query : String} (hsub : s.submitQuery query now = some (s', g))
    (hlive : s.isShutdown = false) (hp : s.plugins.get? p = some state) :
    ∃ m, s.atTurn query now p = some m ∧ m.currentGeneration = g ∧
      m.plugins.get? p = some (state.reclaimed g false) ∧
      s'.plugins.get? p = some ((state.reclaimed g false).processed m.isFull g query
        (toLowercase (trim query)) (s.clampNow now)) := by
  obtain ⟨s₁, hk, -, hcase⟩ := submitQuery_cases hsub
  obtain ⟨-, -, hg, -, -, hplugins, -⟩ := keystroke_spec hk
  cases hcase with
  | inl hshut => simp [hlive] at hshut
  | inr hturns =>
    obtain ⟨-, s₂, hs₂, rfl⟩ := hturns
    have hget : s₂.plugins.get? p = some (state.reclaimed g false) := by
      rw [hs₂, reclaimObsoleteQueued_plugins, get?_mapValues, hplugins, hp]
      rfl
    have hcur : s₂.currentGeneration = g := by
      rw [hs₂, (reclaimObsoleteQueued_posts s₁ g _ false).currentGeneration, hg]
    have hmem : p ∈ s₂.serviceOrder g :=
      (serviceOrder_perm s₂ g).mem_iff.mpr (mem_keys_of_get? hget)
    obtain ⟨pre, post, horder⟩ := append_of_mem hmem
    have hn := serviceOrder_nodup s₂ g
    rw [horder] at hn
    have hpre : p ∉ pre := fun h => disjoint_of_nodup_append hn h mem_cons_self
    have htake : (s₂.serviceOrder g).takeWhile (· ≠ p) = pre := by
      rw [horder, takeWhile_append_of_pos]
      · simp
      · intro a ha
        simpa using fun he : a = p => hpre (he ▸ ha)
    refine ⟨s₂.processQuery pre g query (toLowercase (trim query)) (s.clampNow now), ?_, ?_, ?_, ?_⟩
    · simp only [atTurn, hk, map_some]
      rw [← hs₂, htake]
    · rw [(processQuery_posts s₂ g query _ _ pre).currentGeneration, hcur]
    · rw [processQuery_get?_of_notMem s₂ g query _ _ hpre, hget]
    · rw [horder, processQuery_get? s₂ g query _ _ hn, hget]
      rfl

variable {sent : List PendingRequest}

omit [Lowercase] in
lemma PluginState.Dispatches.queue_length {next : PluginState}
    (h : state.Dispatches now sent next) :
    next.queue.length ≤ state.queue.length := by
  induction h with
  | start => exact le_refl _
  | @next _ mid request _ _ ih =>
    have htail : (mid.dispatch request now).queue.length = mid.queue.length - 1 := by
      simp [dispatch]
    omega

lemma PluginStep.queue_length {op : Op} {next : PluginState} (h : PluginStep s p op state next sent)
    (hop : op.isSubmit = false ∨ s.isShutdown = true) :
    next.queue.length ≤ state.queue.length := by
  cases h with
  | submit hlive _ => simp [Op.isSubmit, hlive] at hop
  | tick _ hrun =>
    have hlen := hrun.queue_length
    rw [settled_queue, length_map] at hlen
    exact hlen.trans (length_filter_le _ _)
  | setPolicy _ | disable | cancel | shutdown =>
    simp [reconfigured, switchedOff, stopped]
  | same _ _ | closed _ _ | enable | complete | result | staleResult => exact le_refl _

variable {tr : List (Op × Output)} {s₁ : QueryScheduler}

omit [Lowercase] in
lemma Fresh.ready {normalized : String} (h : Fresh tr s)
    (hk : s.keystroke normalized now = some (s₁, g)) (p : PluginId) (state : PluginState)
    (hs : (s₁.reclaimObsoleteQueued g (s.clampNow now) false).plugins.get? p = some state) :
    state.Ready g := by
  obtain ⟨-, hcounter, hg, -, -, hplugins, -⟩ := keystroke_spec hk
  rw [reclaimObsoleteQueued_plugins, get?_mapValues, hplugins, map_eq_some_iff] at hs
  obtain ⟨old, hold, rfl⟩ := hs
  apply (h.plugin p old hold).ready
  rw [hg, Generation.lt_iff]
  exact lt_of_lt_of_eq (lt_succ_self _) hcounter.symm

omit [Lowercase] in
lemma reclaimObsoleteQueued_total (s : QueryScheduler) (g : Generation) (now : Nat) :
    (s.reclaimObsoleteQueued g now false).queuedTotal ≤ s.queuedTotal := by
  unfold queuedTotal
  rw [reclaimObsoleteQueued_plugins, sum_mapValues]
  apply Table.sum_le_sum
  intro p state _
  exact (state.reclaimed_queue_sublist g false).length_le

omit [Lowercase] in
lemma keystroke_bounded {normalized : String} (hk : s.keystroke normalized now = some (s₁, g))
    (h : s.Bounded) : (s₁.reclaimObsoleteQueued g (s.clampNow now) false).Bounded := by
  obtain ⟨hconfig, -, -, -, -, hplugins, -⟩ := keystroke_spec hk
  have hsame : s₁.queuedTotal = s.queuedTotal := by
    unfold queuedTotal
    rw [hplugins]
  have hle := reclaimObsoleteQueued_total s₁ g (s.clampNow now)
  unfold Bounded at h ⊢
  rw [(reclaimObsoleteQueued_posts ..).config, hconfig]
  omega

lemma step_bounded {op : Op} {out : Output} (hfresh : Fresh tr s) (h : s.Bounded)
    (hstep : step s op = some (s', out)) : s'.Bounded := by
  by_cases hop : op.isSubmit = false ∨ s.isShutdown = true
  · rw [Bounded, (step_frame hstep).config]
    refine le_trans (sum_le_sum_of_get? _ ?_) h
    intro p next hnext
    obtain ⟨policy, -, rfl⟩ | ⟨state, sent, hs, hp⟩ := step_origin hstep hnext
    · exact zero_le _
    · simpa [hs] using hp.queue_length hop
  · rw [not_or] at hop
    cases op with
    | submitQuery query now =>
      obtain ⟨g, hsub, -⟩ := step_submit hstep
      obtain ⟨s₁, hk, -, ⟨hs, -⟩ | ⟨-, s₂, rfl, rfl⟩⟩ := submitQuery_cases hsub
      · exact absurd hs hop.2
      · exact processQuery_bounded _ _ _ _ (serviceOrder_nodup _ _)
          (fun p _ state hs => hfresh.ready hk p state hs) (keystroke_bounded hk h)
    | _ => simp [Op.isSubmit] at hop

lemma bounded_exec {config : SchedulerConfig} (h : Exec step (QueryScheduler.new config) tr s) :
    s.Bounded :=
  Exec.invariant (fun _ s => s.Bounded)
    (by simp [Bounded, queuedTotal, QueryScheduler.new, sum_empty])
    (fun _ _ _ _ _ hexec hI hs => step_bounded (fresh_exec hexec) hI hs) h

omit [Lowercase] in
lemma PluginState.keepsStaleSlot_reclaimed (state : PluginState) (g : Generation)
    (normalized : String) :
    (state.reclaimed g false).keepsStaleSlot normalized = state.keepsStaleSlot normalized := by
  by_cases hp : effectiveQueuePolicy state.policy = .replaceOldest
  · simp [reclaimed, hp]
  · have hpol : (effectiveQueuePolicy state.policy == .replaceOldest) = false := by
      simpa using hp
    simp [keepsStaleSlot, hpol]

omit [Lowercase] in
lemma PluginState.Ready.processed_single (h : state.Ready g) (full : Bool)
    (query normalized : String) (now : Nat) :
    (state.processed full g query normalized now).queue.length ≤ 1 := by
  rw [h.processed_queue]
  cases state.outcome full g query normalized now with
  | gated => exact zero_le _
  | queued request => exact le_refl _
  | idle | refusedGlobal | refusedPlugin => exact h.queue_length

lemma refusal_current {m : QueryScheduler} {query : String} (hfresh : Fresh tr s)
    (hbound : s.Bounded) (hk : s.keystroke (toLowercase (trim query)) now = some (s₁, g))
    (hkeeps : ∀ q state, s.plugins.get? q = some state →
      state.keepsStaleSlot (toLowercase (trim query)) = false) (hm : s.atTurn query now p = some m)
    (hrefused : m.refusesGlobally query (s.clampNow now) p = true) :
    m.queuedOf g = m.config.requestQueueCapacity := by
  obtain ⟨-, -, hg, -, -, hplugins, -⟩ := keystroke_spec hk
  simp only [atTurn, hk, map_some, some.injEq] at hm
  have hready := hfresh.ready hk
  have hkeeps₂ : ∀ q state,
      (s₁.reclaimObsoleteQueued g (s.clampNow now) false).plugins.get? q = some state →
        state.keepsStaleSlot (toLowercase (trim query)) = false := by
    intro q state hq
    rw [reclaimObsoleteQueued_plugins, get?_mapValues, hplugins, map_eq_some_iff] at hq
    obtain ⟨old, hold, rfl⟩ := hq
    rw [keepsStaleSlot_reclaimed]
    exact hkeeps q old hold
  have hbound₂ := keystroke_bounded hk hbound
  have hcur₂ : (s₁.reclaimObsoleteQueued g (s.clampNow now) false).currentGeneration = g := by
    rw [(reclaimObsoleteQueued_posts s₁ g (s.clampNow now) false).currentGeneration, hg]
  generalize s₁.reclaimObsoleteQueued g (s.clampNow now) false = s₂ at *
  have hnodup := serviceOrder_nodup s₂ g
  have hsub : ((s₂.serviceOrder g).takeWhile (· ≠ p)).Sublist (s₂.serviceOrder g) :=
    takeWhile_sublist _
  have hmposts := processQuery_posts s₂ g query (toLowercase (trim query)) (s.clampNow now)
    ((s₂.serviceOrder g).takeWhile (· ≠ p))
  have hmbound := processQuery_bounded query (toLowercase (trim query)) (s.clampNow now)
    ((s₂.serviceOrder g).takeWhile (· ≠ p)) (hnodup.sublist hsub)
    (fun q _ state hq => hready q state hq) hbound₂
  have hnotin : p ∉ (s₂.serviceOrder g).takeWhile (· ≠ p) := by
    intro hp
    have hall := all_takeWhile (p := fun q => decide (q ≠ p)) (l := s₂.serviceOrder g)
    simpa using all_eq_true.mp hall p hp
  have hpget := processQuery_get?_of_notMem s₂ g query (toLowercase (trim query))
    (s.clampNow now) hnotin
  rw [hm] at hmposts hmbound hpget
  -- the refused plugin has no slot, so it is serviced in the second group
  unfold refusesGlobally at hrefused
  rw [hpget, hmposts.currentGeneration, hcur₂] at hrefused
  cases hp : s₂.plugins.get? p with
  | none => simp [hp] at hrefused
  | some state =>
    simp only [hp, any_some, decide_eq_true_eq] at hrefused
    obtain ⟨hfull, hempty⟩ := (hready p state hp).refusedGlobal_spec _ _ _ _ hrefused
    have hslot : s₂.reclaimsReplaceSlot g p = false := by
      simp [reclaimsReplaceSlot, hp, hempty]
    have hcurrent : ∀ q st, m.plugins.get? q = some st → ∀ r ∈ st.queue, r.generation = g := by
      intro q st hq r hr
      by_cases hbefore : q ∈ (s₂.serviceOrder g).takeWhile (· ≠ p)
      · obtain ⟨pre, post, hsplit⟩ := append_of_mem hbefore
        have hn := hnodup.sublist hsub
        rw [hsplit] at hn
        rw [← hm, hsplit, processQuery_get? s₂ g query _ _ hn, map_eq_some_iff] at hq
        obtain ⟨old, hold, rfl⟩ := hq
        exact ((hready q old hold).processed_current _ _ _ _).mpr (hkeeps₂ q old hold) r hr
      · rw [← hm, processQuery_get?_of_notMem s₂ g query _ _ hbefore] at hq
        rw [unserviced_empty hready hslot hq hbefore] at hr
        simp at hr
    have hof : m.queuedOf g = m.queuedTotal := by
      apply sum_congr
      intro q st hq
      rw [filter_eq_self.mpr]
      intro r hr
      simpa using hcurrent q st hq r hr
    exact hof.trans (le_antisymm hmbound ((isFull_iff m).mp hfull))

/-- Clearing of obsolete work. After a keystroke of a running scheduler every queued
request is of the new generation, the queues are within the shared bound, a plugin has
one request at most, and the shared bound refuses a plugin only when current requests
alone reach it. All this holds exactly when no plugin keeps a stale slot. -/
theorem submit_cleared_iff {config : SchedulerConfig} {ops : List Op} {tr : List (Op × Output)}
    {query : String} {now : Nat} {g : Generation}
    (hrun : run step (QueryScheduler.new config) ops = some (s, tr))
    (hlive : s.isShutdown = false) (hsub : s.submitQuery query now = some (s', g)) :
    s.Cleared query now s' g ↔ ∀ p state, s.plugins.get? p = some state →
        state.keepsStaleSlot (toLowercase (trim query)) = false := by
  have hexec := (exec_of_run hrun).1
  have hfresh := fresh_exec hexec
  have hbound := bounded_exec hexec
  have hstep : step s (.submitQuery query now) = some (s', .generation g) := by
    simp [step, hsub]
  obtain ⟨s₁, hk, -⟩ := submitQuery_cases hsub
  have hlt := submitQuery_lt hsub
  obtain ⟨-, -, -, -, -, -, hget⟩ := submitQuery_spec hsub
  have hget := hget hlive
  constructor
  · intro hcleared p state hp
    obtain ⟨full, hs'⟩ := hget p
    rw [hp] at hs'
    rw [← keepsStaleSlot_reclaimed state g,
      ← ((hfresh.plugin p state hp).ready hlt).processed_current full query _ (s.clampNow now)]
    exact hcleared.current p _ hs'
  · intro hkeeps
    refine ⟨?_, bounded_exec (hexec.next hstep), ?_, ?_⟩
    · intro p next hnext
      obtain ⟨full, hs'⟩ := hget p
      rw [hnext, eq_comm, map_eq_some_iff] at hs'
      obtain ⟨state, hp, rfl⟩ := hs'
      rw [((hfresh.plugin p state hp).ready hlt).processed_current, keepsStaleSlot_reclaimed]
      exact hkeeps p state hp
    · intro p next hnext
      obtain ⟨full, hs'⟩ := hget p
      rw [hnext, eq_comm, map_eq_some_iff] at hs'
      obtain ⟨state, hp, rfl⟩ := hs'
      exact ((hfresh.plugin p state hp).ready hlt).processed_single _ _ _ _
    · intro p m hm hrefused
      exact refusal_current hfresh hbound hk hkeeps hm hrefused

end

open QueryScheduler

/-- A policy that dispatches at the start of a burst and drops the keystrokes in it. -/
def leadingOnly : PluginPolicy :=
  { PluginPolicy.modern with
    debounce := { DebouncePolicy.default with trailingEdge := false } }

def oneSlot : SchedulerConfig :=
  { SchedulerConfig.default with
    requestQueueCapacity := 1, requestQueueCapacity_le := by decide }

/-- A leading-only plugin that is typed at before its first request is dispatched. -/
def leadingOnlyTyping : List Op :=
  [.registerPlugin ⟨"apps"⟩ leadingOnly, .registerPlugin ⟨"files"⟩ .modern, .submitQuery "a" 0]

attribute [local instance] Lowercase.ascii

/-- After the second keystroke the only queued request is of the first one, and it made
the shared bound refuse the current request of the other plugin. -/
theorem leadingOnly_not_cleared :
    ∃ s tr s' m, run step (new oneSlot) leadingOnlyTyping = some (s, tr) ∧
      s.isShutdown = false ∧ s.submitQuery "ab" 1 = some (s', ⟨2⟩) ∧
      s'.pending ⟨"apps"⟩ = some ⟨1⟩ ∧
      s.atTurn "ab" 1 ⟨"files"⟩ = some m ∧ m.refusesGlobally "ab" 1 ⟨"files"⟩ = true ∧
      m.queuedOf ⟨2⟩ = 0 ∧ ¬ s.Cleared "ab" 1 s' ⟨2⟩ := by
  obtain ⟨s, tr, hrun, heval⟩ := run_of_eval step (new oneSlot) leadingOnlyTyping
    (fun s _ => !s.isShutdown &&
      ((s.submitQuery "ab" 1).any fun r => r.2 = ⟨2⟩ && r.1.pending ⟨"apps"⟩ = some ⟨1⟩) &&
      (s.atTurn "ab" 1 ⟨"files"⟩).any fun m =>
        m.refusesGlobally "ab" 1 ⟨"files"⟩ && m.queuedOf ⟨2⟩ = 0) (by decide)
  simp only [Bool.and_eq_true, Bool.not_eq_true', Option.any_eq_true, decide_eq_true_eq] at heval
  obtain ⟨⟨hlive, ⟨s', g⟩, hsub, rfl, hpending⟩, m, hm, hrefused, hzero⟩ := heval
  refine ⟨s, tr, s', m, hrun, hlive, hsub, hpending, hm, hrefused, hzero, ?_⟩
  intro hcleared
  obtain ⟨state, hstate, hlast⟩ := bind_eq_some_iff.mp hpending
  obtain ⟨r, hr, hgen⟩ := map_eq_some_iff.mp hlast
  have hcurrent := hcleared.current _ state hstate r (mem_of_getLast? hr)
  rw [hgen] at hcurrent
  exact absurd hcurrent (by decide)

/-- Without the leading-only plugin the same keystrokes leave nothing obsolete. -/
theorem submit_cleared_typing :
    ∃ s tr s' g, run step (new oneSlot) (leadingOnlyTyping.drop 1) = some (s, tr) ∧
      s.submitQuery "ab" 1 = some (s', g) ∧ s.Cleared "ab" 1 s' g := by
  obtain ⟨s, tr, hrun, heval⟩ := run_of_eval step (new oneSlot) (leadingOnlyTyping.drop 1)
    (fun s _ => !s.isShutdown && (s.submitQuery "ab" 1).isSome &&
      s.plugins.values.all fun state => !state.keepsStaleSlot (toLowercase (trim "ab")))
    (by decide)
  simp only [Bool.and_eq_true, Bool.not_eq_true', List.all_eq_true, isSome_iff_exists] at heval
  obtain ⟨⟨hlive, ⟨s', g⟩, hsub⟩, hkeeps⟩ := heval
  refine ⟨s, tr, s', g, hrun, hsub, (submit_cleared_iff hrun hlive hsub).mpr ?_⟩
  intro p state hp
  exact hkeeps state ((mem_values_iff _ _).mpr ⟨p, hp⟩)

end CriKey.Scheduler
