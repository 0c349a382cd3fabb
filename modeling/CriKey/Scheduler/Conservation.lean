import CriKey.Scheduler.QueueBound

/-! Conservation of requests. Every request that enters a queue leaves it in exactly one
counted way, and the counters of the plugins add up to those of the scheduler. -/
namespace CriKey.Scheduler
open CriKey.Base CriKey.Core QueryScheduler Table Option List

/-- What went into a queue, how it left, and what is still there. -/
structure Flow where
  enqueued : Nat
  dispatched : Nat
  coalesced : Nat
  dropped : Nat
  cancelled : Nat
  queued : Nat

namespace Flow

def Conserved (f : Flow) : Prop :=
  f.enqueued = f.dispatched + f.coalesced + f.dropped + f.cancelled + f.queued

/-- Conservation, as long as no counter involved is saturated. -/
def Balanced (f : Flow) : Prop :=
  f.dispatched < u64Max → f.coalesced < u64Max → f.dropped < u64Max → f.Conserved

namespace Balanced
variable {f : Flow}

lemma cancel (h : f.Balanced) :
    Balanced { f with cancelled := f.cancelled + f.queued, queued := 0 } := by
  intro hd hc ho
  have hflow := h hd hc ho
  simp only [Conserved] at hflow ⊢
  omega

lemma enqueue (h : f.Balanced) :
    Balanced { f with enqueued := f.enqueued + 1, queued := f.queued + 1 } := by
  intro hd hc ho
  have hflow := h hd hc ho
  simp only [Conserved] at hflow ⊢
  omega

variable {q : Nat}

lemma drop {n : Nat} (h : f.Balanced) (hq : f.queued = q + n) :
    Balanced { f with dropped := satAdd f.dropped n, queued := q } := by
  intro hd hc ho
  have hsum := satAdd_of_lt ho
  simp only [hsum] at ho
  have hflow := h hd hc (by omega)
  simp only [Conserved] at hflow ⊢
  omega

lemma coalesce (h : f.Balanced) (hq : f.queued = q + 1) :
    Balanced { f with coalesced := satAdd f.coalesced 1, queued := q } := by
  intro hd hc ho
  have hsum := satAdd_of_lt hc
  simp only [hsum] at hc
  have hflow := h hd (by omega) ho
  simp only [Conserved] at hflow ⊢
  omega

lemma dispatch (h : f.Balanced) (hq : f.queued = q + 1) :
    Balanced { f with dispatched := satAdd f.dispatched 1, queued := q } := by
  intro hd hc ho
  have hsum := satAdd_of_lt hd
  simp only [hsum] at hd
  have hflow := h (by omega) hc ho
  simp only [Conserved] at hflow ⊢
  omega

end Balanced
end Flow

namespace PluginState

def flow (state : PluginState) : Flow where
  enqueued := state.history.enqueued.length
  dispatched := state.diagnostics.dispatchedRequests
  coalesced := state.diagnostics.coalescedRequests
  dropped := state.diagnostics.droppedObsoleteRequests
  cancelled := state.history.cancelledQueued.length
  queued := state.queue.length

variable (state : PluginState)

lemma noteAll_flow (gs : List Generation) : (state.noteAll gs).flow = state.flow := by
  rw [noteAll_eq]
  rfl

lemma invalidated_flow (reason : CancelReason) : (state.invalidated reason).flow =
      { state.flow with cancelled := state.flow.cancelled + state.flow.queued, queued := 0 } := by
  rw [invalidated, noteAll_flow]
  simp [flow, drainQueue, cancelInFlight]

lemma superseding_flow : state.superseding.flow = state.flow := by
  rw [superseding, noteAll_flow]
  rfl

lemma prepare_flow (g : Generation) (now : Nat) : (state.prepare g now).1.flow = state.flow := by
  simp [flow]

lemma reclaimed_balanced (current : Generation) (incl : Bool) (h : state.flow.Balanced) :
    (state.reclaimed current incl).flow.Balanced := by
  cases state.reclaimed_cases current incl with
  | inl hsame => rwa [hsame]
  | inr hdrop =>
    have hsplit : state.queue.length = (state.queue.filter fun r => r.generation = current).length +
          (state.obsoleteGenerations current).length := by
      have hlen := state.queue.length_eq_length_filter_add fun r =>
        decide (r.generation = current)
      rw [obsoleteGenerations, hlen]
      simp
    have hflow : (state.dropObsolete current).flow = { state.flow with
          dropped := satAdd state.flow.dropped (state.obsoleteGenerations current).length
          queued := (state.queue.filter fun r => r.generation = current).length } := by
      simp [flow, dropObsolete, satAdd_min_right]
    rw [hdrop, hflow]
    exact h.drop hsplit

lemma admitted_balanced (request : PendingRequest) (h : state.flow.Balanced)
    (hcap : 1 ≤ effectiveQueueCapacity state.policy) (hlen : state.queue.length ≤ 1)
    (hslot : effectiveQueuePolicy state.policy = .replaceOldest ∨ state.queue = []) :
    (state.admitted request).flow.Balanced := by
  cases hq : state.queue with
  | nil =>
    have hflow : (state.admitted request).flow = { state.flow with
          enqueued := state.flow.enqueued + 1
          queued := state.flow.queued + 1 } := by
      have hroom : ¬effectiveQueueCapacity state.policy ≤ 0 := by omega
      cases hp : effectiveQueuePolicy state.policy <;>
        simp [flow, admitted, enqueue, superseded, evicted, hp, hq, hroom]
    rw [hflow]
    exact h.enqueue
  | cons old rest =>
    have hrest : rest = [] := by
      rw [hq, length_cons] at hlen
      exact length_eq_zero_iff.mp (by omega)
    have hp : effectiveQueuePolicy state.policy = .replaceOldest := by
      cases hslot with
      | inl hp => exact hp
      | inr hnil => simp [hq] at hnil
    have hflow : (state.admitted request).flow = { state.flow with
          enqueued := state.flow.enqueued + 1
          coalesced := satAdd state.flow.coalesced 1
          queued := 1 } := by
      simp [flow, admitted, enqueue, superseded, evicted, noteCoalesced, hp, hq]
    have hone : state.flow.queued = 1 := by simp [flow, hq, hrest]
    rw [hflow]
    exact h.enqueue.coalesce (by simp [hone])

lemma processed_balanced {g : Generation} (hready : state.Ready g) (full : Bool)
    (query normalized : String) (now : Nat) (h : state.flow.Balanced) :
    (state.processed full g query normalized now).flow.Balanced := by
  have hnext : (state.superseding.prepare g now).1.flow.Balanced := by
    rw [prepare_flow, superseding_flow]
    exact h
  rcases state.processed_cases full g query normalized now with
    he | he | he | ⟨request, -, he⟩ <;> rw [he]
  · rw [invalidated_flow]
    exact h.cancel
  · exact hnext
  · exact hnext
  apply admitted_balanced _ request hnext
  · simpa using hready.policy.capacity
  · simpa using hready.queue_length
  · simp only [prepare_frame, superseding_frame]
    by_cases hp : effectiveQueuePolicy state.policy = .replaceOldest
    · exact Or.inl hp
    · exact Or.inr (hready.explicit_empty hp)

lemma settled_balanced (current : Generation) (now : Nat) (h : state.flow.Balanced) :
    (state.settled current now).flow.Balanced := by
  obtain ⟨peak, he⟩ := state.settled_eq current now
  have hflow : (state.settled current now).flow = (state.reclaimed current true).flow := by
    rw [he]
    simp [flow, applyDeadlines]
  rw [hflow]
  exact state.reclaimed_balanced current true h

lemma Dispatches.balanced {state next : PluginState} {now : Nat}
    {requests : List PendingRequest} (hrun : state.Dispatches now requests next)
    (h : state.flow.Balanced) : next.flow.Balanced := by
  induction hrun with
  | start => exact h
  | @next _ mid request _ hd ih =>
    obtain ⟨-, -, hq⟩ := dispatchable_eq_some hd
    have hlen : mid.flow.queued = mid.queue.tail.length + 1 := congrArg length hq
    exact ih.dispatch hlen

end PluginState

section
variable [Lowercase] {s : QueryScheduler} {p : PluginId} {op : Op}
  {state next : PluginState} {requests : List PendingRequest} {sent : List Generation}

lemma PluginStep.balanced (hstep : PluginStep s p op state next requests)
    (hfresh : state.Fresh s.currentGeneration s.isShutdown sent) (h : state.flow.Balanced) :
    next.flow.Balanced := by
  have hinvalid : ∀ reason, (state.invalidated reason).flow.Balanced := by
    intro reason
    rw [PluginState.invalidated_flow]
    exact h.cancel
  cases hstep with
  | same | closed | enable | complete | result | staleResult => exact h
  | setPolicy reason => exact hinvalid reason
  | disable => exact hinvalid .disabled
  | cancel => exact hinvalid _
  | shutdown =>
    have hflow : state.stopped.flow = (state.invalidated .shutdown).flow := by
      simp [PluginState.flow, PluginState.stopped]
    rw [hflow]
    exact hinvalid .shutdown
  | submit hlive hg =>
    exact PluginState.processed_balanced _ (hfresh.ready (hg ▸ Nat.lt_succ_self _)) _ _ _ _
      (state.reclaimed_balanced _ false h)
  | tick hlive hrun => exact hrun.balanced (state.settled_balanced _ _ h)

end

def registrations (ops : List Op) : List PluginId :=
  ops.filterMap fun op =>
    match op with
    | .registerPlugin p _ => some p
    | _ => none

def Op.isUnregister : Op → Bool
  | .unregisterPlugin _ => true
  | _ => false

/-- No plugin is registered twice and none is unregistered. -/
def Steady (ops : List Op) : Prop :=
  (registrations ops).Nodup ∧ ∀ op ∈ ops, op.isUnregister = false

instance (ops : List Op) : Decidable (Steady ops) := inferInstanceAs (Decidable (_ ∧ _))

def drained (tr : List (Op × Output)) : List CancelledRequest :=
  tr.flatMap fun io =>
    match io.2 with
    | .cancellations notices => notices
    | _ => []

lemma Steady.of_append {ops ops' : List Op} (h : Steady (ops ++ ops')) : Steady ops := by
  obtain ⟨hn, hu⟩ := h
  rw [registrations, filterMap_append] at hn
  exact ⟨hn.of_append_left, fun op hop => hu op (mem_append_left _ hop)⟩

/-- The counters of a plugin are below their ceiling. -/
def PluginState.Unsaturated (state : PluginState) : Prop :=
  state.diagnostics.dispatchedRequests < u64Max ∧ state.diagnostics.coalescedRequests < u64Max ∧
    state.diagnostics.droppedObsoleteRequests < u64Max ∧
    state.diagnostics.cancelledRequests < u64Max ∧
    state.diagnostics.rejectedQueueFull < u64Max

/-- No counter of the scheduler or of a plugin has reached its ceiling. -/
def QueryScheduler.Unsaturated (s : QueryScheduler) : Prop :=
  s.diagnostics.dispatchedRequests < u64Max ∧ s.diagnostics.coalescedRequests < u64Max ∧
    s.diagnostics.droppedObsoleteRequests < u64Max ∧
    s.diagnostics.cancelledRequests < u64Max ∧
    s.diagnostics.rejectedPluginQueueFull < u64Max ∧
    s.diagnostics.rejectedGlobalQueueFull < u64Max ∧
    ∀ state ∈ s.plugins.values, state.Unsaturated

instance (state : PluginState) : Decidable state.Unsaturated :=
  inferInstanceAs (Decidable (_ ∧ _))

instance (s : QueryScheduler) : Decidable s.Unsaturated :=
  inferInstanceAs (Decidable (_ ∧ _))

/-- The books of a run: who is registered, and that both sides agree. -/
structure Books (tr : List (Op × Output)) (s : QueryScheduler) : Prop where
  registered : ∀ p ∈ s.plugins.keys, p ∈ registrations (tr.map Prod.fst)
  squares : s.ledger.Squares ((drained tr).map (·.about))
  balanced : ∀ p state, s.plugins.get? p = some state → state.flow.Balanced

lemma books_new (config : SchedulerConfig) : Books [] (QueryScheduler.new config) where
  registered := by simp [new, Table.keys, empty]
  squares := Ledger.Squares.blank (normalizeConfig_capacity config) rfl
  balanced := by simp [new]

section
variable [Lowercase] {s s' : QueryScheduler} {op : Op} {out : Output} {tr : List (Op × Output)}

lemma step_balanced (hfresh : Fresh tr s)
    (h : ∀ p state, s.plugins.get? p = some state → state.flow.Balanced)
    (hstep : step s op = some (s', out)) (p : PluginId) (next : PluginState)
    (hp : s'.plugins.get? p = some next) : next.flow.Balanced := by
  obtain ⟨policy, -, rfl⟩ | ⟨state, sent, hs, hlocal⟩ := step_origin hstep hp
  · exact fun _ _ _ => rfl
  · exact hlocal.balanced (hfresh.plugin p _ hs) (h p _ hs)

lemma drained_of_posts (hstep : step s op = some (s', out)) (hop : op.onlyPosts = true) :
    drained [(op, out)] = [] := by
  cases op with
  | registerPlugin | unregisterPlugin | drainCancellations => simp [Op.onlyPosts] at hop
  | submitQuery query now =>
    obtain ⟨g, -, rfl⟩ := step_submit hstep
    rfl
  | _ =>
    cases hstep
    rfl

lemma books_step (h : Books tr s) (hfresh : Fresh tr s) (hstep : step s op = some (s', out))
    (hsteady : Steady ((tr ++ [(op, out)]).map Prod.fst)) : Books (tr ++ [(op, out)]) s' := by
  have hbalanced := step_balanced hfresh h.balanced hstep
  have hmore : ∀ q ∈ registrations (tr.map Prod.fst),
      q ∈ registrations ((tr ++ [(op, out)]).map Prod.fst) := by
    intro q hq
    rw [map_append, registrations, filterMap_append]
    exact mem_append_left _ hq
  have hdrained : drained (tr ++ [(op, out)]) = drained tr ++ drained [(op, out)] := by
    simp [drained]
  by_cases hop : op.onlyPosts = true
  · obtain ⟨entries, hknown, hledger⟩ := step_entries hstep hop
    have hkeys : s'.plugins.keys = s.plugins.keys := by
      rw [← ledger_keys, hledger, Ledger.keys_postAll, ledger_keys]
    refine ⟨fun p hp => hmore p (h.registered p (hkeys ▸ hp)), ?_, hbalanced⟩
    rw [hledger, hdrained, drained_of_posts hstep hop, append_nil]
    apply h.squares.postAll
    rwa [ledger_keys]
  · cases op with
    | registerPlugin q policy =>
      cases hstep
      have hregs : registrations ((tr ++ [(Op.registerPlugin q policy, Output.done)]).map Prod.fst)
          = registrations (tr.map Prod.fst) ++ [q] := by
        simp [registrations]
      have hnew : q ∉ s.plugins.keys := by
        intro hq
        have hn := hsteady.1
        rw [hregs, nodup_append] at hn
        exact hn.2.2 q (h.registered q hq) q (mem_singleton_self q) rfl
      refine ⟨?_, ?_, hbalanced⟩
      · intro p hp
        rw [registerPlugin, keys_insert, if_neg hnew] at hp
        rw [hregs]
        cases mem_append.mp hp with
        | inl hp => exact mem_append_left _ (h.registered p hp)
        | inr hp => exact mem_append_right _ hp
      · have hledger : (s.registerPlugin q policy).ledger =
            { s.ledger with accounts := s.ledger.accounts.insert q ⟨0, 0, 0, 0, 0, []⟩ } := by
          simp only [ledger, registerPlugin, mapValues_insert]
          rfl
        have hnone : drained [(Op.registerPlugin q policy, Output.done)] = [] := rfl
        rw [hledger, hdrained, hnone, append_nil]
        exact h.squares.opened (by rw [ledger_keys]; exact hnew)
    | unregisterPlugin q =>
      have hno := hsteady.2 (.unregisterPlugin q) (by simp)
      simp [Op.isUnregister] at hno
    | drainCancellations =>
      cases hstep
      refine ⟨fun p hp => hmore p (h.registered p hp), ?_, hbalanced⟩
      have hall : drained [(Op.drainCancellations,
          Output.cancellations s.drainCancellations.2)] = s.cancellations := by
        simp [drained, drainCancellations]
      rw [hdrained, hall, map_append]
      exact h.squares.collect
    | _ => exact absurd rfl hop

lemma books_exec {config : SchedulerConfig} (h : Exec step (QueryScheduler.new config) tr s)
    (hsteady : Steady (tr.map Prod.fst)) : Books tr s := by
  refine Exec.invariant (fun tr s => Steady (tr.map Prod.fst) → Books tr s)
    (fun _ => books_new config) ?_ h hsteady
  intro tr t op t' out hexec ih hstep hsteady'
  have hbefore : Steady (tr.map Prod.fst) := by
    rw [map_append] at hsteady'
    exact hsteady'.of_append
  exact books_step (ih hbefore) (fresh_exec hexec) hstep hsteady'

omit [Lowercase] in
lemma total_eq_sum {total : Nat} (w : Account → Nat)
    (h : total = min (s.ledger.accounts.sum w) u64Max) (hlt : total < u64Max) :
    total = s.plugins.sum fun state => w state.account := by
  have hsum : s.ledger.accounts.sum w = s.plugins.sum fun state => w state.account :=
    sum_mapValues _ _ _
  omega

/-- Conservation of requests. Along every run with fewer than `2 ^ 64` submissions that
neither registers a plugin again nor unregisters one: what was queued was dispatched,
coalesced, dropped, cancelled or is still queued; the counters of the plugins add up to
those of the scheduler; no generation of a plugin is reported cancelled twice; and the
cancellations are the notices handed out, still waiting, or dropped for lack of room. -/
theorem requests_conserved (config : SchedulerConfig) (ops : List Op)
    (hfew : ops.countP Op.isSubmit < 2 ^ 64) (hsteady : Steady ops) :
    ∃ s tr, run step (QueryScheduler.new config) ops = some (s, tr) ∧ tr.map Prod.fst = ops ∧
      (s.Unsaturated → (∀ p state, s.plugins.get? p = some state → state.history.enqueued.length =
            state.diagnostics.dispatchedRequests + state.diagnostics.coalescedRequests +
              state.diagnostics.droppedObsoleteRequests + state.history.cancelledQueued.length +
              state.queue.length) ∧
        s.diagnostics.dispatchedRequests = s.plugins.sum (·.diagnostics.dispatchedRequests) ∧
        s.diagnostics.coalescedRequests = s.plugins.sum (·.diagnostics.coalescedRequests) ∧
        s.diagnostics.droppedObsoleteRequests =
          s.plugins.sum (·.diagnostics.droppedObsoleteRequests) ∧
        s.diagnostics.cancelledRequests = s.plugins.sum (·.diagnostics.cancelledRequests) ∧
        s.diagnostics.rejectedPluginQueueFull + s.diagnostics.rejectedGlobalQueueFull =
          s.plugins.sum (·.diagnostics.rejectedQueueFull) ∧
        s.diagnostics.cancelledRequests = (drained tr).length + s.cancellations.length +
            s.diagnostics.droppedCancellationNotifications) ∧
      (∀ p state, s.plugins.get? p = some state → state.history.reported.Nodup) ∧
      ((drained tr ++ s.cancellations).map (·.about)).Nodup ∧
      s.cancellations.length ≤ s.config.requestQueueCapacity := by
  obtain ⟨s, tr, hrun⟩ := run_of_few_submits config ops hfew
  obtain ⟨hexec, hops⟩ := exec_of_run hrun
  have hbooks := books_exec hexec (hops ▸ hsteady)
  have hsquares := hbooks.squares
  have hreported : ∀ p state, s.plugins.get? p = some state → state.history.reported.Nodup :=
    fun p state hp => ((fresh_exec hexec).plugin p state hp).reported_nodup.of_append_left
  refine ⟨s, tr, hrun, hops, ?_, hreported, ?_, ?_⟩
  · intro ⟨hdispatched, hcoalesced, hdropped, hcancelled, hplugin, hglobal, hlocal⟩
    refine ⟨?_, total_eq_sum (·.dispatched) hsquares.dispatched hdispatched,
      total_eq_sum (·.coalesced) hsquares.coalesced hcoalesced,
      total_eq_sum (·.dropped) hsquares.dropped hdropped,
      total_eq_sum (·.cancelled) hsquares.cancelled hcancelled, ?_, ?_⟩
    · intro p state hp
      obtain ⟨hd, hc, ho, -, -⟩ := hlocal state ((mem_values_iff _ _).mpr ⟨p, hp⟩)
      exact hbooks.balanced p state hp hd hc ho
    · refine (hsquares.rejected hplugin hglobal ?_).trans (sum_mapValues _ _ _)
      intro p a ha
      obtain ⟨state, hp, rfl⟩ := map_eq_some_iff.mp ((get?_mapValues _ _ _).symm.trans ha)
      exact (hlocal state ((mem_values_iff _ _).mpr ⟨p, hp⟩)).2.2.2.2
    · have hnotices := hsquares.notices
      simp only [ledger, SchedulerDiagnostics.totals, length_map] at hnotices
      omega
  · rw [map_append]
    apply hsquares.notices_nodup
    intro p a ha
    obtain ⟨state, hp, rfl⟩ := map_eq_some_iff.mp ((get?_mapValues _ _ _).symm.trans ha)
    exact hreported p state hp
  · have hle := hsquares.notices_le
    rwa [ledger, length_map] at hle

end

/-- Two plugins, a burst, a cancellation and a collection. -/
def accounted : List Op :=
  [.registerPlugin ⟨"apps"⟩ .modern, .registerPlugin ⟨"files"⟩ .modern, .submitQuery "a" 0,
    .tick 0, .submitQuery "ab" 10, .submitQuery "abc" 20, .drainCancellations,
    .cancelPlugin ⟨"apps"⟩ .reconfigured 30, .tick 100]

attribute [local instance] Lowercase.ascii in
/-- In that session two cancellations were collected, one waits, and the books agree. -/
theorem requests_conserved_accounted :
    ∃ s tr, run step (QueryScheduler.new .default) accounted = some (s, tr) ∧
      s.Unsaturated ∧ (drained tr).length = 2 ∧ s.cancellations.length = 1 ∧
      s.diagnostics.cancelledRequests = s.plugins.sum (·.diagnostics.cancelledRequests) ∧
      s.diagnostics.cancelledRequests = 3 + s.diagnostics.droppedCancellationNotifications := by
  obtain ⟨s, tr, hrun, heval⟩ := run_of_eval step (new .default) accounted
    (fun s tr => s.Unsaturated ∧ (drained tr).length = 2 ∧ s.cancellations.length = 1) (by decide)
  obtain ⟨t, tr', hrun', -, hbooks, -⟩ :=
    requests_conserved .default accounted (by decide) (by decide)
  obtain ⟨rfl, rfl⟩ := Prod.mk.inj (some_inj.mp (hrun.symm.trans hrun'))
  obtain ⟨hun, hdrained, hwaiting⟩ := heval
  obtain ⟨-, -, -, -, hsum, -, hnotices⟩ := hbooks hun
  rw [hdrained, hwaiting] at hnotices
  exact ⟨s, tr, hrun, hun, hdrained, hwaiting, hsum, hnotices⟩

end CriKey.Scheduler
