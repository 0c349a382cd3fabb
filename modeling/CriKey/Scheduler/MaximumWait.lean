import CriKey.Scheduler.QueueBound

/-! The ceiling on postponement. A request that is deferred again and again keeps the
burst it belongs to, and with it the deadline the burst gives, as long as no call on the
way starts the burst afresh. -/
namespace CriKey.Scheduler
open CriKey.Base CriKey.Core PluginState Option Op Nat

namespace PluginState
variable (state : PluginState) (g : Generation) (now : Nat)

lemma settleBurst_burst : (state.settleBurst now).burstStarted = none ∨
      (state.settleBurst now).burstStarted = state.burstStarted := by
  unfold settleBurst
  split
  · exact .inl rfl
  · exact .inr rfl

lemma settleBurst_getD_le (h : ∀ b, state.burstStarted = some b → b ≤ now) :
    (state.settleBurst now).burstStarted.getD now ≤ now := by
  cases state.settleBurst_burst now with
  | inl hnone =>
    rw [hnone]
    exact le_refl _
  | inr hsame =>
    rw [hsame]
    cases hb : state.burstStarted with
    | none => exact le_refl _
    | some b => exact h b hb

lemma prepare_burst : (state.prepare g now).1.burstStarted = none ∨
      (state.prepare g now).1.burstStarted = state.burstStarted ∨
      (state.prepare g now).1.burstStarted = some now := by
  have hsettle := state.settleBurst_burst now
  unfold prepare
  simp only
  split
  · rcases hsettle with h | h
    · exact .inl h
    · exact .inr (.inl h)
  · split
    · exact .inr (.inr rfl)
    split
    · rcases hsettle with h | h
      · simp [h]
      · rw [h]
        cases state.burstStarted <;> simp
    · rcases hsettle with h | h
      · exact .inl h
      · exact .inr (.inl h)

lemma prepare_deferred {query : String} {wait : Nat} {prepared : PreparedRequest}
    (hmax : state.policy.debounce.maximumWaitMs = some wait)
    (hprep : (state.prepare g now).2 = some prepared)
    (hready : (pendingRequest g query prepared).ready = false) :
    (state.relevant = true ∨ state.policy.debounce.leadingEdge = false) ∧
      (state.prepare g now).1.burstStarted = some ((state.settleBurst now).burstStarted.getD now) ∧
      (pendingRequest g query prepared).dueAt =
        some (min (satAdd now state.policy.debounce.debounceMs)
          (satAdd ((state.settleBurst now).burstStarted.getD now) wait)) := by
  unfold prepare at hprep ⊢
  rw [settleBurst_eq] at hprep ⊢
  simp only [hmax] at hprep ⊢
  split at hprep
  · simp only [some.injEq] at hprep
    rw [← hprep] at hready
    simp [pendingRequest] at hready
  · rename_i htime
    split at hprep
    · simp only [some.injEq] at hprep
      rw [← hprep] at hready
      simp [pendingRequest] at hready
    · rename_i hlead
      split at hprep
      · rename_i htrail
        simp only [some.injEq] at hprep
        refine ⟨?_, ?_, ?_⟩
        · cases hr : state.relevant <;> simp_all
        · simp [htime, hlead, htrail]
        · simp [← hprep, pendingRequest]
      · simp at hprep

/-- A plugin whose one queued request waits for a deadline that `start` and `wait` bound.
`last` is the time of the latest keystroke. -/
structure Waiting (current : Generation) (start wait last : Nat) (r : PendingRequest) : Prop where
  queue : state.queue = [r]
  generation : r.generation = current
  ready : r.ready = false
  trailing : state.policy.debounce.trailingEdge = true
  maximum : state.policy.debounce.maximumWaitMs = some wait
  due : ∃ due, r.dueAt = some due ∧ due ≤ start + wait ∧
    due ≤ last + state.policy.debounce.debounceMs
  burst : (state.relevant = true ∧ ∃ b ≤ start, state.burstStarted = some b) ∨
    (state.relevant = false ∧ state.policy.debounce.leadingEdge = true)

def deferred : Bool := state.queue.any fun r => !r.ready

variable {state}

lemma Ready.waiting {g : Generation} (h : state.Ready g) (full : Bool)
    (query normalized : String) (now : Nat) {start wait : Nat}
    (htrail : state.policy.debounce.trailingEdge = true)
    (hmax : state.policy.debounce.maximumWaitMs = some wait)
    (hburst : (state.superseding.settleBurst now).burstStarted.getD now ≤ start)
    (hdef : (state.processed full g query normalized now).deferred = true) :
    (state.relevant = true ∨ state.policy.debounce.leadingEdge = false) ∧
      ∃ r, (state.processed full g query normalized now).Waiting g start wait now r := by
  have hqueue := h.processed_queue full query normalized now
  cases hout : state.outcome full g query normalized now with
  | gated => simp [deferred, hqueue, hout] at hdef
  | refusedPlugin => exact absurd hout (h.not_refusedPlugin full query normalized now)
  | refusedGlobal =>
    have hempty := (h.refusedGlobal_spec full query normalized now hout).2
    simp [deferred, hqueue, hout, hempty] at hdef
  | idle =>
    have hnormal : state.superseding.policy.Normal := by simpa using h.policy
    have hnone := (prepare_eq_none_iff _ g now hnormal).mp (outcome_idle state hout)
    simp [htrail] at hnone
  | queued request =>
    obtain ⟨prepared, hprep, rfl, -, -⟩ := outcome_queued state hout
    have hready : (pendingRequest g query prepared).ready = false := by
      simpa [deferred, hqueue, hout] using hdef
    obtain ⟨hrel, hb, hdue⟩ := prepare_deferred state.superseding g now
      (by simpa using hmax) hprep hready
    simp only [superseding_frame] at hrel hdue
    refine ⟨hrel, pendingRequest g query prepared, ?_⟩
    have heq : state.processed full g query normalized now =
        (state.superseding.prepare g now).1.admitted (pendingRequest g query prepared) := by
      simp [processed, hout]
    have hpol : (state.processed full g query normalized now).policy = state.policy := by
      simp [heq]
    have hmaxle := satAdd_le_add ((state.superseding.settleBurst now).burstStarted.getD now) wait
    have htraille := satAdd_le_add now state.policy.debounce.debounceMs
    refine ⟨by simp [hqueue, hout], pendingRequest_generation g query prepared, hready,
      hpol ▸ htrail, hpol ▸ hmax, ⟨_, hdue, ?_, ?_⟩, .inl ⟨?_, _, hburst, ?_⟩⟩
    · omega
    · rw [hpol]
      omega
    · simp only [heq, admitted_frame]
      rw [prepare_eq]
    · simp [heq, hb]

lemma Dispatches.single {next : PluginState} {r : PendingRequest} {sent : List PendingRequest}
    (hq : state.queue = [r]) (h : state.Dispatches now sent next) :
    (sent = [] ∧ next = state) ∨ (sent = [r] ∧ r.ready = true ∧ next = state.dispatch r now) := by
  induction h with
  | start => exact .inl ⟨rfl, rfl⟩
  | @next requests mid request _ hd ih =>
    obtain ⟨-, hready, hmid⟩ := dispatchable_eq_some hd
    cases ih with
    | inl ih =>
      obtain ⟨rfl, rfl⟩ := ih
      rw [hq] at hmid
      obtain rfl : r = request := by simpa using hmid
      exact .inr ⟨rfl, hready, rfl⟩
    | inr ih =>
      obtain ⟨-, -, rfl⟩ := ih
      simp [dispatch, hq] at hmid

end PluginState

/-- The time of the latest keystroke after the call, when it was `last` before. -/
def Op.keystrokeAt (s : QueryScheduler) (last : Nat) : Op → Nat
  | .submitQuery _ now => s.clampNow now
  | _ => last

def QueryScheduler.deferred (s : QueryScheduler) (p : PluginId) : Bool :=
  (s.plugins.get? p).any (·.deferred)

/-- The call does not start the burst of `p` afresh: a keystroke that finds the explicit
queue of `p` reclaimed comes within the debounce time of the last dispatch, and `p` is
not enabled again under a policy without a leading edge. -/
def BurstKept (p : PluginId) (s : QueryScheduler) : Op → Prop
  | .submitQuery _ now => ∀ state, s.plugins.get? p = some state →
    effectiveQueuePolicy state.policy = .replaceOldest ∨
      ∀ last, state.diagnostics.lastDispatchedAt = some last →
        s.clampNow now - last < state.policy.debounce.debounceMs
  | .enablePlugin q _ => q = p → ∀ state, s.plugins.get? p = some state →
    state.policy.debounce.leadingEdge = true
  | _ => True

section
variable [Lowercase] {s s' : QueryScheduler} {p : PluginId} {op : Op} {out : Output}

/-- Calls from `s₁` on, each of which `kept` allows and each of which leaves `p` with a
deferred request. The index is the time of the latest keystroke. -/
inductive Waits (kept : QueryScheduler → Op → Prop) (p : PluginId) (start : Nat)
    (s₁ : QueryScheduler) : Nat → QueryScheduler → Prop
  | start (h : s₁.deferred p = true) : Waits kept p start s₁ start s₁
  | next {last : Nat} {s s' : QueryScheduler} {op : Op} {out : Output}
      (h : Waits kept p start s₁ last s) (hkept : kept s op) (hstep : step s op = some (s', out))
      (hdef : s'.deferred p = true) : Waits kept p start s₁ (op.keystrokeAt s last) s'

lemma Waits.second {kept : QueryScheduler → Op → Prop} {start now : Nat} {query : String}
    (h : s.deferred p = true) (hkept : kept s (.submitQuery query now))
    (hstep : step s (.submitQuery query now) = some (s', out)) (hdef : s'.deferred p = true)
    (hnow : s.clampNow now = now) : Waits kept p start s now s' := by
  have hlast : keystrokeAt s start (.submitQuery query now) = now := hnow
  exact hlast ▸ .next (.start h) hkept hstep hdef

namespace PluginStep
variable {state next : PluginState} {sent : List PendingRequest}

lemma burst (h : PluginStep s p op state next sent) :
    next.burstStarted = none ∨ next.burstStarted = state.burstStarted ∨
      ∃ query now, op = .submitQuery query now ∧ next.burstStarted = some (s.clampNow now) := by
  cases h with
  | same _ _ | closed _ _ | complete | result | staleResult => exact .inr (.inl rfl)
  | setPolicy _ | disable | enable | shutdown => exact .inl rfl
  | cancel => exact .inl (by simp [invalidated, drainQueue])
  | @submit query now g full _ _ _ =>
    have hprep := (state.reclaimed g false).superseding.prepare_burst g (s.clampNow now)
    simp only [superseding_frame, reclaimed_frame] at hprep
    have hburst : ∀ b, (b = none ∨ b = state.burstStarted ∨ b = some (s.clampNow now)) →
        b = none ∨ b = state.burstStarted ∨ ∃ query' now',
          submitQuery query now = .submitQuery query' now' ∧ b = some (s.clampNow now') := by
      intro b hb
      rcases hb with hb | hb | hb
      · exact .inl hb
      · exact .inr (.inl hb)
      · exact .inr (.inr ⟨query, now, rfl, hb⟩)
    apply hburst
    rcases (state.reclaimed g false).processed_cases full g query (toLowercase (trim query))
      (s.clampNow now) with he | he | he | ⟨request, -, he⟩ <;> rw [he]
    · simp [invalidated, drainQueue]
    · exact hprep
    · simpa only [noteRejected_frame] using hprep
    · simpa only [admitted_frame] using hprep
  | @tick now _ next _ hlive hrun =>
    have hsame : next.burstStarted =
        (state.settled s.currentGeneration (s.clampNow now)).burstStarted := by
      induction hrun with
      | start => rfl
      | next _ _ ih => exact ih
    obtain ⟨peak, hsettled⟩ := state.settled_eq s.currentGeneration (s.clampNow now)
    simp only [notePeak_frame, hsame, hsettled]
    simp only [applyDeadlines]
    split
    · exact .inr (.inl (by simp))
    · exact .inl rfl

end PluginStep

/-- Bursts started in the past. -/
def BurstPast (s : QueryScheduler) : Prop :=
  ∀ p state b, s.plugins.get? p = some state → state.burstStarted = some b →
    ∃ last, s.lastNow = some last ∧ b ≤ last

variable {last : Nat}

omit [Lowercase] in
lemma StepFrame.lastNow_le (h : StepFrame s op s' out) (hlast : s.lastNow = some last) :
    ∃ last', s'.lastNow = some last' ∧ last ≤ last' := by
  have hnow := h.lastNow
  cases htime : op.time? with
  | none =>
    rw [htime] at hnow
    exact ⟨last, hnow.trans hlast, le_refl _⟩
  | some now =>
    rw [htime] at hnow
    refine ⟨s.clampNow now, hnow, ?_⟩
    simp [QueryScheduler.clampNow, hlast]

lemma burstPast_step (h : BurstPast s) (hstep : step s op = some (s', out)) : BurstPast s' := by
  have hframe := step_frame hstep
  intro p next b hnext hb
  obtain ⟨policy, -, rfl⟩ | ⟨state, sent, hs, hp⟩ := step_origin hstep hnext
  · simp [new] at hb
  · rcases hp.burst with hnone | hsame | ⟨query, now, rfl, hnow⟩
    · simp [hnone] at hb
    · obtain ⟨last, hlast, hle⟩ := h p state b hs (hsame ▸ hb)
      obtain ⟨last', hlast', hle'⟩ := hframe.lastNow_le hlast
      exact ⟨last', hlast', hle.trans hle'⟩
    · have hb' : s.clampNow now = b := some_inj.mp (hnow.symm.trans hb)
      exact ⟨s.clampNow now, hframe.lastNow, hb'.ge⟩

lemma burstPast_exec {config : SchedulerConfig} {tr : List (Op × Output)}
    (h : Exec step (QueryScheduler.new config) tr s) : BurstPast s :=
  Exec.invariant (fun _ s => BurstPast s) (by simp [BurstPast, QueryScheduler.new])
    (fun _ _ _ _ _ _ hI hs => burstPast_step hI hs) h

variable {state : PluginState} {r : PendingRequest}

omit [Lowercase] in
/-- The quiet gap is not seen while a newest-wins slot is taken, nor within the debounce
time of the last dispatch. -/
lemma PluginState.settleBurst_kept {g : Generation} {now : Nat} (hq : state.queue = [r])
    (hkept : effectiveQueuePolicy state.policy = .replaceOldest ∨
      ∀ last, state.diagnostics.lastDispatchedAt = some last →
        now - last < state.policy.debounce.debounceMs) :
    ((state.reclaimed g false).superseding.settleBurst now).burstStarted = state.burstStarted := by
  have hgap : (state.reclaimed g false).superseding.quietGap now = false := by
    unfold quietGap
    simp only [superseding_frame, reclaimed_frame]
    cases hkept with
    | inl hp => simp [state.reclaimed_queue_of_replace g hp, hq]
    | inr hlast =>
      cases hl : state.diagnostics.lastDispatchedAt with
      | none => simp
      | some last =>
        have hlt := hlast last hl
        have hge : decide (now - last ≥ state.policy.debounce.debounceMs) = false := by
          simpa using hlt
        simp [hge]
  simp [settleBurst, hgap]

variable {start wait : Nat}

omit [Lowercase] in
lemma PluginState.Waiting.settled_queue {g : Generation}
    (hw : state.Waiting g start wait last r) (now : Nat) :
    (state.settled g now).queue = [markDue now r] := by
  rw [PluginState.settled_queue, hw.queue]
  simp [hw.generation]

variable {sent : List PendingRequest}

lemma PluginStep.waiting {next : PluginState} {had : List Generation}
    (hp : PluginStep s p op state next sent) (hframe : StepFrame s op s' out)
    (hs : s.plugins.get? p = some state) (hkept : BurstKept p s op)
    (hfresh : state.Fresh s.currentGeneration s.isShutdown had)
    (hw : state.Waiting s.currentGeneration start wait last r) (hdef : next.deferred = true) :
    ∃ r', next.Waiting s'.currentGeneration start wait (op.keystrokeAt s last) r' := by
  have hnil : next.queue ≠ [] := by
    intro hq
    simp [deferred, hq] at hdef
  -- calls that leave the queue, the policy and the burst of the plugin alone
  have hsame : op.isSubmit = false → next.queue = state.queue → next.policy = state.policy →
      next.relevant = state.relevant → next.burstStarted = state.burstStarted →
      ∃ r', next.Waiting s'.currentGeneration start wait (op.keystrokeAt s last) r' := by
    intro hsub hq hpol hrel hb
    have hat : op.keystrokeAt s last = last := by
      cases op <;> first | rfl | simp [isSubmit] at hsub
    rw [hframe.current_eq hsub, hat]
    exact ⟨r, hq ▸ hw.queue, hw.generation, hw.ready, hpol ▸ hw.trailing, hpol ▸ hw.maximum,
      hpol ▸ hw.due, by rw [hpol, hrel, hb]; exact hw.burst⟩
  cases hp with
  | same hop _ => exact hsame (isLocal_iff op hop).1 rfl rfl rfl rfl
  | closed _ hc => exact absurd (hfresh.closed_empty hc).1 hnil
  | setPolicy reason => exact absurd (state.invalidated_queue reason) hnil
  | disable | cancel => exact absurd (state.invalidated_queue _) hnil
  | shutdown => exact absurd rfl hnil
  | complete | result | staleResult => exact hsame rfl rfl rfl rfl rfl
  | enable =>
    have hlead := hkept rfl state hs
    rw [hframe.current_eq rfl]
    exact ⟨r, hw.queue, hw.generation, hw.ready, hw.trailing, hw.maximum, hw.due, .inr ⟨rfl, hlead⟩⟩
  | @submit query now g full _ hlive hg =>
    obtain ⟨hcur, hlt⟩ := hframe.minted hg
    have hready := hfresh.ready hlt
    have hsettle := settleBurst_kept (g := g) hw.queue (hkept state hs)
    rw [hcur]
    cases hw.burst with
    | inl hrel =>
      obtain ⟨-, b, hb, hburst⟩ := hrel
      exact (hready.waiting full query _ _ (by simpa using hw.trailing)
        (by simpa using hw.maximum) (by rw [hsettle, hburst]; exact hb) hdef).2
    | inr hrel =>
      -- the leading edge makes the new request ready at once
      have hle : ((state.reclaimed g false).superseding.settleBurst
          (s.clampNow now)).burstStarted.getD (s.clampNow now) ≤
            max (state.burstStarted.getD (s.clampNow now)) start := by
        rw [hsettle]
        exact le_max_left _ _
      have hcontra := (hready.waiting full query _ _ (by simpa using hw.trailing)
        (by simpa using hw.maximum) hle hdef).1
      simp [hrel.1, hrel.2] at hcontra
  | @tick now _ next _ hlive hrun =>
    have hq := hw.settled_queue (s.clampNow now)
    cases hrun.single _ hq with
    | inr hsent =>
      obtain ⟨-, -, rfl⟩ := hsent
      simp [dispatch, hq] at hnil
    | inl hsent =>
      obtain ⟨-, rfl⟩ := hsent
      have hdue : isDue r (s.clampNow now) = false := by
        by_contra hdue
        rw [Bool.not_eq_false] at hdue
        simp [deferred, hq, markDue, hdue] at hdef
      have hmark : markDue (s.clampNow now) r = r := by
        simp [markDue, hdue]
      obtain ⟨peak, hsettled⟩ := state.settled_eq s.currentGeneration (s.clampNow now)
      have hrecq : (state.reclaimed s.currentGeneration true).queue = [r] := by
        rw [state.reclaimed_queue_of_incl _ _ (.inl rfl), hw.queue]
        simp [hw.generation]
      apply hsame rfl
      · simp [hq, hmark, hw.queue]
      · simp
      · simp
      · simp [hsettled, applyDeadlines, dueRecords, hrecq, hdue]

lemma PluginStep.waiting_over {next : PluginState} {now : Nat}
    {had : List Generation} (hp : PluginStep s p (.tick now) state next sent)
    (hfresh : state.Fresh s.currentGeneration s.isShutdown had)
    (hw : state.Waiting s.currentGeneration start wait last r)
    (hnow : start + wait ≤ s.clampNow now) : sent.map (·.generation) = [r.generation] ∨
      ∃ r', next.queue = [r'] ∧ r'.generation = r.generation ∧ r'.ready = true := by
  cases hp with
  | same hop _ => simp [isLocal] at hop
  | closed _ hc =>
    have hq := hw.queue
    simp [(hfresh.closed_empty hc).1] at hq
  | @tick _ _ next _ hlive hrun =>
    have hq := hw.settled_queue (s.clampNow now)
    obtain ⟨due, hdue, hle, -⟩ := hw.due
    have hisDue : isDue r (s.clampNow now) = true := by
      simp [isDue, hw.ready, hdue, hle.trans hnow]
    cases hrun.single _ hq with
    | inl hsent =>
      obtain ⟨-, rfl⟩ := hsent
      simp only [notePeak_frame, hq]
      exact .inr ⟨_, rfl, markDue_generation _ _, by simp [markDue, hisDue]⟩
    | inr hsent =>
      obtain ⟨rfl, -, -⟩ := hsent
      exact .inl (by simp [markDue_generation])

lemma Waits.waiting {s₁ : QueryScheduler} (h : Waits (BurstKept p) p start s₁ last s)
    (hfresh : ∃ tr, Fresh tr s₁) (h₁ : ∃ state r, s₁.plugins.get? p = some state ∧
      state.Waiting s₁.currentGeneration start wait start r) :
    (∃ tr, Fresh tr s) ∧ ∃ state r, s.plugins.get? p = some state ∧
      state.Waiting s.currentGeneration start wait last r := by
  induction h with
  | start _ => exact ⟨hfresh, h₁⟩
  | @next last s s' op out _ hkept hstep hdef ih =>
    obtain ⟨⟨tr, hf⟩, state, r, hs, hw⟩ := ih
    refine ⟨⟨_, fresh_step hf hstep⟩, ?_⟩
    cases step_plugin hstep p with
    | absent h _ _ => simp [h] at hs
    | removed _ h' _ => simp [QueryScheduler.deferred, h'] at hdef
    | registered policy _ h' _ =>
      simp [QueryScheduler.deferred, h', deferred, new] at hdef
    | @changed state' next _ hs' h' hp _ =>
      obtain rfl := some_inj.mp (hs.symm.trans hs')
      have hnext : next.deferred = true := by simpa [QueryScheduler.deferred, h'] using hdef
      obtain ⟨r', hw'⟩ := hp.waiting (step_frame hstep) hs hkept (hf.plugin p state hs) hw hnext
      exact ⟨next, r', h', hw'⟩

/-- The ceiling on postponement. A keystroke at `t₀` defers a request of a plugin that had
none queued; along every continuation that keeps the plugin waiting and never starts its
burst afresh, the deadline is at most `t₀` plus the maximum wait and at most the latest
keystroke plus the debounce time, and a tick at the ceiling makes the request ready. -/
theorem maximum_wait {config : SchedulerConfig} {ops : List Op} {tr : List (Op × Output)}
    {s₀ s₁ : QueryScheduler} {query : String} {now₀ wait last : Nat}
    (hrun : run step (QueryScheduler.new config) ops = some (s₀, tr))
    (hempty : s₀.queued p = 0)
    (hsub : step s₀ (.submitQuery query now₀) = some (s₁, out))
    (hpolicy : ∃ state, s₁.plugins.get? p = some state ∧ state.policy.debounce.trailingEdge = true ∧
      state.policy.debounce.maximumWaitMs = some wait)
    (hwait : Waits (BurstKept p) p (s₀.clampNow now₀) s₁ last s) :
    ∃ state r due, s.plugins.get? p = some state ∧ state.queue = [r] ∧ r.dueAt = some due ∧
      due ≤ s₀.clampNow now₀ + wait ∧ due ≤ last + state.policy.debounce.debounceMs ∧
      ∀ now s' out', s₀.clampNow now₀ + wait ≤ s.clampNow now →
        step s (.tick now) = some (s', out') → out'.sentTo p = [r.generation] ∨
            ∃ state' r', s'.plugins.get? p = some state' ∧ state'.queue = [r'] ∧
              r'.generation = r.generation ∧ r'.ready = true := by
  have hexec := (exec_of_run hrun).1
  have hfresh₀ := fresh_exec hexec
  have hframe := step_frame hsub
  have hdef₁ : s₁.deferred p = true := by
    induction hwait with
    | start h => exact h
    | next _ _ _ _ ih => exact ih
  -- the first keystroke
  have hstart : ∃ state r, s₁.plugins.get? p = some state ∧
      state.Waiting s₁.currentGeneration (s₀.clampNow now₀) wait (s₀.clampNow now₀) r := by
    obtain ⟨next, hnext, htrail, hmax⟩ := hpolicy
    obtain ⟨policy, hop, -⟩ | ⟨state, sent, hs, hp⟩ := step_origin hsub hnext
    · simp at hop
    · have hnextdef : next.deferred = true := by
        simpa [QueryScheduler.deferred, hnext] using hdef₁
      have hq : state.queue = [] := by
        simpa [QueryScheduler.queued, hs] using hempty
      cases hp with
      | same hop _ => simp [isLocal] at hop
      | closed _ _ => simp [deferred, hq] at hnextdef
      | @submit _ _ g full _ hlive hg =>
        obtain ⟨hcur, hlt⟩ := hframe.minted hg
        have hburst : ((state.reclaimed g false).superseding.settleBurst
            (s₀.clampNow now₀)).burstStarted.getD (s₀.clampNow now₀) ≤ s₀.clampNow now₀ := by
          apply settleBurst_getD_le
          simp only [superseding_frame, reclaimed_frame]
          intro b hb
          obtain ⟨last₀, hlast₀, hle⟩ := burstPast_exec hexec p state b hs hb
          simp only [QueryScheduler.clampNow, hlast₀, elim_some]
          omega
        have hready := (hfresh₀.plugin p state hs).ready hlt
        obtain ⟨r, hw⟩ := (hready.waiting full query _ _ (by simpa using htrail)
          (by simpa using hmax) hburst hnextdef).2
        exact ⟨_, r, hnext, hcur ▸ hw⟩
  obtain ⟨⟨tr', hf⟩, state, r, hs, hw⟩ := hwait.waiting ⟨_, fresh_step hfresh₀ hsub⟩ hstart
  obtain ⟨due, hdue, hle, hlast⟩ := hw.due
  refine ⟨state, r, due, hs, hw.queue, hdue, hle, hlast, ?_⟩
  intro now s' out' hnow hstep
  cases step_plugin hstep p with
  | absent h _ _ => simp [h] at hs
  | removed hop _ _ => simp at hop
  | registered _ hop _ _ => simp at hop
  | @changed state' next _ hs' h' hp hout =>
    obtain rfl := some_inj.mp (hs.symm.trans hs')
    rw [hout]
    cases hp.waiting_over (hf.plugin p state hs) hw hnow with
    | inl hsent => exact .inl hsent
    | inr hqueued =>
      obtain ⟨r', hq', hgen, hready⟩ := hqueued
      exact .inr ⟨next, r', h', hq', hgen, hready⟩

end

/-- A plugin that was handed a request at time 0. -/
def handedOnce (policy : PluginPolicy) : List Op :=
  [.registerPlugin ⟨"apps"⟩ policy, .submitQuery "a" 0, .tick 0]

/-- Ten milliseconds of debounce under a ceiling of fifteen. -/
def shortBurst (queuePolicy : QueuePolicy) : PluginPolicy :=
  { PluginPolicy.modern with
    queuePolicy := queuePolicy
    debounce := { DebouncePolicy.default with debounceMs := 10, maximumWaitMs := some 15 } }

attribute [local instance] Lowercase.ascii
open QueryScheduler

/-- Under an explicit queue policy the second keystroke of a burst starts it afresh: the
request first deferred at 10 is due at 29, and the tick at 25 leaves it waiting. -/
theorem rejectNewest_exceeds_wait :
    ∃ s₀ tr s₁ out s state r, run step (new .default) (handedOnce (shortBurst .rejectNewest)) =
        some (s₀, tr) ∧
      s₀.queued ⟨"apps"⟩ = 0 ∧ s₀.clampNow 10 = 10 ∧
      step s₀ (.submitQuery "ab" 10) = some (s₁, out) ∧
      Waits (fun _ _ => True) ⟨"apps"⟩ 10 s₁ 19 s ∧
      s.plugins.get? ⟨"apps"⟩ = some state ∧ state.policy.debounce.trailingEdge = true ∧
      state.policy.debounce.maximumWaitMs = some 15 ∧ state.queue = [r] ∧
      r.dueAt = some 29 ∧ ¬ 29 ≤ 10 + 15 ∧ (s.tick 25).1.deferred ⟨"apps"⟩ = true := by
  obtain ⟨s₀, tr, hrun, heval⟩ := run_of_eval step (new .default)
    (handedOnce (shortBurst .rejectNewest))
    (fun s₀ _ => s₀.queued ⟨"apps"⟩ = 0 && s₀.clampNow 10 = 10 &&
      (step s₀ (.submitQuery "ab" 10)).any fun r₁ => r₁.1.deferred ⟨"apps"⟩ &&
        r₁.1.clampNow 19 = 19 && (step r₁.1 (.submitQuery "abc" 19)).any fun r₂ =>
          r₂.1.deferred ⟨"apps"⟩ && (r₂.1.tick 25).1.deferred ⟨"apps"⟩ &&
            (r₂.1.plugins.get? ⟨"apps"⟩).any fun state =>
              state.policy.debounce.trailingEdge && state.policy.debounce.maximumWaitMs = some 15 &&
                state.queue = [⟨⟨3⟩, "abc", false, some 29, some .trailingEdge⟩]) (by decide)
  simp only [Bool.and_eq_true, any_eq_true, decide_eq_true_eq] at heval
  obtain ⟨⟨hq, hclamp⟩, ⟨s₁, out⟩, hsub, ⟨hdef₁, hclamp₁⟩, ⟨s, out'⟩, hnext, ⟨hdef, htick⟩,
    state, hs, ⟨htrail, hmax⟩, hqueue⟩ := heval
  have hwaits : Waits (fun _ _ => True) ⟨"apps"⟩ 10 s₁ 19 s :=
    .second hdef₁ trivial hnext hdef hclamp₁
  exact ⟨s₀, tr, s₁, out, s, state, _, hrun, hq, hclamp, hsub, hwaits, hs, htrail, hmax, hqueue,
    rfl, by decide, htick⟩

/-- The same keystrokes under the newest-wins policy. -/
theorem maximum_wait_replaceOldest :
    ∃ s₀ tr s₁ out s, run step (new .default) (handedOnce (shortBurst .replaceOldest)) =
        some (s₀, tr) ∧
      step s₀ (.submitQuery "ab" 10) = some (s₁, out) ∧
      Waits (BurstKept ⟨"apps"⟩) ⟨"apps"⟩ 10 s₁ 19 s ∧
      ∃ state r due, s.plugins.get? ⟨"apps"⟩ = some state ∧ state.queue = [r] ∧
        r.dueAt = some due ∧ due ≤ 10 + 15 := by
  obtain ⟨s₀, tr, hrun, heval⟩ := run_of_eval step (new .default)
    (handedOnce (shortBurst .replaceOldest))
    (fun s₀ _ => s₀.queued ⟨"apps"⟩ = 0 && s₀.clampNow 10 = 10 &&
      (step s₀ (.submitQuery "ab" 10)).any fun r₁ => r₁.1.deferred ⟨"apps"⟩ &&
        r₁.1.clampNow 19 = 19 && ((r₁.1.plugins.get? ⟨"apps"⟩).any fun state =>
          state.policy.debounce.trailingEdge && state.policy.debounce.maximumWaitMs = some 15 &&
            effectiveQueuePolicy state.policy = .replaceOldest) &&
        (step r₁.1 (.submitQuery "abc" 19)).any fun r₂ => r₂.1.deferred ⟨"apps"⟩) (by decide)
  simp only [Bool.and_eq_true, any_eq_true, decide_eq_true_eq] at heval
  obtain ⟨⟨hq, hclamp⟩, ⟨s₁, out⟩, hsub, ⟨⟨hdef₁, hclamp₁⟩, state, hs, ⟨htrail, hmax⟩, hpol⟩,
    ⟨s, out'⟩, hnext, hdef⟩ := heval
  have hkept : BurstKept ⟨"apps"⟩ s₁ (.submitQuery "abc" 19) := by
    intro state' hs'
    obtain rfl := some_inj.mp (hs.symm.trans hs')
    exact .inl hpol
  have hwaits : Waits (BurstKept ⟨"apps"⟩) ⟨"apps"⟩ 10 s₁ 19 s :=
    .second hdef₁ hkept hnext hdef hclamp₁
  have hwait' := hwaits
  rw [← hclamp] at hwait'
  obtain ⟨state', r, due, hs', hqueue, hdue, hle, -⟩ :=
    maximum_wait hrun hq hsub ⟨state, hs, htrail, hmax⟩ hwait'
  exact ⟨s₀, tr, s₁, out, s, hrun, hsub, hwaits, state', r, due, hs', hqueue, hdue, hclamp ▸ hle⟩

end CriKey.Scheduler
