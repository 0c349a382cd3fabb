import CriKey.Scheduler.MaximumWait

/-! The serial discipline of strict legacy plugins: one request at a time, never gated,
never deferred. -/
namespace CriKey.Scheduler
open CriKey.Base CriKey.Core PluginState List Option QueryScheduler

/-- The plugin has had the strict legacy profile since it was last registered. -/
def strictSince (p : PluginId) (tr : List (Op × Output)) : Bool :=
  tr.foldl (fun strict io =>
    match io.1 with
    | .registerPlugin q policy => if q = p then policy.profile = .legacyStrict else strict
    | .setPolicy q policy _ =>
      if q = p then strict && policy.profile = .legacyStrict else strict
    | _ => strict) false

/-- Calls that end the request a plugin is working on. -/
def Op.frees (p : PluginId) : Op → Bool
  | .registerPlugin q _ | .unregisterPlugin q | .disablePlugin q _ | .complete q _ _ => q = p
  | _ => false

namespace PluginState

/-- A strict legacy plugin: its policy, one running request at most, and queued requests
that wait for nothing but their turn. -/
structure Serial (state : PluginState) : Prop where
  policy : state.policy = .legacyStrict
  inFlight : state.inFlight.length ≤ 1
  queue : ∀ r ∈ state.queue, r.ready = true ∧ r.dueAt = none

namespace Serial
variable {state next : PluginState}

lemma gateReason_eq (h : state.Serial) (normalized : String) :
    gateReason state normalized = if state.enabled then none else some .disabled := by
  have hgate : state.policy.profile.allowsHostGating = false := by
    rw [h.policy]
    rfl
  cases he : state.enabled <;> simp [gateReason, he, hgate]

lemma prepare_eq (h : state.Serial) (g : Generation) (now : Nat) :
    ∃ decision, (state.superseding.prepare g now).2 = some (.legacy decision) := by
  have htime : state.superseding.policy.profile.allowsTimeDebounce = false := by
    simp only [superseding_frame, h.policy]
    rfl
  unfold prepare
  rw [settleBurst_eq]
  simp only [htime]
  exact ⟨_, rfl⟩

lemma processed {g : Generation} (h : state.Serial) (hready : state.Ready g) (full : Bool)
    (query normalized : String) (now : Nat) :
    (state.processed full g query normalized now).Serial := by
  have hqueue := hready.processed_queue full query normalized now
  refine ⟨by rw [processed_policy, h.policy], ?_, ?_⟩
  · have hlen : (state.processed full g query normalized now).inFlight.length =
        state.inFlight.length := by
      rcases state.processed_cases full g query normalized now with
        he | he | he | ⟨request, -, he⟩ <;> simp [he, noteRejected]
    exact hlen.trans_le h.inFlight
  · rw [hqueue]
    cases hout : state.outcome full g query normalized now with
    | gated => simp
    | idle | refusedGlobal | refusedPlugin => exact h.queue
    | queued request =>
      obtain ⟨prepared, hprep, rfl, -, -⟩ := outcome_queued state hout
      obtain ⟨decision, hlegacy⟩ := h.prepare_eq g now
      obtain rfl : prepared = .legacy decision := some_inj.mp (hprep.symm.trans hlegacy)
      simp [pendingRequest]

lemma processed_pending {g : Generation} (h : state.Serial) (hready : state.Ready g)
    (he : state.enabled = true) (full : Bool) (query normalized : String) (now : Nat) :
    (state.processed full g query normalized now).queue.getLast?.map (·.generation) = some g ∨
      state.outcome full g query normalized now = .refusedGlobal := by
  obtain ⟨decision, hlegacy⟩ := h.prepare_eq g now
  rw [hready.processed_queue]
  cases hout : state.outcome full g query normalized now with
  | gated =>
    rw [outcome_gated_iff, h.gateReason_eq, he] at hout
    simp at hout
  | idle =>
    have hnone := outcome_idle state hout
    simp [hlegacy] at hnone
  | refusedPlugin => exact absurd hout (hready.not_refusedPlugin full query normalized now)
  | refusedGlobal => exact .inr rfl
  | queued request =>
    obtain ⟨prepared, -, rfl, -, -⟩ := outcome_queued state hout
    exact .inl (by simp [pendingRequest_generation])

lemma dispatches {now : Nat} {sent : List PendingRequest} (h : state.Serial)
    (hrun : state.Dispatches now sent next) :
    next.Serial ∧ sent.length ≤ 1 ∧ (sent ≠ [] → state.inFlight = [] ∧ next.inFlight ≠ []) ∧
      (sent = [] → next = state) := by
  induction hrun with
  | start => exact ⟨h, by simp, by simp, fun _ => rfl⟩
  | @next requests mid request _ hd ih =>
    obtain ⟨hmid, -, hsent, hsame⟩ := ih
    obtain ⟨hroom, -, hq⟩ := dispatchable_eq_some hd
    have hlimit : effectiveConcurrencyLimit mid.policy = 1 := by
      rw [hmid.policy]
      rfl
    have hempty : mid.inFlight = [] := by
      exact eq_nil_of_length_eq_zero (by omega)
    have hnone : requests = [] := by
      by_contra hne
      exact (hsent hne).2 hempty
    obtain rfl := hsame hnone
    subst hnone
    refine ⟨⟨hmid.policy, ?_, ?_⟩, by simp, ?_, by simp⟩
    · simp [dispatch, hempty]
    · intro r hr
      exact hmid.queue r (mem_of_mem_tail hr)
    · intro _
      exact ⟨hempty, by simp [dispatch]⟩

lemma reclaimed (h : state.Serial) (g : Generation) : (state.reclaimed g false).Serial := by
  refine ⟨by simpa using h.policy, by simpa using h.inFlight, ?_⟩
  intro r hr
  exact h.queue r ((state.reclaimed_queue_sublist g false).subset hr)

lemma settled (h : state.Serial) (current : Generation) (now : Nat) :
    (state.settled current now).Serial := by
  refine ⟨by simp [h.policy], by simpa using h.inFlight, ?_⟩
  intro r hr
  rw [settled_queue] at hr
  obtain ⟨old, hold, rfl⟩ := mem_map.mp hr
  have hready := h.queue old (mem_filter.mp hold).1
  have hmark : markDue now old = old := by simp [markDue, isDue, hready.1]
  rw [hmark]
  exact hready

end Serial
end PluginState

section
variable [Lowercase] {s s' : QueryScheduler} {p : PluginId} {op : Op} {out : Output}
  {state next : PluginState} {sent : List PendingRequest}

lemma normalizePolicy_strict {policy : PluginPolicy} (h : policy.profile = .legacyStrict) :
    normalizePolicy policy = .legacyStrict := by
  simp [normalizePolicy, h]

lemma PluginStep.serial {had : List Generation} (hp : PluginStep s p op state next sent)
    (hop : ∀ policy now, op = .setPolicy p policy now → policy.profile = .legacyStrict)
    (hfresh : state.Fresh s.currentGeneration s.isShutdown had) (h : state.Serial) :
    next.Serial := by
  cases hp with
  | same _ _ | closed _ _ => exact h
  | enable | staleResult => exact ⟨h.policy, h.inFlight, h.queue⟩
  | setPolicy reason =>
    refine ⟨normalizePolicy_strict (hop _ _ rfl), ?_, ?_⟩
    · simpa [reconfigured] using h.inFlight
    · simp [reconfigured]
  | disable =>
    refine ⟨?_, by simp [switchedOff], by simp [switchedOff]⟩
    simpa [switchedOff] using h.policy
  | cancel => exact ⟨by simpa using h.policy, by simpa using h.inFlight, by simp⟩
  | shutdown =>
    refine ⟨?_, by simp [stopped], by simp [stopped]⟩
    simpa [stopped] using h.policy
  | complete => exact ⟨h.policy, (eraseP_sublist.length_le).trans h.inFlight, h.queue⟩
  | @result g _ completion =>
    refine ⟨h.policy, ?_, h.queue⟩
    have hlen := congrArg length (state.noted_runningGens g completion)
    simp only [runningGens, length_map] at hlen
    exact hlen.trans_le h.inFlight
  | submit hlive hg =>
    exact (h.reclaimed _).processed (hfresh.ready (hg ▸ Nat.lt_succ_self _)) _ _ _ _
  | tick hlive hrun =>
    obtain ⟨hnext, -⟩ := (h.settled _ _).dispatches hrun
    exact ⟨hnext.policy, hnext.inFlight, hnext.queue⟩

def SerialRun (tr : List (Op × Output)) (s : QueryScheduler) : Prop :=
  ∀ p state, strictSince p tr = true → s.plugins.get? p = some state → state.Serial

omit [Lowercase] in
lemma strictSince_snoc (tr : List (Op × Output)) (hrep : op.replaces p = false) :
    strictSince p (tr ++ [(op, out)]) = true ↔ strictSince p tr = true ∧
        ∀ policy now, op = .setPolicy p policy now → policy.profile = .legacyStrict := by
  unfold strictSince
  rw [foldl_append]
  cases op with
  | registerPlugin q policy =>
    have hne : ¬ q = p := by simpa [Op.replaces] using hrep
    simp [hne]
  | setPolicy q policy now =>
    by_cases hq : q = p
    · simp [hq]
    · simp [hq]
  | _ => simp

variable {tr : List (Op × Output)}

lemma serial_step (hfresh : Fresh tr s) (h : SerialRun tr s) (hstep : step s op = some (s', out)) :
    SerialRun (tr ++ [(op, out)]) s' := by
  intro p next hstrict hnext
  obtain ⟨policy, rfl, rfl⟩ | ⟨state, sent, hs, hp⟩ := step_origin hstep hnext
  · have hprofile : policy.profile = .legacyStrict := by
      unfold strictSince at hstrict
      simpa using hstrict
    exact ⟨normalizePolicy_strict hprofile, by simp [PluginState.new], by simp [PluginState.new]⟩
  · obtain ⟨hbefore, hop⟩ := (strictSince_snoc tr hp.not_replaces).mp hstrict
    exact hp.serial hop (hfresh.plugin p state hs) (h p state hbefore hs)

lemma serial_exec {config : SchedulerConfig} (h : Exec step (new config) tr s) : SerialRun tr s :=
  Exec.invariant SerialRun (by simp [SerialRun, QueryScheduler.new])
    (fun _ _ _ _ _ hexec hI hs => serial_step (fresh_exec hexec) hI hs) h

/-- The plugin is at work, or the scheduler hands out nothing any more. -/
def Occupied (p : PluginId) (s : QueryScheduler) : Prop :=
  s.isShutdown = true ∨ ∃ state, s.plugins.get? p = some state ∧ state.inFlight ≠ []

omit [Lowercase] in
lemma PluginState.Dispatches.inFlight_ne_nil {now : Nat} (h : state.Dispatches now sent next)
    (hne : state.inFlight ≠ [] ∨ sent ≠ []) : next.inFlight ≠ [] := by
  induction h with
  | start => simpa using hne
  | next _ _ _ => simp [dispatch]

omit [Lowercase] in
lemma noted_inFlight_ne_nil {g : Generation} {completion : BatchCompletion}
    (h : state.inFlight ≠ []) : (state.noted g completion).inFlight ≠ [] := by
  intro hnil
  have hgens := state.noted_runningGens g completion
  simp only [runningGens, hnil, map_nil] at hgens
  exact h (map_eq_nil_iff.mp hgens.symm)

lemma occupied_step (h : Occupied p s) (hop : op.frees p = false)
    (hstep : step s op = some (s', out)) : Occupied p s' := by
  have hshut := (step_frame hstep).isShutdown
  cases h with
  | inl hclosed => exact .inl (by rw [hshut, hclosed]; rfl)
  | inr hbusy =>
    obtain ⟨state, hs, hne⟩ := hbusy
    cases step_plugin hstep p with
    | absent h _ _ => simp [h] at hs
    | registered policy he _ _ => simp [he, Op.frees] at hop
    | removed he _ _ => simp [he, Op.frees] at hop
    | @changed state' next _ hs' h' hp _ =>
      obtain rfl := some_inj.mp (hs.symm.trans hs')
      cases hp with
      | complete | disable => simp [Op.frees] at hop
      | shutdown => exact .inl (by rw [hshut]; simp [Op.isShutdown])
      | same _ _ | closed _ _ | enable | staleResult => exact .inr ⟨_, h', hne⟩
      | result => exact .inr ⟨_, h', noted_inFlight_ne_nil hne⟩
      | setPolicy _ | cancel =>
        exact .inr ⟨_, h', by simpa [reconfigured] using hne⟩
      | @submit query now g full _ _ _ =>
        refine .inr ⟨_, h', ?_⟩
        rcases (state.reclaimed g false).processed_cases full g query (toLowercase (trim query))
          (s.clampNow now) with he | he | he | ⟨request, -, he⟩ <;> rw [he] <;>
          simpa [noteRejected] using hne
      | tick _ hrun =>
        exact .inr ⟨_, h', hrun.inFlight_ne_nil (.inl (by simpa using hne))⟩

lemma occupied_exec {t : QueryScheduler} (h : Occupied p s)
    (hfree : ∀ io ∈ tr, io.1.frees p = false) (hexec : Exec step s tr t) : Occupied p t := by
  induction hexec with
  | start => exact h
  | next _ hstep ih =>
    apply occupied_step (ih fun io hio => hfree io (mem_append_left _ hio)) _ hstep
    exact hfree _ (mem_append_right _ (mem_singleton_self _))

lemma occupied_of_sent (hsent : out.sentTo p ≠ []) (hstep : step s op = some (s', out)) :
    Occupied p s' := by
  cases step_plugin hstep p with
  | absent _ _ hout => exact absurd hout hsent
  | registered _ _ _ hout => exact absurd hout hsent
  | removed _ _ hout => exact absurd hout hsent
  | changed _ h' hp hout =>
    rw [hout] at hsent
    cases hp with
    | tick _ hrun =>
      refine .inr ⟨_, h', hrun.inFlight_ne_nil (.inr ?_)⟩
      rintro rfl
      simp at hsent
    | _ => simp at hsent

lemma strict_sent (hserial : SerialRun tr s) (hstrict : strictSince p tr = true)
    (hstep : step s op = some (s', out)) :
    (out.sentTo p).length ≤ 1 ∧ (out.sentTo p ≠ [] → ¬ Occupied p s) := by
  cases step_plugin hstep p with
  | absent _ _ hout => simp [hout]
  | registered _ _ _ hout => simp [hout]
  | removed _ _ hout => simp [hout]
  | @changed state next sent hs h' hp hout =>
    rw [hout, length_map]
    by_cases hne : sent = []
    · simp [hne]
    have hold := hserial p state hstrict hs
    cases hp with
    | @tick now _ mid _ hlive hrun =>
      obtain ⟨-, hone, hfree, -⟩ :=
        (hold.settled s.currentGeneration (s.clampNow now)).dispatches hrun
      refine ⟨hone, fun _ hbusy => ?_⟩
      cases hbusy with
      | inl hclosed => simp [hlive] at hclosed
      | inr hbusy =>
        obtain ⟨state', hs', hrunning⟩ := hbusy
        obtain rfl := some_inj.mp (hs.symm.trans hs')
        exact hrunning (by simpa using (hfree hne).1)
    | _ => exact absurd rfl hne

/-- The serial discipline of a strict legacy plugin along every run. -/
theorem legacyStrict_serial {config : SchedulerConfig} {ops : List Op} {tr : List (Op × Output)}
    (p : PluginId) (hrun : run step (new config) ops = some (s, tr)) :
    (∀ state, strictSince p tr = true → s.plugins.get? p = some state →
      state.inFlight.length ≤ 1 ∧ state.queue.length ≤ 1 ∧
      (∀ r ∈ state.queue, r.ready = true ∧ r.dueAt = none) ∧
      (s.shouldTerminate p = true ↔
        ∃ r ∈ state.inFlight, r.cancelReason ≠ none ∨ r.generation < s.currentGeneration) ∧
      ∀ query now s' g, s.isShutdown = false → state.enabled = true →
        s.submitQuery query now = some (s', g) →
          s'.pending p = some g ∨ ∃ m, s.atTurn query now p = some m ∧
            m.refusesGlobally query (s.clampNow now) p = true) ∧
    (∀ before io after, tr = before ++ io :: after → strictSince p before = true →
      (io.2.sentTo p).length ≤ 1) ∧
    ∀ before io middle io' after, tr = before ++ io :: (middle ++ io' :: after) →
      strictSince p (before ++ io :: middle) = true → io.2.sentTo p ≠ [] → io'.2.sentTo p ≠ [] →
        ∃ op ∈ middle.map Prod.fst, op.frees p = true := by
  have hexec := (exec_of_run hrun).1
  refine ⟨?_, ?_, ?_⟩
  · intro state hstrict hs
    have hserial := serial_exec hexec p state hstrict hs
    have hfresh := (fresh_exec hexec).plugin p state hs
    have hqueue := hfresh.queue_length
    rw [queuedGens, length_map] at hqueue
    refine ⟨hserial.inFlight, hqueue, hserial.queue, ?_, ?_⟩
    · have hprofile : state.policy.profile = .legacyStrict := by
        rw [hserial.policy]
        rfl
      simp only [shouldTerminate, hs, elim_some, hprofile, decide_true,
        Bool.true_and, List.any_eq_true, Option.isSome_iff_ne_none]
      constructor
      · rintro ⟨r, hr, hc⟩
        exact ⟨r, hr, .inl hc⟩
      · rintro ⟨r, hr, hc⟩
        refine ⟨r, hr, ?_⟩
        cases hc with
        | inl hc => exact hc
        | inr hold =>
          intro hnone
          have hcur := hfresh.live_current _ (state.mem_liveGens hr hnone)
          exact absurd hcur hold.ne
    · intro query now s' g hlive he hsub
      obtain ⟨m, hm, hcur, hget, hs'⟩ := submit_turn hsub hlive hs
      have hlt := submitQuery_lt hsub
      cases (hserial.reclaimed g).processed_pending (hfresh.ready hlt) (by simpa using he)
          m.isFull query (toLowercase (trim query)) (s.clampNow now) with
      | inl hpending => exact .inl (by simpa [pending, hs'] using hpending)
      | inr hrefused =>
        refine .inr ⟨m, hm, ?_⟩
        simp [refusesGlobally, hget, hcur, hrefused]
  · intro before io after htr hstrict
    rw [htr] at hexec
    obtain ⟨t, t', hbefore, hstep, -⟩ := hexec.split_at
    exact (strict_sent (serial_exec hbefore) hstrict hstep).1
  · intro before io middle io' after htr hstrict hfirst hsecond
    have htr' : tr = (before ++ io :: middle) ++ io' :: after := by simp [htr]
    rw [htr'] at hexec
    obtain ⟨t₂, t₃, hmiddle, hstep₂, -⟩ := hexec.split_at
    have hfree := (strict_sent (serial_exec hmiddle) hstrict hstep₂).2 hsecond
    obtain ⟨t, t₁, -, hstep₁, hexec₁⟩ := hmiddle.split_at
    by_contra hnone
    apply hfree
    apply occupied_exec (occupied_of_sent hfirst hstep₁) _ hexec₁
    intro io hio
    by_contra hfrees
    exact hnone ⟨io.1, mem_map_of_mem hio, by simpa using hfrees⟩

end

/-- A strict plugin that is typed at while it works. -/
def strictTyping : List Op :=
  [.registerPlugin ⟨"legacy"⟩ .legacyStrict, .submitQuery "a" 0, .tick 0, .submitQuery "ab" 10,
    .tick 20, .complete ⟨"legacy"⟩ ⟨1⟩ 30, .tick 30]

attribute [local instance] Lowercase.ascii in
theorem legacyStrict_serial_typing :
    ∃ s tr state, run step (new .default) strictTyping = some (s, tr) ∧
      strictSince ⟨"legacy"⟩ tr = true ∧ s.plugins.get? ⟨"legacy"⟩ = some state ∧
      state.inFlight.length ≤ 1 := by
  obtain ⟨s, tr, hrun, heval⟩ := run_of_eval step (new .default) strictTyping
    (fun s tr => (s.plugins.get? ⟨"legacy"⟩).isSome && strictSince ⟨"legacy"⟩ tr) (by decide)
  simp only [Bool.and_eq_true, isSome_iff_exists] at heval
  obtain ⟨⟨state, hs⟩, hstrict⟩ := heval
  have hserial := (legacyStrict_serial ⟨"legacy"⟩ hrun).1 state hstrict hs
  exact ⟨s, tr, state, hrun, hstrict, hs, hserial.1⟩

end CriKey.Scheduler
