import CriKey.Scheduler.Work

/-! Only the latest query is worked on. The invariant ties queue, in-flight list and
reports of a plugin to the generation counter and to what was handed out so far. -/
namespace CriKey.Scheduler
open CriKey.Base CriKey.Core PluginState List Option QueryScheduler

/-- The generations handed to `p` along a trace. -/
def sentTo (p : PluginId) (tr : List (Op × Output)) : List Generation :=
  tr.flatMap fun io => io.2.sentTo p

def latest (tr : List (Op × Output)) : Generation :=
  tr.foldl (fun g io =>
    match io with
    | (.submitQuery _ _, .generation g') => g'
    | _ => g) .zero

lemma sentTo_snoc (p : PluginId) (tr : List (Op × Output)) (io : Op × Output) :
    sentTo p (tr ++ [io]) = sentTo p tr ++ io.2.sentTo p := by
  simp [sentTo]

namespace PluginState

/-- What holds of a plugin that was handed `sent`, in a scheduler at generation
`current`. -/
structure Fresh (current : Generation) (closed : Bool) (sent : List Generation)
    (state : PluginState) : Prop where
  policy : state.policy.Normal
  queue_length : state.queuedGens.length ≤ 1
  work_nodup : (sent ++ state.queuedGens).Nodup
  work_le : ∀ g ∈ sent ++ state.queuedGens, g ≤ current
  running_sent : ∀ g ∈ state.runningGens, g ∈ sent
  running_nodup : state.runningGens.Nodup
  live_current : ∀ g ∈ state.liveGens, g = current
  reported_nodup : (state.history.reported ++ (state.liveGens ++ state.queuedGens)).Nodup
  reported_le : ∀ g ∈ state.history.reported, g ≤ current
  closed_empty : closed = true → state.queue = [] ∧ state.inFlight = []

namespace Fresh
variable {current : Generation} {closed : Bool} {sent : List Generation} {state next : PluginState}

lemma new {policy : PluginPolicy} (hp : policy.Normal) (hn : sent.Nodup)
    (hle : ∀ g ∈ sent, g ≤ current) : (PluginState.new policy).Fresh current closed sent where
  policy := hp
  queue_length := Nat.zero_le _
  work_nodup := by simpa [PluginState.new, queuedGens] using hn
  work_le := by simpa [PluginState.new, queuedGens] using hle
  running_sent := by simp [PluginState.new, runningGens]
  running_nodup := by simp [PluginState.new, runningGens]
  live_current := by simp [PluginState.new, liveGens]
  reported_nodup := by simp [PluginState.new, liveGens, queuedGens]
  reported_le := by simp [PluginState.new]
  closed_empty := fun _ => ⟨rfl, rfl⟩

lemma shrink (next : PluginState) (h : state.Fresh current closed sent)
    (hpolicy : next.policy = state.policy)
    (hreported : next.history.reported = state.history.reported)
    (hqueue : next.queuedGens.Sublist state.queuedGens)
    (hrunning : next.runningGens.Sublist state.runningGens)
    (hlive : next.liveGens.Sublist state.liveGens)
    (hclosed : closed = true → next.queue = [] ∧ next.inFlight = []) :
    next.Fresh current closed sent where
  policy := hpolicy ▸ h.policy
  queue_length := hqueue.length_le.trans h.queue_length
  work_nodup := h.work_nodup.sublist ((List.Sublist.refl _).append hqueue)
  work_le := fun g hg => h.work_le g (((List.Sublist.refl _).append hqueue).subset hg)
  running_sent := fun g hg => h.running_sent g (hrunning.subset hg)
  running_nodup := h.running_nodup.sublist hrunning
  live_current := fun g hg => h.live_current g (hlive.subset hg)
  reported_nodup := by
    rw [hreported]
    exact h.reported_nodup.sublist ((List.Sublist.refl _).append (hlive.append hqueue))
  reported_le := hreported ▸ h.reported_le
  closed_empty := hclosed

section
variable (h : state.Fresh current closed sent)
include h

lemma queued_le : ∀ g ∈ state.queuedGens, g ≤ current :=
  fun g hg => h.work_le g (mem_append_right _ hg)

lemma sent_le : ∀ g ∈ sent, g ≤ current :=
  fun g hg => h.work_le g (mem_append_left _ hg)

lemma live_le : ∀ g ∈ state.liveGens, g ≤ current :=
  fun g hg => (h.live_current g hg).le

lemma of_cancelled {current' : Generation} {closed' : Bool} (hle : current ≤ current')
    (hpolicy : next.policy.Normal) (hqueue : next.queue = [])
    (hrunning : next.runningGens.Sublist state.runningGens) (hlive : next.liveGens = [])
    (hreported : next.history.reported =
      state.history.reported ++ (state.liveGens ++ state.queuedGens))
    (hclosed : closed' = true → next.inFlight = []) : next.Fresh current' closed' sent := by
  have hq : next.queuedGens = [] := by simp [queuedGens, hqueue]
  refine ⟨hpolicy, by simp [hq], ?_, ?_, ?_, ?_, by simp [hlive], ?_, ?_, ?_⟩
  · rw [hq, append_nil]
    exact h.work_nodup.of_append_left
  · rw [hq, append_nil]
    exact fun g hg => (h.sent_le g hg).trans hle
  · exact fun g hg => h.running_sent g (hrunning.subset hg)
  · exact h.running_nodup.sublist hrunning
  · rw [hq, hlive, hreported]
    simpa using h.reported_nodup
  · intro g hg
    rw [hreported] at hg
    rcases mem_append.mp hg with hg | hg
    · exact (h.reported_le g hg).trans hle
    · rcases mem_append.mp hg with hg | hg
      · exact (h.live_le g hg).trans hle
      · exact (h.queued_le g hg).trans hle
  · exact fun hc => ⟨hqueue, hclosed hc⟩

end

lemma of_superseded {current' : Generation} (h : state.Fresh current false sent)
    (hlt : current < current') (hpolicy : next.policy = state.policy)
    (hqueue : next.queuedGens = state.queuedGens ∨ next.queuedGens = [current'])
    (hrunning : next.runningGens = state.runningGens) (hlive : next.liveGens = [])
    (hreported : next.history.reported = state.history.reported ++ state.liveGens) :
    next.Fresh current' false sent := by
  have hold : ∀ g, g ≤ current → g ≠ current' := fun g hg he => absurd (he ▸ hg) hlt.not_ge
  have hreports : ∀ g ∈ next.history.reported, g ≤ current := by
    intro g hg
    rw [hreported] at hg
    rcases mem_append.mp hg with hg | hg
    · exact h.reported_le g hg
    · exact h.live_le g hg
  refine ⟨hpolicy ▸ h.policy, ?_, ?_, ?_, ?_, hrunning ▸ h.running_nodup, by simp [hlive], ?_,
    fun g hg => (hreports g hg).trans hlt.le, by simp⟩
  · rcases hqueue with hq | hq
    · rw [hq]
      exact h.queue_length
    · simp [hq]
  · rcases hqueue with hq | hq
    · rw [hq]
      exact h.work_nodup
    rw [hq, nodup_append]
    refine ⟨h.work_nodup.of_append_left, nodup_singleton _, ?_⟩
    intro a ha b hb
    rw [mem_singleton.mp hb]
    exact hold a (h.sent_le a ha)
  · intro g hg
    rcases mem_append.mp hg with hg | hg
    · exact (h.sent_le g hg).trans hlt.le
    rcases hqueue with hq | hq
    · exact (h.queued_le g (hq ▸ hg)).trans hlt.le
    · rw [hq, mem_singleton] at hg
      exact hg.le
  · exact fun g hg => h.running_sent g (hrunning ▸ hg)
  · rw [hlive]
    rcases hqueue with hq | hq
    · rw [hq, hreported, append_assoc]
      exact h.reported_nodup
    rw [hq, nodup_append]
    refine ⟨?_, nodup_singleton _, ?_⟩
    · have hn := h.reported_nodup
      rw [← append_assoc] at hn
      rw [hreported]
      exact hn.of_append_left
    · intro a ha b hb
      rw [mem_singleton.mp hb]
      exact hold a (hreports a ha)

lemma dispatch {request : PendingRequest} (now : Nat) (h : state.Fresh current false sent)
    (hd : state.dispatchable = some request) (hcur : ∀ g ∈ state.queuedGens, g = current) :
    (state.dispatch request now).Fresh current false (sent ++ [request.generation]) ∧
      (state.dispatch request now).queuedGens = [] ∧ request.generation = current := by
  have hq := state.dispatch_queuedGens now hd
  have hone := h.queue_length
  rw [hq] at hone
  have hnil : (state.dispatch request now).queuedGens = [] := by
    rw [← length_eq_zero_iff]
    simpa using hone
  rw [hnil] at hq
  have hgen : request.generation = current := hcur _ (by rw [hq]; exact mem_singleton_self _)
  have hwork := h.work_nodup
  have hrep := h.reported_nodup
  rw [hq] at hwork hrep
  refine ⟨⟨h.policy, by simp [hnil], ?_, ?_, ?_, ?_, ?_, ?_, h.reported_le, by simp⟩, hnil, hgen⟩
  · rw [hnil, append_nil]
    exact hwork
  · intro g hg
    rw [hnil, append_nil, ← hq] at hg
    exact h.work_le g hg
  · intro g hg
    rw [dispatch_runningGens] at hg
    rcases mem_append.mp hg with hg | hg
    · exact mem_append_left _ (h.running_sent g hg)
    · exact mem_append_right _ hg
  · rw [dispatch_runningGens, nodup_append]
    refine ⟨h.running_nodup, nodup_singleton _, ?_⟩
    intro a ha b hb
    exact (nodup_append.mp hwork).2.2 a (h.running_sent a ha) b hb
  · intro g hg
    rw [dispatch_liveGens] at hg
    rcases mem_append.mp hg with hg | hg
    · exact h.live_current g hg
    · rw [mem_singleton.mp hg, hgen]
  · rw [hnil, append_nil, dispatch_liveGens]
    exact hrep

lemma dispatches {now : Nat} {requests : List PendingRequest}
    (h : state.Fresh current false sent) (hcur : ∀ g ∈ state.queuedGens, g = current)
    (hrun : state.Dispatches now requests next) :
    next.Fresh current false (sent ++ requests.map (·.generation)) ∧
      (∀ g ∈ next.queuedGens, g = current) ∧ ∀ r ∈ requests, r.generation = current := by
  induction hrun with
  | start => exact ⟨by simpa using h, hcur, by simp⟩
  | @next requests mid request _ hd ih =>
    obtain ⟨hmid, hmidcur, hreq⟩ := ih
    obtain ⟨hfresh, hnil, hgen⟩ := hmid.dispatch now hd hmidcur
    refine ⟨?_, by simp [hnil], ?_⟩
    · simpa using hfresh
    · intro r hr
      rcases mem_append.mp hr with hr | hr
      · exact hreq r hr
      · rw [mem_singleton.mp hr, hgen]

end Fresh
end PluginState

section
variable [Lowercase] {s s' : QueryScheduler} {p : PluginId} {op : Op} {out : Output}
  {state next : PluginState} {requests : List PendingRequest} {sent : List Generation}

omit [Lowercase] in
lemma StepFrame.current_eq (h : StepFrame s op s' out) (hsub : op.isSubmit = false) :
    s'.currentGeneration = s.currentGeneration := by
  have hc := h.counter
  simp only [hsub, Bool.false_eq_true, if_false, Nat.add_zero] at hc
  exact congrArg Generation.mk hc

omit [Lowercase] in
lemma StepFrame.minted {query : String} {now : Nat} {g : Generation}
    (h : StepFrame s (.submitQuery query now) s' out) (hg : g = ⟨s.generations.counter + 1⟩) :
    s'.currentGeneration = g ∧ s.currentGeneration < g := by
  rw [hg]
  exact ⟨congrArg Generation.mk h.counter, Nat.lt_succ_self _⟩

omit [Lowercase] in
lemma StepFrame.current_le (h : StepFrame s op s' out) :
    s.currentGeneration ≤ s'.currentGeneration :=
  (Nat.le_add_right _ _).trans h.counter.ge

omit [Lowercase] in
lemma Op.isLocal_iff (op : Op) (h : op.isLocal = true) :
    op.isSubmit = false ∧ op.isShutdown = false := by
  cases op <;> first | exact ⟨rfl, rfl⟩ | simp [Op.isLocal] at h

namespace PluginState.Fresh
variable {current : Generation} {closed : Bool}

omit [Lowercase] in
lemma settled (now : Nat) (h : state.Fresh current closed sent) :
    (state.settled current now).Fresh current closed sent ∧
      ∀ g ∈ (state.settled current now).queuedGens, g = current := by
  refine ⟨h.shrink _ (by simp) (by simp) ?_ (by simp) (by simp) ?_, ?_⟩
  · rw [settled_queuedGens]
    exact filter_sublist
  · intro hc
    obtain ⟨hq, hi⟩ := h.closed_empty hc
    exact ⟨by simp [settled_queue, hq], by simp [hi]⟩
  · intro g hg
    rw [settled_queuedGens] at hg
    simpa using (mem_filter.mp hg).2

omit [Lowercase] in
lemma reclaimed_slot {g : Generation} (h : state.Fresh current closed sent) (hlt : current < g) :
    effectiveQueuePolicy state.policy = .replaceOldest ∨ (state.reclaimed g false).queue = [] := by
  by_cases hp : effectiveQueuePolicy state.policy = .replaceOldest
  · exact .inl hp
  right
  rw [reclaimed_queue_of_incl state g false (.inr hp), filter_eq_nil_iff]
  intro r hr he
  have hle := h.queued_le r.generation (mem_map_of_mem hr)
  rw [of_decide_eq_true he] at hle
  exact absurd hle hlt.not_ge

omit [Lowercase] in
lemma processed {g : Generation} {full : Bool} {query normalized : String} {now : Nat}
    (h : state.Fresh current false sent) (hlt : current < g) :
    ((state.reclaimed g false).processed full g query normalized now).Fresh g false sent := by
  have hslot := h.reclaimed_slot hlt
  have hrec : (state.reclaimed g false).Fresh current false sent :=
    h.shrink _ (by simp) (by simp) ((state.reclaimed_queue_sublist g false).map _) (by simp)
      (by simp) (by simp)
  rw [← (state.reclaimed_frame g false).1] at hslot
  generalize state.reclaimed g false = mid at hslot hrec
  rcases mid.processed_cases full g query normalized now with
    he | he | he | ⟨request, hgen, he⟩ <;> rw [he]
  · exact hrec.of_cancelled hlt.le (by simpa using hrec.policy) (by simp) (by simp) (by simp)
      (by simp) (by simp)
  · exact hrec.of_superseded hlt (by simp) (.inl (by simp)) (by simp) (by simp) (by simp)
  · exact hrec.of_superseded hlt (by simp) (.inl (by simp)) (by simp) (by simp) (by simp)
  · refine hrec.of_superseded hlt (by simp) (.inr ?_) (by simp) (by simp) (by simp)
    have hq := enqueue_queue (mid.superseding.prepare g now).1 request (by simpa using hslot)
    simp [queuedGens, hq, hgen]

end PluginState.Fresh

lemma PluginStep.sent_current (hstep : PluginStep s p op state next requests)
    (h : state.Fresh s.currentGeneration s.isShutdown sent) :
    ∀ r ∈ requests, r.generation = s.currentGeneration := by
  cases hstep with
  | tick hlive hrun =>
    rw [hlive] at h
    obtain ⟨hfresh, hcur⟩ := h.settled _
    exact (hfresh.dispatches hcur hrun).2.2
  | _ => simp

lemma PluginStep.fresh (hstep : PluginStep s p op state next requests)
    (hframe : StepFrame s op s' out) (h : state.Fresh s.currentGeneration s.isShutdown sent) :
    next.Fresh s'.currentGeneration s'.isShutdown (sent ++ requests.map (·.generation)) := by
  have hopen : op.isShutdown = false → s'.isShutdown = s.isShutdown := by
    intro hop
    rw [hframe.isShutdown, hop, Bool.or_false]
  have hidle : op.isShutdown = false → s'.isShutdown = true → state.inFlight = [] :=
    fun hop hc => (h.closed_empty (hopen hop ▸ hc)).2
  cases hstep with
  | same hop _ =>
    obtain ⟨hsub, hns⟩ := Op.isLocal_iff op hop
    rw [hframe.current_eq hsub, hopen hns, map_nil, append_nil]
    exact h
  | closed _ hc =>
    obtain ⟨hq, hi⟩ := h.closed_empty hc
    rw [map_nil, append_nil]
    exact h.of_cancelled hframe.current_le h.policy hq (.refl _) (by simp [liveGens, hi])
      (by simp [liveGens, queuedGens, hi, hq]) (fun _ => hi)
  | setPolicy reason =>
    rw [map_nil, append_nil]
    refine h.of_cancelled hframe.current_le (normalizePolicy_normal _)
      (state.invalidated_queue reason) ?_ (state.invalidated_liveGens reason)
      (state.invalidated_reported reason) ?_
    · exact (state.invalidated_runningGens reason) ▸ .refl _
    · intro hc
      have hi := state.invalidated_inFlight reason
      rw [hidle rfl hc] at hi
      exact hi
  | disable =>
    rw [map_nil, append_nil]
    exact h.of_cancelled hframe.current_le (by simpa [switchedOff] using h.policy)
      (state.invalidated_queue _) (nil_sublist _) rfl (state.invalidated_reported _)
      (fun _ => rfl)
  | enable | staleResult =>
    rw [hframe.current_eq rfl, hopen rfl, map_nil, append_nil]
    exact h.shrink _ rfl rfl (.refl _) (.refl _) (.refl _) h.closed_empty
  | submit hlive hg =>
    obtain ⟨hcur, hlt⟩ := hframe.minted hg
    rw [hlive] at h
    rw [map_nil, append_nil, hopen rfl, hlive, hcur]
    exact h.processed hlt
  | tick hlive hrun =>
    rw [hlive] at h
    obtain ⟨hfresh, hcur⟩ := h.settled _
    have hnext := (hfresh.dispatches hcur hrun).1
    rw [hframe.current_eq rfl, hopen rfl, hlive]
    exact hnext.shrink _ rfl rfl (.refl _) (.refl _) (.refl _) (by simp)
  | complete =>
    rw [hframe.current_eq rfl, hopen rfl, map_nil, append_nil]
    refine h.shrink _ rfl rfl (.refl _) (state.completed_runningGens_sublist _)
      (state.completed_liveGens_sublist _) ?_
    intro hc
    obtain ⟨hq, hi⟩ := h.closed_empty hc
    exact ⟨hq, by simp [completed, hi]⟩
  | cancel =>
    rw [map_nil, append_nil]
    exact h.of_cancelled hframe.current_le (by simpa using h.policy) (by simp) (by simp)
      (by simp) (by simp) (fun hc => by simp [hidle rfl hc])
  | shutdown =>
    rw [map_nil, append_nil]
    exact h.of_cancelled hframe.current_le (by simpa [stopped] using h.policy) rfl
      (nil_sublist _) rfl (state.invalidated_reported _) (fun _ => rfl)
  | result =>
    rw [hframe.current_eq rfl, hopen rfl, map_nil, append_nil]
    refine h.shrink _ rfl rfl (.refl _) (by simp) (by simp) ?_
    intro hc
    obtain ⟨hq, hi⟩ := h.closed_empty hc
    exact ⟨hq, by simp [noted, hi, modifyFirst]⟩

/-- The invariant of a whole run. -/
structure Fresh (tr : List (Op × Output)) (s : QueryScheduler) : Prop where
  sent_nodup : ∀ p, (sentTo p tr).Nodup
  sent_le : ∀ p, ∀ g ∈ sentTo p tr, g ≤ s.currentGeneration
  plugin : ∀ p state, s.plugins.get? p = some state →
    state.Fresh s.currentGeneration s.isShutdown (sentTo p tr)
  current : s.currentGeneration = latest tr

omit [Lowercase] in
lemma fresh_new (config : SchedulerConfig) : Fresh [] (QueryScheduler.new config) where
  sent_nodup := fun _ => nodup_nil
  sent_le := by simp [sentTo]
  plugin := by simp [QueryScheduler.new]
  current := rfl

variable {tr : List (Op × Output)}

omit [Lowercase] in
lemma latest_snoc (hframe : StepFrame s op s' out) (h : s.currentGeneration = latest tr) :
    s'.currentGeneration = latest (tr ++ [(op, out)]) := by
  unfold latest
  rw [foldl_append]
  cases op with
  | submitQuery query now => simp [hframe.submitted rfl]
  | _ => exact (hframe.current_eq rfl).trans h

lemma fresh_step (h : Fresh tr s) (hstep : step s op = some (s', out)) :
    Fresh (tr ++ [(op, out)]) s' := by
  have hframe := step_frame hstep
  have hper : ∀ p, (sentTo p (tr ++ [(op, out)])).Nodup ∧
      (∀ g ∈ sentTo p (tr ++ [(op, out)]), g ≤ s'.currentGeneration) ∧
      ∀ state, s'.plugins.get? p = some state →
        state.Fresh s'.currentGeneration s'.isShutdown (sentTo p (tr ++ [(op, out)])) := by
    intro p
    have hle : ∀ g ∈ sentTo p tr, g ≤ s'.currentGeneration :=
      fun g hg => (h.sent_le p g hg).trans hframe.current_le
    rw [sentTo_snoc]
    cases step_plugin hstep p with
    | absent _ h' hout | removed _ h' hout =>
      rw [hout, append_nil]
      exact ⟨h.sent_nodup p, hle, by simp [h']⟩
    | registered policy _ h' hout =>
      rw [hout, append_nil]
      refine ⟨h.sent_nodup p, hle, ?_⟩
      intro state hs
      obtain rfl := some_inj.mp (h'.symm.trans hs)
      exact .new (normalizePolicy_normal policy) (h.sent_nodup p) hle
    | changed hs h' hp hout =>
      have hnext := hp.fresh hframe (h.plugin p _ hs)
      rw [hout]
      refine ⟨hnext.work_nodup.of_append_left, hnext.sent_le, ?_⟩
      intro state hs'
      obtain rfl := some_inj.mp (h'.symm.trans hs')
      exact hnext
  exact ⟨fun p => (hper p).1, fun p => (hper p).2.1, fun p => (hper p).2.2,
    latest_snoc hframe h.current⟩

lemma fresh_exec {config : SchedulerConfig} (h : Exec step (QueryScheduler.new config) tr s) :
    Fresh tr s :=
  Exec.invariant Fresh (fresh_new config) (fun _ _ _ _ _ _ hI hs => fresh_step hI hs) h

lemma run_of_few_submits (config : SchedulerConfig) (ops : List Op)
    (h : ops.countP Op.isSubmit < 2 ^ 64) :
    ∃ s tr, run step (QueryScheduler.new config) ops = some (s, tr) := by
  apply run_total fun rest s => s.generations.counter + rest.countP Op.isSubmit < 2 ^ 64
  · simpa [QueryScheduler.new, GenerationTracker.new] using h
  · intro op rest s hfew
    rw [countP_cons] at hfew
    obtain ⟨s', out, hs⟩ := step_total s op (by
      intro hsub
      rw [if_pos hsub] at hfew
      unfold u64Max
      omega)
    refine ⟨s', out, hs, ?_⟩
    rw [(step_frame hs).counter]
    omega

omit [Lowercase] in
lemma complete_accepted {g : Generation} {now : Nat} (h : (s.complete p g now).2 = .accepted) :
    ∃ state r, s.plugins.get? p = some state ∧ r ∈ state.inFlight ∧ r.generation = g ∧
      r.cancelReason = none ∧ g = s.currentGeneration := by
  unfold complete at h
  simp only at h
  split at h
  · simp at h
  rename_i r hfind
  obtain ⟨state, hstate, hr⟩ := bind_eq_some_iff.mp hfind
  split at h
  · simp at h
  rename_i hstale
  rw [Bool.or_eq_true, not_or] at hstale
  refine ⟨state, r, hstate, mem_of_find?_eq_some hr, ?_, ?_, ?_⟩
  · simpa using find?_some hr
  · simpa using hstale.1
  · have hcur := hstale.2
    simp only [decide_eq_true_eq, ne_eq, not_not] at hcur
    exact hcur

/-- Freshness of dispatch. Along every run with fewer than `2 ^ 64` submissions, a tick
hands out the latest generation only, uncancelled running work is of the latest
generation and pairwise distinct, no plugin gets a generation twice, and `complete`
accepts only live work of the latest generation. -/
theorem run_fresh (config : SchedulerConfig) (ops : List Op)
    (hfew : ops.countP Op.isSubmit < 2 ^ 64) :
    ∃ s tr, run step (QueryScheduler.new config) ops = some (s, tr) ∧ tr.map Prod.fst = ops ∧
      (∀ before now requests after, tr = before ++ (.tick now, .dispatched requests) :: after →
          ∀ r ∈ requests, r.generation = latest before) ∧
      (∀ p state, s.plugins.get? p = some state →
        (∀ r ∈ state.inFlight, r.cancelReason = none → r.generation = latest tr) ∧
          (state.inFlight.map (·.generation)).Nodup) ∧
      (∀ p, (sentTo p tr).Nodup) ∧
      ∀ before p g now after, tr = before ++ (.complete p g now, .completion .accepted) :: after →
          ∃ t state r, Exec step (QueryScheduler.new config) before t ∧
            t.plugins.get? p = some state ∧ r ∈ state.inFlight ∧ r.generation = g ∧
            r.cancelReason = none ∧ g = latest before := by
  obtain ⟨s, tr, hrun⟩ := run_of_few_submits config ops hfew
  obtain ⟨hexec, hops⟩ := exec_of_run hrun
  have hfresh := fresh_exec hexec
  refine ⟨s, tr, hrun, hops, ?_, ?_, hfresh.sent_nodup, ?_⟩
  · intro before now requests after htr r hr
    rw [htr] at hexec
    obtain ⟨t, t', hbefore, hstep, -⟩ := hexec.split_at
    have ht := fresh_exec hbefore
    have hmem : r.generation ∈ (Output.dispatched requests).sentTo r.plugin :=
      mem_map_of_mem (mem_filter.mpr ⟨hr, by simp⟩)
    rw [← ht.current]
    cases step_plugin hstep r.plugin with
    | absent _ _ hout => simp [hout] at hmem
    | registered _ hop => simp at hop
    | removed hop => simp at hop
    | changed hs _ hp hout =>
      rw [hout] at hmem
      obtain ⟨request, hreq, hgen⟩ := mem_map.mp hmem
      rw [← hgen]
      exact hp.sent_current (ht.plugin _ _ hs) request hreq
  · intro p state hp
    have hplugin := hfresh.plugin p state hp
    refine ⟨?_, hplugin.running_nodup⟩
    intro r hr hc
    rw [← hfresh.current]
    exact hplugin.live_current _ (state.mem_liveGens hr hc)
  · intro before p g now after htr
    rw [htr] at hexec
    obtain ⟨t, t', hbefore, hstep, -⟩ := hexec.split_at
    simp only [step, some.injEq, Prod.mk.injEq, Output.completion.injEq] at hstep
    obtain ⟨state, r, hs, hr, hgen, hc, hcur⟩ := complete_accepted hstep.2
    exact ⟨t, state, r, hbefore, hs, hr, hgen, hc, hcur.trans (fresh_exec hbefore).current⟩

end

def typing : List Op :=
  [.registerPlugin ⟨"apps"⟩ .modern, .submitQuery "a" 0, .tick 0, .submitQuery "ab" 10,
    .complete ⟨"apps"⟩ ⟨1⟩ 20, .tick 60]

attribute [local instance] Lowercase.ascii in
theorem run_fresh_typing : ∃ s tr, run step (QueryScheduler.new .default) typing = some (s, tr) ∧
      ∀ p, (sentTo p tr).Nodup := by
  obtain ⟨s, tr, hrun, -, -, -, hsent, -⟩ := run_fresh .default typing (by decide)
  exact ⟨s, tr, hrun, hsent⟩

end CriKey.Scheduler
