import CriKey.Scheduler.Step

/-! The generations a plugin works on: queued, running, and running without having been
cancelled. Each local change of a plugin is described by what it does to these lists
and to the list of reported cancellations. -/
namespace CriKey.Scheduler
open CriKey.Base CriKey.Core List QueryScheduler

namespace PluginState
variable (state : PluginState)

def queuedGens : List Generation := state.queue.map (·.generation)

def runningGens : List Generation := state.inFlight.map (·.generation)

/-- The running requests no one has cancelled. -/
def liveGens : List Generation :=
  (state.inFlight.filter (·.cancelReason.isNone)).map (·.generation)

lemma supersededGenerations_eq (gated : Bool) : state.supersededGenerations gated =
      state.liveGens ++ if gated then state.queuedGens else [] := rfl

lemma mem_liveGens {r : InFlightRequest} (hr : r ∈ state.inFlight)
    (hc : r.cancelReason = none) : r.generation ∈ state.liveGens :=
  mem_map_of_mem (mem_filter.mpr ⟨hr, by simp [hc]⟩)

/-! Cancelling. -/

section
variable (reason : CancelReason)

lemma cancel_generation (r : InFlightRequest) : (r.cancel reason).generation = r.generation := by
  unfold InFlightRequest.cancel
  split <;> rfl

lemma cancel_isNone (r : InFlightRequest) : (r.cancel reason).cancelReason.isNone = false := by
  unfold InFlightRequest.cancel
  split
  · rfl
  · rename_i h
    exact Bool.eq_false_iff.mpr h

lemma filter_cancel (rs : List InFlightRequest) :
    (rs.map (·.cancel reason)).filter (·.cancelReason.isNone) = [] := by
  rw [filter_eq_nil_iff]
  intro r hr
  obtain ⟨r', -, rfl⟩ := mem_map.mp hr
  simp [cancel_isNone]

@[simp] lemma invalidated_runningGens :
    (state.invalidated reason).runningGens = state.runningGens := by
  simp [runningGens, cancel_generation]

@[simp] lemma invalidated_liveGens : (state.invalidated reason).liveGens = [] := by
  simp only [liveGens, invalidated_inFlight, filter_cancel, map_nil]

@[simp] lemma invalidated_reported : (state.invalidated reason).history.reported =
      state.history.reported ++ (state.liveGens ++ state.queuedGens) := by
  rw [invalidated, noteAll_eq]
  rfl

end

@[simp] lemma superseding_gens : state.superseding.queuedGens = state.queuedGens ∧
    state.superseding.runningGens = state.runningGens ∧ state.superseding.liveGens = [] := by
  simp [queuedGens, runningGens, liveGens, cancel_generation, filter_cancel]

@[simp] lemma superseding_reported :
    state.superseding.history.reported = state.history.reported ++ state.liveGens := by
  rw [superseding, noteAll_eq]
  simp [supersededGenerations_eq, cancelInFlight]

/-! Preparing and admitting. -/

section
variable (g : Generation) (now : Nat)

@[simp] lemma prepare_gens : (state.prepare g now).1.queuedGens = state.queuedGens ∧
    (state.prepare g now).1.runningGens = state.runningGens ∧
    (state.prepare g now).1.liveGens = state.liveGens := by
  simp [queuedGens, runningGens, liveGens]

end

@[simp] lemma noteRejected_frame : state.noteRejected.queuedGens = state.queuedGens ∧
    state.noteRejected.runningGens = state.runningGens ∧
    state.noteRejected.liveGens = state.liveGens ∧ state.noteRejected.policy = state.policy ∧
    state.noteRejected.burstStarted = state.burstStarted ∧
    state.noteRejected.history = state.history :=
  ⟨rfl, rfl, rfl, rfl, rfl, rfl⟩

@[simp] lemma admitted_gens (request : PendingRequest) :
    (state.admitted request).runningGens = state.runningGens ∧
      (state.admitted request).liveGens = state.liveGens := by
  simp [runningGens, liveGens]

lemma enqueue_queue (request : PendingRequest)
    (h : effectiveQueuePolicy state.policy = .replaceOldest ∨ state.queue = []) :
    (state.enqueue request).queue = [request] := by
  unfold enqueue
  rcases h with h | h
  · simp [h]
  · cases effectiveQueuePolicy state.policy <;> simp [h]

/-! Reclaiming. -/

section
variable (current : Generation) (incl : Bool)

lemma reclaimed_cases : state.reclaimed current incl = state ∨
      state.reclaimed current incl = state.dropObsolete current := by
  unfold reclaimed
  split
  · exact .inl rfl
  · exact .inr rfl

@[simp] lemma reclaimed_frame : (state.reclaimed current incl).policy = state.policy ∧
    (state.reclaimed current incl).enabled = state.enabled ∧
    (state.reclaimed current incl).relevant = state.relevant ∧
    (state.reclaimed current incl).burstStarted = state.burstStarted ∧
    (state.reclaimed current incl).inFlight = state.inFlight ∧
    (state.reclaimed current incl).history = state.history ∧
    (state.reclaimed current incl).diagnostics.lastDispatchedAt =
      state.diagnostics.lastDispatchedAt := by
  rcases state.reclaimed_cases current incl with h | h <;> rw [h]
  · simp
  · exact ⟨rfl, rfl, rfl, rfl, rfl, rfl, rfl⟩

lemma reclaimed_queue_of_incl
    (h : incl = true ∨ effectiveQueuePolicy state.policy ≠ .replaceOldest) :
    (state.reclaimed current incl).queue = state.queue.filter (·.generation = current) := by
  unfold reclaimed
  split
  · rename_i hskip
    have hnone : state.obsoleteGenerations current = [] := by
      rcases h with h | h <;> simpa [h] using hskip
    rw [eq_comm, filter_eq_self]
    intro r hr
    by_contra hne
    have hmem : r.generation ∈ state.obsoleteGenerations current :=
      mem_map_of_mem (mem_filter.mpr ⟨hr, by simpa using hne⟩)
    rw [hnone] at hmem
    simp at hmem
  · rfl

lemma reclaimed_queue_of_replace (h : effectiveQueuePolicy state.policy = .replaceOldest) :
    (state.reclaimed current false).queue = state.queue := by
  simp [reclaimed, h]

lemma reclaimed_queue_sublist : (state.reclaimed current incl).queue.Sublist state.queue := by
  rcases state.reclaimed_cases current incl with h | h <;> rw [h]
  exact filter_sublist

@[simp] lemma reclaimed_gens : (state.reclaimed current incl).runningGens = state.runningGens ∧
      (state.reclaimed current incl).liveGens = state.liveGens := by
  simp [runningGens, liveGens]

end

/-! Ticking. -/

section
variable (current : Generation) (now : Nat)

lemma markDue_generation (r : PendingRequest) : (markDue now r).generation = r.generation := by
  unfold markDue
  split <;> rfl

lemma settled_eq : ∃ peak, state.settled current now =
      { (state.reclaimed current true).applyDeadlines now with
        diagnostics :=
          { (state.reclaimed current true).diagnostics with peakQueueDepth := peak } } := by
  unfold settled
  simp only
  split <;> exact ⟨_, rfl⟩

lemma settled_queue : (state.settled current now).queue =
      (state.queue.filter (·.generation = current)).map (markDue now) := by
  obtain ⟨peak, h⟩ := state.settled_eq current now
  rw [h, ← state.reclaimed_queue_of_incl current true (.inl rfl)]
  rfl

@[simp] lemma settled_frame : (state.settled current now).policy = state.policy ∧
    (state.settled current now).enabled = state.enabled ∧
    (state.settled current now).relevant = state.relevant ∧
    (state.settled current now).inFlight = state.inFlight ∧
    (state.settled current now).history = state.history := by
  obtain ⟨peak, h⟩ := state.settled_eq current now
  rw [h]
  simp [applyDeadlines]

lemma settled_queuedGens :
    (state.settled current now).queuedGens = state.queuedGens.filter (· = current) := by
  simp only [queuedGens, settled_queue, map_map, filter_map]
  congr 1
  funext r
  exact markDue_generation now r

@[simp] lemma settled_gens : (state.settled current now).runningGens = state.runningGens ∧
    (state.settled current now).liveGens = state.liveGens := by
  simp [runningGens, liveGens]

@[simp] lemma notePeak_frame : state.notePeak.queue = state.queue ∧
    state.notePeak.policy = state.policy ∧ state.notePeak.relevant = state.relevant ∧
    state.notePeak.burstStarted = state.burstStarted ∧
    state.notePeak.inFlight = state.inFlight ∧ state.notePeak.history = state.history :=
  ⟨rfl, rfl, rfl, rfl, rfl, rfl⟩

lemma dispatch_queuedGens {request : PendingRequest} (h : state.dispatchable = some request) :
    state.queuedGens = request.generation :: (state.dispatch request now).queuedGens := by
  obtain ⟨-, -, hq⟩ := dispatchable_eq_some h
  unfold queuedGens
  rw [hq]
  rfl

lemma dispatch_runningGens (request : PendingRequest) :
    (state.dispatch request now).runningGens = state.runningGens ++ [request.generation] := by
  simp [runningGens, dispatch]

lemma dispatch_liveGens (request : PendingRequest) :
    (state.dispatch request now).liveGens = state.liveGens ++ [request.generation] := by
  simp [liveGens, dispatch]

end

/-! Completions and results. -/

lemma completed_runningGens_sublist (g : Generation) :
    (state.completed g).runningGens.Sublist state.runningGens :=
  eraseP_sublist.map _

lemma completed_liveGens_sublist (g : Generation) :
    (state.completed g).liveGens.Sublist state.liveGens :=
  (eraseP_sublist.filter _).map _

lemma modifyFirst_map {β : Type} (view : InFlightRequest → β) (p : InFlightRequest → Bool)
    (f : InFlightRequest → InFlightRequest) (hf : ∀ r, view (f r) = view r)
    (rs : List InFlightRequest) : (QueryScheduler.modifyFirst p f rs).map view = rs.map view := by
  induction rs with
  | nil => rfl
  | cons r rs ih =>
    unfold modifyFirst
    split
    · simp [hf]
    · simp [ih]

@[simp] lemma noted_runningGens (g : Generation) (completion : BatchCompletion) :
    (state.noted g completion).runningGens = state.runningGens :=
  modifyFirst_map (·.generation) _ (noteResult completion) (fun _ => rfl) state.inFlight

@[simp] lemma noted_liveGens (g : Generation) (completion : BatchCompletion) :
    (state.noted g completion).liveGens = state.liveGens := by
  have h := modifyFirst_map (fun r => (r.generation, r.cancelReason)) (·.generation = g)
    (noteResult completion) (fun _ => rfl) state.inFlight
  have hview : ∀ rs : List InFlightRequest, (rs.filter (·.cancelReason.isNone)).map (·.generation) =
        ((rs.map fun r => (r.generation, r.cancelReason)).filter (·.2.isNone)).map (·.1) := by
    simp [filter_map, Function.comp_def]
  unfold liveGens
  rw [hview, hview]
  exact congrArg (fun l => (l.filter (·.2.isNone)).map (·.1)) h

/-! The outcome of a keystroke. -/

variable (full : Bool) (g : Generation) (query normalized : String) (now : Nat)

lemma outcome_gated_iff : state.outcome full g query normalized now = .gated ↔
      (gateReason state normalized).isSome := by
  unfold outcome
  cases gateReason state normalized with
  | some _ => simp
  | none =>
    simp only
    split
    · simp
    · split
      · simp
      · split <;> simp

lemma pendingRequest_generation (prepared : PreparedRequest) :
    (pendingRequest g query prepared).generation = g := by
  cases prepared <;> rfl

variable {full g query normalized now} in
lemma outcome_idle (h : state.outcome full g query normalized now = .idle) :
    (state.superseding.prepare g now).2 = none := by
  unfold outcome at h
  cases hgate : gateReason state normalized with
  | some _ => simp [hgate] at h
  | none =>
    simp only [hgate] at h
    cases hprep : state.superseding.prepare g now with
    | mk next prepared =>
      cases prepared with
      | none => rfl
      | some prepared =>
        simp only [hprep] at h
        split at h
        · simp at h
        · split at h <;> simp at h

variable {full g query normalized now} in
lemma outcome_queued {request : PendingRequest}
    (h : state.outcome full g query normalized now = .queued request) :
    ∃ prepared, (state.superseding.prepare g now).2 = some prepared ∧
      request = pendingRequest g query prepared ∧
      (full = true → (state.superseding.prepare g now).1.canReuseSlot = true) ∧
      (state.superseding.prepare g now).1.pluginQueueFull = false := by
  unfold outcome at h
  cases hgate : gateReason state normalized with
  | some _ => simp [hgate] at h
  | none =>
    simp only [hgate] at h
    cases hprep : state.superseding.prepare g now with
    | mk next prepared =>
      cases prepared with
      | none => simp [hprep] at h
      | some prepared =>
        simp only [hprep] at h
        split at h
        · simp at h
        rename_i hfull
        split at h
        · simp at h
        rename_i hroom
        obtain rfl := Outcome.queued.inj h
        refine ⟨prepared, rfl, rfl, ?_, by simpa using hroom⟩
        intro hf
        simpa [hf] using hfull

lemma processed_cases :
    (state.processed full g query normalized now = state.invalidated .noLongerRelevant) ∨
      (state.processed full g query normalized now = (state.superseding.prepare g now).1) ∨
      (state.processed full g query normalized now =
        (state.superseding.prepare g now).1.noteRejected) ∨
      ∃ request, request.generation = g ∧ state.processed full g query normalized now =
          (state.superseding.prepare g now).1.admitted request := by
  unfold processed
  cases hout : state.outcome full g query normalized now with
  | gated => exact .inl rfl
  | idle => exact .inr (.inl rfl)
  | refusedGlobal | refusedPlugin => exact .inr (.inr (.inl rfl))
  | queued request =>
    obtain ⟨prepared, -, rfl, -, -⟩ := outcome_queued state hout
    exact .inr (.inr (.inr ⟨_, pendingRequest_generation g query prepared, rfl⟩))

@[simp] lemma processed_policy :
    (state.processed full g query normalized now).policy = state.policy := by
  rcases state.processed_cases full g query normalized now with
    h | h | h | ⟨request, -, h⟩ <;> simp [h]

end PluginState
end CriKey.Scheduler
