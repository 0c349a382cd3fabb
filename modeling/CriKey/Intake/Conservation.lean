import CriKey.Intake.Step

/-! Conservation of batches. Every admitted batch is merged, merge-rejected, dropped, evicted,
resident or gone with its queue, and every submission counts once. -/
namespace CriKey.Intake
open CriKey.Base CriKey.Core CriKey.Aggregator List Counter
open InboundResultQueue

/-- The reasons of a merge rejection, in the order of their counters. -/
def mergeReasons : List RejectReason :=
  [.staleGeneration, .quotaExceeded, .payloadTooLarge, .ownerMismatch, .streamTerminated,
    .pluginSuspended]

def mergeRejections (count : Counter → Nat) : Nat :=
  (mergeReasons.map fun reason => count (.mergeRejected reason)).sum

/-- The batches that left the intake through a counted door. -/
def counted (count : Counter → Nat) : Nat :=
  count .merged + mergeRejections count + count .droppedObsolete + count .evictedOldest

lemma counted_add (count count' : Counter → Nat) :
    counted (count + count') = counted count + counted count' := by
  simp only [counted, mergeRejections, mergeReasons, map_cons, map_nil, sum_cons,
    sum_nil, Pi.add_apply]
  omega

lemma counted_congr {count count' : Counter → Nat}
    (h : ∀ c, c.isNoise = false → count c = count' c) : counted count = counted count' := by
  unfold counted mergeRejections
  rw [h .merged rfl, h .droppedObsolete rfl, h .evictedOldest rfl,
    map_congr_left fun reason _ => h (.mergeRejected reason) rfl]

lemma counted_dropped (n : Nat) : counted (once .droppedObsolete n) = n := by
  simp [counted, mergeRejections, once]

lemma counted_evicted (n : Nat) : counted (once .evictedOldest n) = n := by
  simp [counted, mergeRejections, once]

lemma counted_verdict (result : Except QueueReject ProducerState) :
    counted (once (verdict result) 1) = 0 := by
  cases result <;> simp [counted, mergeRejections, once, verdict]

lemma counted_call (c : Call) : counted (once c.counter 1) = 1 := by
  unfold Call.counter
  cases c.result with
  | ok u => simp [counted, mergeRejections, once]
  | error reason => cases reason <;> simp [counted, mergeRejections, mergeReasons, once]

lemma counted_tally (calls : List Call) : counted (tally calls) = calls.length := by
  induction calls with
  | nil => rfl
  | cons c calls ih =>
    have hcons : tally (c :: calls) = once c.counter 1 + tally calls := by
      rw [← tally_singleton, ← tally_append, singleton_append]
    rw [hcons, counted_add, counted_call, ih, length_cons, Nat.add_comm]

lemma tally_admitted (calls : List Call) : tally calls .admitted = 0 := by
  unfold tally
  rw [count_eq_zero]
  intro hmem
  obtain ⟨c, -, hc⟩ := mem_map.mp hmem
  unfold Call.counter at hc
  cases hr : c.result <;> simp [hr] at hc

variable {α : Type}

/-- The batches that went away with an unregistered queue. -/
def Output.discarded : Output α → Nat
  | .unregistered _ entries => entries.length
  | _ => 0

def discarded (tr : List (Op α × Output α)) : Nat := (tr.map fun io => io.2.discarded).sum

variable [ResultAggregator α]

/-- Unless a counter saturated, the batch counters grew by `δ`. -/
def Grew (s s' : InboundResultQueue) (δ : Counter → Nat) : Prop :=
  s'.diagnostics.countersSaturated = false → s.diagnostics.countersSaturated = false ∧
      ∀ c, c.isNoise = false → s'.diagnostics.counters c = s.diagnostics.counters c + δ c

variable {s s' : InboundResultQueue}

lemma Grew.of_eq (h : s'.diagnostics = s.diagnostics) : Grew s s' 0 :=
  fun hs => ⟨h ▸ hs, fun c _ => by rw [h]; rfl⟩

lemma step_flow {op : Op α} {o : Output α} (h : s.Sound) (hstep : step s op = some (s', o)) :
    ∃ δ, Grew s s' δ ∧
      δ .admitted + s.totalBatches = counted δ + s'.totalBatches + o.discarded := by
  cases step_answered h hstep with
  | registered a policy =>
    have hsame : (s.register a policy).totalBatches = s.totalBatches := by
      cases hp : s.plugins.get? a with
      | some q => rw [register_of_some hp]; rfl
      | none => rw [register_of_none hp]
    exact ⟨0, (register_moves s a policy).counts, congrArg (0 + ·) hsame.symm⟩
  | unregistered a =>
    refine ⟨0, (unregister_moves s a).counts, ?_⟩
    cases hp : s.plugins.get? a with
    | some q =>
      have hle := h.entries_le hp
      rw [unregister_of_some hp]
      show 0 + s.totalBatches = 0 + (s.totalBatches - q.entries.length) + q.entries.length
      omega
    | none =>
      rw [unregister_of_none hp]
      rfl
  | begun turn | retired turn => exact ⟨0, .of_eq rfl, rfl⟩
  | submitted submission =>
    obtain ⟨n, k, hmoves, hbatches⟩ := submission.books
    refine ⟨_, hmoves.counts, ?_⟩
    rw [counted_add, counted_add, counted_dropped, counted_evicted, counted_verdict]
    simp only [Pi.add_apply, Output.discarded]
    have hdropped : once .droppedObsolete n .admitted = 0 := rfl
    have hevicted : once .evictedOldest k .admitted = 0 := rfl
    omega
  | @drained _ _ _ _ d n drains =>
    have hbatches := drains.totalBatches
    refine ⟨_, drains.moves.counts, ?_⟩
    rw [counted_add, counted_dropped, counted_tally, Pi.add_apply, tally_admitted]
    simp only [Output.discarded]
    have hdropped : once .droppedObsolete n .admitted = 0 := rfl
    omega

/-- The books of a run: unless a counter saturated, what was admitted is accounted for. -/
def Conserved (tr : List (Op α × Output α)) (t : InboundResultQueue) : Prop :=
  t.diagnostics.countersSaturated = false → t.diagnostics.counters .admitted =
      counted t.diagnostics.counters + t.totalBatches + discarded tr

variable {tr : List (Op α × Output α)}

lemma conserved_step {t t' : InboundResultQueue} {op : Op α}
    {o : Output α} (hsound : t.Sound) (h : Conserved tr t) (hstep : step t op = some (t', o)) :
    Conserved (tr ++ [(op, o)]) t' := by
  intro hs
  obtain ⟨δ, hgrew, hflow⟩ := step_flow hsound hstep
  obtain ⟨hs₀, hcounters⟩ := hgrew hs
  have hbefore := h hs₀
  have hadmitted := hcounters .admitted rfl
  have hout : counted t'.diagnostics.counters = counted t.diagnostics.counters + counted δ := by
    rw [← counted_add]
    exact counted_congr hcounters
  have hdiscarded : discarded (tr ++ [(op, o)]) = discarded tr + o.discarded := by
    simp [discarded]
  omega

lemma conserved_exec {limits : QueueLimits} {t : InboundResultQueue}
    (h : Exec step (.new limits) tr t) : Conserved tr t := by
  refine Exec.invariant Conserved (fun _ => rfl) ?_ h
  intro tr t op t' o hexec ih hstep
  exact conserved_step (exec_sound hexec).1 ih hstep

def Counter.isVerdict : Counter → Bool
  | .admitted | .rejected _ => true
  | _ => false

lemma submission_counts_once {atMs : Nat} {inbound : InboundBatch}
    {result : Except QueueReject ProducerState} (h : s.Submission atMs inbound s' result)
    (hs : s'.diagnostics.countersSaturated = false) {c : Counter} (hc : c.isVerdict = true) :
    s'.diagnostics.counters c = s.diagnostics.counters c + if c = verdict result then 1 else 0 := by
  obtain ⟨n, k, hmoves, -⟩ := h.books
  have hnoise : c.isNoise = false := by
    cases c <;> simp [isVerdict, isNoise] at hc ⊢
  have hdropped : once .droppedObsolete n c = 0 := by
    cases c <;> simp [isVerdict, once] at hc ⊢
  have hevicted : once .evictedOldest k c = 0 := by
    cases c <;> simp [isVerdict, once] at hc ⊢
  rw [(hmoves.counts hs).2 c hnoise]
  rw [Pi.add_apply, Pi.add_apply, hdropped, hevicted, Nat.zero_add, once]

/-- After every sequence of calls without saturation the admitted batches are those merged,
merge-rejected, dropped as obsolete, evicted, resident and discarded with their queue; and
each further submission moves exactly one of the admission and rejection counters, by one. -/
theorem batches_conserved (limits : QueueLimits) (ops : List (Op α)) :
    ∃ t tr, run step (.new limits) ops = some (t, tr) ∧ (t.diagnostics.countersSaturated = false →
        t.diagnostics.counters .admitted = t.diagnostics.counters .merged +
          (mergeReasons.map fun reason => t.diagnostics.counters (.mergeRejected reason)).sum +
          t.diagnostics.counters .droppedObsolete + t.diagnostics.counters .evictedOldest +
          t.plugins.sum (·.entries.length) + discarded tr) ∧
      ∀ atMs inbound, ∃ t' result,
        step t (.submit atMs inbound : Op α) = some (t', .submitted result) ∧
        (t'.diagnostics.countersSaturated = false →
          (verdict result).isVerdict = true ∧ ∀ c : Counter, c.isVerdict = true →
            t'.diagnostics.counters c =
              t.diagnostics.counters c + if c = verdict result then 1 else 0) := by
  obtain ⟨t, tr, hrun⟩ := run_returns limits ops
  have hexec := (exec_of_run hrun).1
  have hsound := (exec_sound hexec).1
  refine ⟨t, tr, hrun, ?_, ?_⟩
  · intro hs
    have hbooks := conserved_exec hexec hs
    rw [hsound.batches] at hbooks
    exact hbooks
  · intro atMs inbound
    obtain ⟨t', result, hsub, -, hspec⟩ := submit_spec hsound atMs inbound
    refine ⟨t', result, by simp [step, hsub], ?_⟩
    intro hs
    exact ⟨by cases result <;> rfl, fun c hc => submission_counts_once hspec hs hc⟩

end CriKey.Intake
