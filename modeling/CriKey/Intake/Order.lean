import CriKey.Intake.Step

/-! The order of a queue. Generations never decrease from front to back and never pass the
active one, so what is obsolete is a front that reclamation can take off, and batches reach
the aggregator in the order they were admitted. -/
namespace CriKey.Intake
open CriKey.Base CriKey.Core CriKey.Aggregator List Option PluginQueue Table

open InboundResultQueue

/-- A queue in the order of its generations, none past the active one. -/
structure PluginQueue.InOrder (s : InboundResultQueue) (q : PluginQueue) : Prop where
  sorted : (q.entries.map Entry.generation).Pairwise (· ≤ ·)
  below : ∀ e ∈ q.entries, s.epoch.Below e.generation

namespace PluginQueue.InOrder
variable {s s' : InboundResultQueue} {q q' : PluginQueue}

variable (h : q.InOrder s)
include h

lemma turn (hturn : s.epoch.Turn s'.epoch) : q.InOrder s' :=
  ⟨h.sorted, fun e he => hturn.below (h.below e he)⟩

lemma of_entries (he : q'.entries = q.entries) : q'.InOrder s :=
  ⟨by rw [he]; exact h.sorted, by rw [he]; exact h.below⟩

lemma queueStep {es : List Entry} {calls : List Call}
    (hstep : QueueStep s.active q es calls q') : q'.InOrder s := by
  obtain ⟨kept, hkept, hentries⟩ := hstep.entries
  have hsuffix : kept <:+ q.entries := (suffix_append _ _).trans hkept
  have hbelow : ∀ e ∈ kept, s.epoch.Below e.generation := fun e he => h.below e (hsuffix.subset he)
  have hsorted : (kept.map Entry.generation).Pairwise (· ≤ ·) :=
    h.sorted.sublist (hsuffix.sublist.map _)
  -- what was admitted is of the active generation, which nothing resident passes
  have hnew : ∀ e ∈ es, s.active = some e.generation := by
    cases hstep with
    | same | reclaimed | drained => simp
    | admitted current connected unfinished start batches items =>
      simpa [Entry.generation] using current
  have hshort : (es.map Entry.generation).Pairwise (· ≤ ·) := by
    cases hstep with
    | same | reclaimed | drained | admitted => simp
  refine ⟨?_, ?_⟩
  · rw [hentries, map_append, pairwise_append]
    refine ⟨hsorted, hshort, ?_⟩
    intro a ha b hb
    obtain ⟨e, he, rfl⟩ := mem_map.mp ha
    obtain ⟨e', he', rfl⟩ := mem_map.mp hb
    exact (Epoch.below_of_some (hnew e' he')).mp (hbelow e he)
  · intro e he
    rw [hentries, mem_append] at he
    cases he with
    | inl hold => exact hbelow e hold
    | inr hin => exact (Epoch.below_of_some (hnew e hin)).mpr le_rfl

lemma live_of_dropWhile {e : Entry}
    (he : e ∈ q.entries.dropWhile (obsolete s.active)) : s.active = some e.generation := by
  obtain ⟨hsorted, hbelow⟩ := h
  have hsub := dropWhile_suffix (l := q.entries) (obsolete s.active)
  cases hdrop : q.entries.dropWhile (obsolete s.active) with
  | nil => simp [hdrop] at he
  | cons first rest =>
    have hfirst : s.active = some first.generation := by
      have hhead := head_dropWhile_not (obsolete s.active)
        (l := q.entries) (by rw [hdrop]; exact cons_ne_nil _ _)
      simpa [hdrop, obsolete] using hhead
    rw [hdrop] at he hsub
    have hpair := hsorted.sublist (hsub.sublist.map Entry.generation)
    rw [map_cons, pairwise_cons] at hpair
    cases mem_cons.mp he with
    | inl heq => rw [heq]; exact hfirst
    | inr hin =>
      have hge := hpair.1 e.generation (mem_map_of_mem hin)
      have hle := (Epoch.below_of_some hfirst).mp (hbelow e (hsub.subset he))
      rw [hfirst, le_antisymm hge hle]

end PluginQueue.InOrder

variable {α : Type} [ResultAggregator α]

/-! Runs. -/

def InOrder (s : InboundResultQueue) : Prop :=
  ∀ p q, s.plugins.get? p = some q → q.InOrder s

variable {s s' : InboundResultQueue}

lemma inOrder_step {op : Op α} {o : Output α} (hsound : s.Sound) (h : InOrder s)
    (hstep : step s op = some (s', o)) : InOrder s' := by
  intro p q' hq'
  have hturn := (step_turn hsound hstep).2
  have hchange := step_change hsound hstep p
  rw [hq'] at hchange
  generalize hbefore : s.plugins.get? p = before at hchange
  cases hchange with
  | registered call answer => exact ⟨.nil, fun e he => absurd he not_mem_nil⟩
  | @reregistered policy q call answer =>
    exact ((h p q hbefore).of_entries (reregister_entries _ _)).turn hturn
  | @changed q _ other change => exact ((h p q hbefore).queueStep change).turn hturn

variable {tr : List (Op α × Output α)} {t : InboundResultQueue}

lemma inOrder_exec {limits : QueueLimits} (h : Exec step (.new limits) tr t) : InOrder t := by
  refine Exec.invariant (fun _ t => InOrder t) ?_ ?_ h
  · intro p q hq
    simp [InboundResultQueue.new] at hq
  · intro tr t op t' o hexec ih hstep
    exact inOrder_step (exec_sound hexec).1 ih hstep

lemma below_exec {u : InboundResultQueue} {g : Generation} (hsound : t.Sound)
    (hg : t.epoch.Below g) (h : Exec step t tr u) : u.Sound ∧ u.epoch.Below g := by
  refine Exec.invariant (fun _ u => u.Sound ∧ u.epoch.Below g) ⟨hsound, hg⟩ ?_ h
  intro tr u op u' o _ ih hstep
  exact ⟨step_sound ih.1 hstep, (step_turn ih.1 hstep).2.below ih.2⟩

/-! Admission order. -/

/-- The batches of the plugin admitted along a trace. -/
def admissions (p : PluginId) (tr : List (Op α × Output α)) : List Entry :=
  tr.flatMap fun io => admittedTo p io.1 io.2

/-- The batches of the plugin handed to the aggregator along a trace. -/
def deliveries (p : PluginId) (tr : List (Op α × Output α)) : List Entry :=
  tr.flatMap fun io => (handedFrom p io.2).map Call.entry

def resident (p : PluginId) (s : InboundResultQueue) : List Entry :=
  (s.plugins.get? p).elim [] (·.entries)

/-- What was handed over and then what waits is in the order of admission. -/
def InSequence (p : PluginId) (tr : List (Op α × Output α)) (t : InboundResultQueue) : Prop :=
  (deliveries p tr ++ resident p t).Sublist (admissions p tr)

lemma inSequence_step {p : PluginId} {t' : InboundResultQueue} {op : Op α} {o : Output α}
    (hsound : t.Sound) (h : InSequence p tr t) (hstep : step t op = some (t', o)) :
    InSequence p (tr ++ [(op, o)]) t' := by
  have hadm : admissions p (tr ++ [(op, o)]) = admissions p tr ++ admittedTo p op o := by
    simp [admissions]
  have hdel : deliveries p (tr ++ [(op, o)]) =
      deliveries p tr ++ (handedFrom p o).map Call.entry := by
    simp [deliveries]
  have hchange := step_change hsound hstep p
  unfold InSequence resident at *
  rw [hadm, hdel]
  generalize t.plugins.get? p = before at h hchange
  generalize t'.plugins.get? p = after at hchange ⊢
  cases hchange with
  | absent admitted handed => simpa [admitted, handed] using h
  | registered call answer | reregistered call answer =>
    simpa [answer, admittedTo, handedFrom] using h
  | removed call answer =>
    have hdropped := (sublist_append_left _ _).trans h
    simpa [answer, admittedTo, handedFrom] using hdropped
  | @changed q q' other change =>
    obtain ⟨kept, hkept, hentries⟩ := change.entries
    have hmoved : (deliveries p tr ++ ((handedFrom p o).map Call.entry ++ kept)).Sublist
        (admissions p tr) := (hkept.sublist.append_left _).trans h
    simp only [elim_some, hentries]
    rw [append_assoc, ← append_assoc _ kept, ← append_assoc]
    exact hmoved.append_right _

lemma inSequence_exec (p : PluginId) {limits : QueueLimits} (h : Exec step (.new limits) tr t) :
    InSequence p tr t := by
  refine Exec.invariant (InSequence p) ?_ ?_ h
  · exact .slnil
  · intro tr t op t' o hexec ih hstep
    exact inSequence_step (exec_sound hexec).1 ih hstep

/-! Reclamation. -/

/-- Only work of the active generation is resident. -/
def AllLive (s : InboundResultQueue) : Prop :=
  ∀ p q, s.plugins.get? p = some q → ∀ e ∈ q.entries, s.active = some e.generation

lemma AllLive.depth_obsolete (h : AllLive s) : s.depth.obsolete = 0 := by
  apply sum_eq_zero
  intro n hn
  obtain ⟨q, hq, rfl⟩ := mem_map.mp hn
  obtain ⟨p, hp⟩ := (mem_values_iff _ q).mp hq
  rw [obsoleteBatches, countP_eq_zero]
  intro e he
  simp [obsolete, h p q hp e he]

lemma allLive_of_swept {n : Nat} (h : InOrder s) (hs : s.Swept s' n) : AllLive s' := by
  intro p q hq e he
  rw [hs.plugins, get?_mapValues, map_eq_some_iff] at hq
  obtain ⟨q₀, hq₀, rfl⟩ := hq
  rw [hs.moves.active]
  exact (h p q₀ hq₀).live_of_dropWhile he

/-- Refusals for want of room, and the shedding at the watermark. -/
def QueueReject.isOverflow (state : Option ProducerState) : QueueReject → Bool
  | .lowPriorityShed | .queueFull | .boundaryFull => true
  | .disconnected => state ≠ some .disconnected
  | _ => false

lemma allLive_of_overflow {atMs : Nat} {inbound : InboundBatch} {reason : QueueReject}
    (h : InOrder s) (hs : s.Submission atMs inbound s' (.error reason))
    (hreason : reason.isOverflow (s.producerState inbound.batch.plugin) = true) : AllLive s' := by
  generalize hresult : (Except.error reason : Except QueueReject ProducerState) = result at hs
  cases hs with
  | turned why plugins totalBatches moves =>
    cases hresult
    cases why with
    | disconnected registered gone =>
      simp [QueueReject.isOverflow, producerState, registered, gone] at hreason
    | unregistered | staleGeneration | streamTerminated =>
      simp [QueueReject.isOverflow] at hreason
  | entered eligible room plugins totalBatches moves => cases hresult
  | @decided q s₁ n _ eligible swept decision =>
    have hlive := allLive_of_swept h swept
    cases decision with
    | admitted k_le evicted room plugins totalBatches moves => cases hresult
    | refused label plugins totalBatches moves =>
      intro p q' hq' e he
      rw [moves.active]
      rw [plugins, get?_modify] at hq'
      by_cases hp : p = inbound.batch.plugin
      · rw [if_pos hp, map_eq_some_iff] at hq'
        obtain ⟨q₀, hq₀, rfl⟩ := hq'
        exact hlive p q₀ hq₀ e he
      · rw [if_neg hp] at hq'
        exact hlive p q' hq' e he

lemma drains_live {aggregator : α} {d : Drained α} {n : Nat} (h : InOrder s)
    (hd : s.Drains aggregator s' d n) {c : Call} (hc : c ∈ d.calls) :
    s.active = some c.entry.generation := by
  have hfront := hd.fronts c.entry.plugin
  have hmem : c.entry ∈ (callsOf c.entry.plugin d.calls).map Call.entry :=
    mem_map_of_mem (mem_filter.mpr ⟨hc, by simp⟩)
  cases hp : s.plugins.get? c.entry.plugin with
  | none =>
    rw [hp, elim_none, prefix_nil] at hfront
    rw [hfront] at hmem
    exact absurd hmem not_mem_nil
  | some q =>
    rw [hp] at hfront
    exact (h _ q hp).live_of_dropWhile (hfront.subset hmem)

/-- After every sequence of calls each queue is sorted by generation and below every active
generation to come, so its obsolete batches are a front. A reclamation therefore leaves none, a
drain hands over live batches only, over the whole run in the order of admission, and a
submission is refused for want of room or shed only once nothing obsolete is resident. -/
theorem queues_in_generation_order (limits : QueueLimits) (ops : List (Op α)) :
    ∃ t tr, run step (.new limits) ops = some (t, tr) ∧ (∀ p q, t.plugins.get? p = some q →
        (q.entries.map Entry.generation).Pairwise (· ≤ ·) ∧
        (∀ e ∈ q.entries, ∀ (tr' : List (Op α × Output α)) u g, Exec step t tr' u →
          u.active = some g → e.generation ≤ g) ∧
        ∃ stale live, q.entries = stale ++ live ∧ (∀ e ∈ stale, t.active ≠ some e.generation) ∧
          ∀ e ∈ live, t.active = some e.generation) ∧
      (∀ atMs, ∃ t₁ n, t.reclaimObsolete atMs = some (t₁, n) ∧ t₁.depth.obsolete = 0 ∧
        ∀ p q₁, t₁.plugins.get? p = some q₁ → ∃ q, t.plugins.get? p = some q ∧
          q₁.entries <:+ q.entries) ∧
      (∀ atMs (aggregator : α) budget, ∃ t' d,
        step t (.drainInto atMs aggregator budget) = some (t', .drained d) ∧
          ∀ c ∈ d.calls, t.active = some c.entry.generation) ∧
      (∀ p, (deliveries p tr ++ resident p t).Sublist (admissions p tr)) ∧
      ∀ atMs inbound t' reason,
        step t (.submit atMs inbound : Op α) = some (t', .submitted (.error reason)) →
        reason.isOverflow (t.producerState inbound.batch.plugin) = true →
        t'.depth.obsolete = 0 := by
  obtain ⟨t, tr, hrun⟩ := run_returns limits ops
  have hexec := (exec_of_run hrun).1
  have hsound := (exec_sound hexec).1
  have horder := inOrder_exec hexec
  refine ⟨t, tr, hrun, ?_, ?_, ?_, fun p => inSequence_exec p hexec, ?_⟩
  · intro p q hq
    refine ⟨(horder p q hq).sorted, ?_, q.entries.takeWhile (obsolete t.active),
      q.entries.dropWhile (obsolete t.active), takeWhile_append_dropWhile.symm, ?_, ?_⟩
    · intro e he tr' u g hlater hu
      exact (Epoch.below_of_some hu).mp (below_exec hsound ((horder p q hq).below e he) hlater).2
    · intro e he
      simpa [obsolete] using all_eq_true.mp all_takeWhile e he
    · intro e he
      exact (horder p q hq).live_of_dropWhile he
  · intro atMs
    obtain ⟨t₁, n, hreclaim, hswept⟩ := reclaimObsolete_spec hsound atMs
    refine ⟨t₁, n, hreclaim, (allLive_of_swept horder hswept).depth_obsolete, ?_⟩
    intro p q₁ hq₁
    rw [hswept.plugins, get?_mapValues, map_eq_some_iff] at hq₁
    obtain ⟨q, hq, rfl⟩ := hq₁
    exact ⟨q, hq, reclaimed_suffix _⟩
  · intro atMs aggregator budget
    obtain ⟨t', d, n, hdrain, -, hspec⟩ := drainInto_spec hsound atMs aggregator budget
    exact ⟨t', d, by simp [step, hdrain], fun c hc => drains_live horder hspec hc⟩
  · intro atMs inbound t' reason hstep hreason
    obtain ⟨result, hresult, hspec⟩ := step_submit hsound hstep
    obtain rfl : result = .error reason := by simpa using hresult.symm
    exact (allLive_of_overflow horder hspec hreason).depth_obsolete

end CriKey.Intake
