import CriKey.Intake.Order

/-! Submissions under `ReplaceOldest`: all or nothing, and no more is evicted than the limits
ask for. -/
namespace CriKey.Intake
open CriKey.Base CriKey.Core CriKey.Aggregator InboundResultQueue Table List Option

/-- The queues stay as they are, or the batch takes the place of the shortest front of its own
queue without which both limits admit it. -/
def Replaces (s : InboundResultQueue) (atMs : Nat) (inbound : InboundBatch)
    (s' : InboundResultQueue) : Except QueueReject ProducerState → Prop
  | .error _ => s'.plugins = s.plugins
  | .ok _ => ∃ q k, s.plugins.get? inbound.batch.plugin = some q ∧
      IsLeast {j | s.AdmitsAfter q inbound.batch.items.length j} k ∧
      s'.plugins = s.plugins.modify inbound.batch.plugin fun q =>
        entered atMs inbound (q.hold (q.entries.drop k))

/-- The entries of the plugin that are of the active generation. -/
def live (p : PluginId) (s : InboundResultQueue) : List Entry :=
  (resident p s).filter fun e => s.active = some e.generation

variable {s s' : InboundResultQueue} {atMs : Nat} {inbound : InboundBatch} {q : PluginQueue}
  {result : Except QueueReject ProducerState}

/-- What a reclamation takes off the front of a queue is not live. -/
lemma live_of_swept {n : Nat} (hs : s.Swept s' n) (p : PluginId) : live p s' = live p s := by
  simp only [live, resident, hs.plugins, get?_mapValues, hs.moves.active]
  cases s.plugins.get? p with
  | none => rfl
  | some q =>
    have hstale : (q.entries.takeWhile (obsolete s.active)).filter
        (fun e => s.active = some e.generation) = [] := by
      rw [filter_eq_nil_iff]
      intro e he
      simpa [obsolete] using all_eq_true.mp all_takeWhile e he
    conv_rhs => rw [elim_some,
      ← takeWhile_append_dropWhile (p := obsolete s.active) (l := q.entries), filter_append, hstale]
    rfl

section Submit
variable (h : s.Sound) (hp : s.plugins.get? inbound.batch.plugin = some q)
include hp

lemma replaces_of_enqueue {s₁ : InboundResultQueue} {k : Nat}
    (hev : s.Evicted s₁ inbound.batch.plugin k)
    (hroom : s₁.Room (q.hold (q.entries.drop k)) inbound.batch.items.length)
    (hleast : IsLeast {j | s.AdmitsAfter q inbound.batch.items.length j} k)
    (henq : s₁.enqueue atMs inbound = some (s', result)) : Replaces s atMs inbound s' result := by
  have hp₁ : s₁.plugins.get? inbound.batch.plugin = some (q.hold (q.entries.drop k)) := by
    rw [hev.plugins, get?_modify_self, hp, map_some]
  obtain ⟨s₂, henq', hplugins, -⟩ := enqueue_spec hev.sound hp₁ hroom atMs
  cases henq.symm.trans henq'
  refine ⟨q, k, hp, hleast, ?_⟩
  rw [hplugins, hev.plugins, modify_modify]

include h

lemma decideAdmission_replaces (hpolicy : q.policy.overflow = .replaceOldest)
    (hdec : s.decideAdmission atMs inbound = some (s', result)) :
    Replaces s atMs inbound s' result := by
  have hlow : q.lowAtWatermark inbound = false := by simp [PluginQueue.lowAtWatermark, hpolicy]
  by_cases hroom : s.Room q inbound.batch.items.length
  · rw [decideAdmission_of_room hp atMs hlow hroom] at hdec
    obtain ⟨s₁, k, hloop, -, hev, hroom', hleast⟩ := evictLoop_done h hp hroom atMs 0
    cases (evictLoop_of_room hp hroom atMs 0).symm.trans hloop
    exact replaces_of_enqueue hp hev hroom' hleast hdec
  · rw [← room_iff, Bool.not_eq_false] at hroom
    obtain ⟨r, hpre, hok⟩ := preflight_spec h hp inbound.batch.items.length
    simp only [decideAdmission, hp, hlow, hroom, overflow, hpolicy, hpre] at hdec
    cases r with
    | error reason =>
      cases hdec
      exact pushEvent_plugins _ _
    | ok u =>
      obtain ⟨s₁, k, hloop, -, hev, hroom', hleast⟩ := evictLoop_spec atMs h hp (hok rfl) le_rfl
      simp only [hloop] at hdec
      exact replaces_of_enqueue hp hev hroom' hleast hdec

/-- The decision falls as things stand or once the obsolete work is off the queues. -/
lemma submit_replaces (hpolicy : q.policy.overflow = .replaceOldest)
    (hsub : s.submit atMs inbound = some (s', result)) :
    ∃ u, (u = s ∨ ∃ n, s.reclaimObsolete atMs = some (u, n) ∧ s.Swept u n) ∧
      Replaces u atMs inbound s' result := by
  simp only [submit, hp] at hsub
  split_ifs at hsub with hactive hstate hended hneeds
  iterate 3
    · cases hsub
      exact ⟨s, .inl rfl, pushEvent_plugins _ _⟩
  · obtain ⟨u, n, hreclaim, hswept⟩ := reclaimObsolete_spec h atMs
    have hpu : u.plugins.get? inbound.batch.plugin = some (q.reclaimed s.active) := by
      rw [hswept.plugins, get?_mapValues, hp, map_some]
    simp only [hreclaim] at hsub
    exact ⟨u, .inr ⟨n, hreclaim, hswept⟩, decideAdmission_replaces hswept.sound hpu hpolicy hsub⟩
  · exact ⟨s, .inl rfl, decideAdmission_replaces h hp hpolicy hsub⟩

end Submit

variable {α : Type} [ResultAggregator α]

/-- Under `ReplaceOldest`, from every state a run reaches, a submission first may take obsolete
batches off the queues, then all of them. Beyond that a refusal takes nothing off any queue, and
an admission the shortest front of its own queue that makes room, and nothing off another. -/
theorem replaceOldest_minimal (limits : QueueLimits) (ops : List (Op α)) :
    ∃ t tr, run step (.new limits) ops = some (t, tr) ∧
      ∀ atMs inbound q, t.plugins.get? inbound.batch.plugin = some q →
        q.policy.overflow = .replaceOldest →
        ∃ t' result u, step t (.submit atMs inbound : Op α) = some (t', .submitted result) ∧
          (u = t ∨ (∃ n, t.reclaimObsolete atMs = some (u, n)) ∧ AllLive u) ∧
          (∀ p, live p u = live p t) ∧ Replaces u atMs inbound t' result := by
  obtain ⟨t, tr, hrun⟩ := run_returns limits ops
  have hexec := (exec_of_run hrun).1
  have hsound := (exec_sound hexec).1
  refine ⟨t, tr, hrun, fun atMs inbound q hq hpolicy => ?_⟩
  obtain ⟨t', result, hsub, -, -⟩ := submit_spec hsound atMs inbound
  obtain ⟨u, hu, hreplaces⟩ := submit_replaces hsound hq hpolicy hsub
  refine ⟨t', result, u, by simp [step, hsub], ?_⟩
  cases hu with
  | inl heq => exact ⟨.inl heq, by simp [heq], hreplaces⟩
  | inr hu =>
    obtain ⟨n, hreclaim, hswept⟩ := hu
    exact ⟨.inr ⟨⟨n, hreclaim⟩, allLive_of_swept (inOrder_exec hexec) hswept⟩,
      live_of_swept hswept, hreplaces⟩

end CriKey.Intake
