import CriKey.Intake.Step

/-! The totals and the bounds of the intake over whole runs. A queue can only be over its own
bounds because a later registration lowered them below what was resident. -/
namespace CriKey.Intake
open CriKey.Base CriKey.Core CriKey.Aggregator List
open InboundResultQueue

inductive Measure where
  | batches | items
deriving DecidableEq, Repr

namespace Measure

def size : Measure → PluginQueue → Nat
  | .batches, q => q.entries.length
  | .items, q => q.items

def bound : Measure → IntakePolicy → Nat
  | .batches, policy => policy.capacityBatches
  | .items, policy => policy.capacityItems

def weigh : Measure → List Entry → Nat
  | .batches, entries => entries.length
  | .items, entries => load entries

variable (m : Measure)

@[simp] lemma weigh_nil : m.weigh [] = 0 := by
  cases m <;> rfl

lemma weigh_append (es fs : List Entry) : m.weigh (es ++ fs) = m.weigh es + m.weigh fs := by
  cases m with
  | batches => exact length_append
  | items => exact load_append es fs

lemma weigh_le_of_suffix {es fs : List Entry} (h : es <:+ fs) : m.weigh es ≤ m.weigh fs := by
  obtain ⟨front, rfl⟩ := h
  rw [weigh_append]
  exact Nat.le_add_left _ _

lemma size_eq {p : PluginId} {q : PluginQueue} (h : q.Filed p) : m.size q = m.weigh q.entries := by
  cases m with
  | batches => rfl
  | items => exact h.items

end Measure

variable {α : Type}

lemma QueueStep.size_le {active : Option Generation} {q q' : PluginQueue} {es : List Entry}
    {calls : List Call} {p : PluginId} (h : QueueStep active q es calls q') (hq : q.Filed p)
    (hq' : q'.Filed p) (m : Measure) : m.size q' ≤ m.size q ∨ m.size q' ≤ m.bound q'.policy := by
  have hpolicy := h.policy
  obtain ⟨kept, hkept, hentries⟩ := h.entries
  have hle : m.weigh kept ≤ m.weigh q.entries :=
    m.weigh_le_of_suffix ((suffix_append _ _).trans hkept)
  rw [m.size_eq hq, m.size_eq hq', hentries, m.weigh_append, hpolicy]
  cases h with
  | same | reclaimed label | drained fronts => exact .inl (by rwa [m.weigh_nil])
  | @admitted atMs inbound q₁ k current connected unfinished start batches items =>
    obtain rfl : kept = q₁.entries.drop k := (append_cancel_right hentries).symm
    cases m with
    | batches => exact .inr batches
    | items =>
      -- an empty batch passes even where the items are over the bound
      have hone : load [⟨atMs, inbound⟩] = inbound.batch.items.length := by simp [Entry.itemCount]
      simp only [Measure.weigh, Measure.bound] at hle ⊢
      omega

variable [ResultAggregator α]

/-- The policy of the queue came with a registration, the last one of the plugin in the
trace, that bounded it below what was resident then; the queue has not grown since. -/
def LoweredBelow (m : Measure) (limits : QueueLimits) (tr : List (Op α × Output α))
    (p : PluginId) (q : PluginQueue) : Prop :=
  ∃ tr₁ policy o tr₂ t q₀, tr = tr₁ ++ (.register p policy, o) :: tr₂ ∧
    Exec step (.new limits) tr₁ t ∧ t.plugins.get? p = some q₀ ∧
    (∀ io ∈ tr₂, io.1.registers p = false) ∧ q.policy = normalizePolicy policy ∧
    m.size q ≤ m.size q₀ ∧ m.bound q.policy < m.size q₀

variable {limits : QueueLimits} {tr : List (Op α × Output α)}

lemma LoweredBelow.extend {m : Measure} {p : PluginId} {q q' : PluginQueue} {op : Op α}
    {o : Output α} (h : LoweredBelow m limits tr p q) (hop : op.registers p = false)
    (hpolicy : q'.policy = q.policy) (hsize : m.size q' ≤ m.size q) :
    LoweredBelow m limits (tr ++ [(op, o)]) p q' := by
  obtain ⟨tr₁, policy, o₁, tr₂, t, q₀, rfl, hexec, ht, hlast, hq, hle, hlt⟩ := h
  refine ⟨tr₁, policy, o₁, tr₂ ++ [(op, o)], t, q₀, by simp, hexec, ht, ?_, hpolicy.trans hq,
    hsize.trans hle, by rw [hpolicy]; exact hlt⟩
  intro io hio
  cases mem_append.mp hio with
  | inl hold => exact hlast io hold
  | inr hnew => rw [mem_singleton.mp hnew]; exact hop

/-- Every queue keeps its bounds unless they were lowered below it. -/
def WithinPolicies (limits : QueueLimits) (tr : List (Op α × Output α))
    (t : InboundResultQueue) : Prop :=
  ∀ p q, t.plugins.get? p = some q → ∀ m : Measure,
    m.size q ≤ m.bound q.policy ∨ LoweredBelow m limits tr p q

lemma withinPolicies_step {t t' : InboundResultQueue} {op : Op α} {o : Output α}
    (hexec : Exec step (.new limits) tr t) (h : WithinPolicies limits tr t)
    (hstep : step t op = some (t', o)) : WithinPolicies limits (tr ++ [(op, o)]) t' := by
  intro p q' hq' m
  have hsound := (exec_sound hexec).1
  have hfiled' := (step_sound hsound hstep).filed p q' hq'
  have hchange := step_change hsound hstep p
  rw [hq'] at hchange
  generalize hbefore : t.plugins.get? p = before at hchange
  cases hchange with
  | registered call answer => exact .inl (by cases m <;> exact Nat.zero_le _)
  | @reregistered policy q call answer =>
    have hsize : m.size (q.reregister t.active (normalizePolicy policy)) = m.size q := by
      cases m <;> rfl
    by_cases hle : m.size q ≤ m.bound (normalizePolicy policy)
    · exact .inl (hsize.trans_le hle)
    · right
      rw [call]
      exact ⟨tr, policy, o, [], t, q, rfl, hexec, hbefore, by simp, rfl, hsize.le, not_le.mp hle⟩
  | @changed q _ other change =>
    have hpolicy := change.policy
    cases change.size_le (hsound.filed p q hbefore) hfiled' m with
    | inr hle => exact .inl hle
    | inl hle =>
      cases h p q hbefore m with
      | inl hfits => exact .inl (by rw [hpolicy]; exact hle.trans hfits)
      | inr hlow => exact .inr (hlow.extend other hpolicy hle)

lemma withinPolicies_exec {t : InboundResultQueue} (h : Exec step (.new limits) tr t) :
    WithinPolicies limits tr t := by
  refine Exec.invariant (WithinPolicies limits) ?_ ?_ h
  · intro p q hq
    simp [InboundResultQueue.new] at hq
  · intro tr t op t' o hexec ih hstep
    exact withinPolicies_step hexec ih hstep

/-- Every sequence of calls returns: no subtraction underflows, no addition overflows, and
every eviction loop finds the entries it needs. The redundant totals are the sums over the
queues and stay within the limits, `unregister` subtracts no more than is there, and a queue is
over a bound of its policy only if the last registration lowered that bound below it. -/
theorem totals_exact_and_bounded (limits : QueueLimits) (ops : List (Op α)) :
    ∃ t tr, run step (.new limits) ops = some (t, tr) ∧ t.limits = limits ∧
      t.totalBatches = t.plugins.sum (·.entries.length) ∧
      t.totalItems = t.plugins.sum (fun q => load q.entries) ∧
      (∀ p q, t.plugins.get? p = some q → q.items = load q.entries ∧
        q.entries.length ≤ t.totalBatches ∧ q.items ≤ t.totalItems) ∧
      t.totalBatches ≤ limits.capacityBatches ∧ t.totalItems ≤ limits.capacityItems ∧
      (∀ p q, t.plugins.get? p = some q → ∀ m : Measure,
        m.size q ≤ m.bound q.policy ∨ LoweredBelow m limits tr p q) ∧
      (∀ atMs p itemCount t₁ n q, t.reclaimObsolete atMs = some (t₁, n) →
        t₁.plugins.get? p = some q → t₁.replacementPreflight q itemCount = some (.ok ()) →
        ∃ t₂ k, evictLoop atMs p itemCount q.entries.length t₁ = some t₂ ∧ k ≤ q.entries.length ∧
          t₂.plugins = t₁.plugins.modify p fun q => q.hold (q.entries.drop k)) := by
  obtain ⟨t, tr, hrun⟩ := run_returns limits ops
  have hexec := (exec_of_run hrun).1
  obtain ⟨hsound, hlimits⟩ := exec_sound hexec
  refine ⟨t, tr, hrun, hlimits, hsound.batches, ?_, ?_, ?_, ?_, withinPolicies_exec hexec, ?_⟩
  · rw [hsound.items]
    exact Table.sum_congr fun p q hq => (hsound.filed p q hq).items
  · intro p q hq
    exact ⟨(hsound.filed p q hq).items, hsound.entries_le hq, hsound.load_le hq⟩
  · rw [← hlimits]
    exact hsound.batches_le
  · rw [← hlimits]
    exact hsound.items_le
  · intro atMs p itemCount t₁ n q hreclaim hq hpre
    obtain ⟨t₁', n', hreclaim', hswept⟩ := reclaimObsolete_spec hsound atMs
    rw [hreclaim', Option.some.injEq] at hreclaim
    obtain ⟨rfl, rfl⟩ := hreclaim
    obtain ⟨r, hr, hok⟩ := preflight_spec hswept.sound hq itemCount
    rw [hpre, Option.some.injEq] at hr
    obtain ⟨t₂, k, hloop, hk, hev, -⟩ :=
      evictLoop_spec atMs hswept.sound hq (hok hr.symm) le_rfl
    exact ⟨t₂, k, hloop, hk, hev.plugins⟩

end CriKey.Intake
