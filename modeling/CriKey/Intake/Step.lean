import CriKey.Intake.Admission
import CriKey.Intake.Delivery
import CriKey.Base.Epoch

/-! Every call of the intake, for the whole and seen from one plugin. No call fails on the
way from the empty intake, and `PluginChange` lists what a call can do to a plugin; later
modules are proved against that list. -/
namespace CriKey.Intake
open CriKey.Base CriKey.Core CriKey.Aggregator PluginQueue Table List Option Nat
variable {α : Type}

/-- The batches of the plugin that a call admitted. -/
def admittedTo (p : PluginId) : Op α → Output α → List Entry
  | .submit atMs inbound, .submitted (.ok _) =>
    if inbound.batch.plugin = p then [⟨atMs, inbound⟩] else []
  | _, _ => []

/-- The calls of the aggregator for the plugin that a drain made. -/
def handedFrom (p : PluginId) : Output α → List Call
  | .drained d => callsOf p d.calls
  | _ => []

/-- Calls that install or remove the plugin. -/
def Op.registers (p : PluginId) : Op α → Bool
  | .register a _ => a = p
  | .unregister a => a = p
  | _ => false

/-- What a call can do to a queue under the active generation: the batches it admits, those
it hands over and the queue it leaves. -/
inductive QueueStep (active : Option Generation) (q : PluginQueue) :
    List Entry → List Call → PluginQueue → Prop
  | same : QueueStep active q [] [] q
  | reclaimed {state : ProducerState}
      (label : state = q.state ∨ state = .paused ∨ state = .disconnected) :
      QueueStep active q [] [] { q.reclaimed active with state := state }
  | admitted {atMs : Nat} {inbound : InboundBatch} {q₁ : PluginQueue} {k : Nat}
      (current : active = some inbound.batch.generation) (connected : q.state ≠ .disconnected)
      (unfinished : q.terminalGeneration ≠ some inbound.batch.generation)
      (start : q₁ = q ∧ k = 0 ∨ q₁ = q.reclaimed active)
      (batches : (q₁.entries.drop k).length < q.policy.capacityBatches)
      (items : inbound.batch.items.length ≤ q.policy.capacityItems - load (q₁.entries.drop k)) :
      QueueStep active q [⟨atMs, inbound⟩] []
        (InboundResultQueue.entered atMs inbound (q₁.hold (q₁.entries.drop k)))
  | drained {calls : List Call} (fronts : calls.map Call.entry <+: (q.reclaimed active).entries) :
      QueueStep active q [] calls ((q.reclaimed active).handAll calls).reconciled

namespace PluginQueue
variable {q : PluginQueue}

lemma reopen_policy (entry : Entry) : (q.reopen entry).policy = q.policy := by
  unfold reopen
  split <;> rfl

lemma handAll_policy (calls : List Call) : (q.handAll calls).policy = q.policy := by
  induction calls generalizing q with
  | nil => rfl
  | cons c calls ih =>
    have hfirst : (q.handed c.entry q.entries.tail c.result).policy = q.policy := by
      cases c.result with
      | ok u => rfl
      | error reason => exact reopen_policy c.entry
    exact ih.trans hfirst

lemma reclaimed_suffix (active : Option Generation) :
    (q.reclaimed active).entries <:+ q.entries := dropWhile_suffix _

end PluginQueue

namespace QueueStep
variable {active : Option Generation} {q q' : PluginQueue} {es : List Entry} {calls : List Call}

lemma policy (h : QueueStep active q es calls q') : q'.policy = q.policy := by
  cases h with
  | same | reclaimed label => rfl
  | admitted current connected unfinished start batches items =>
    cases start with
    | inl hq => rw [hq.1]; rfl
    | inr hq => rw [hq]; rfl
  | drained fronts => exact handAll_policy _

lemma entries (h : QueueStep active q es calls q') :
    ∃ kept, calls.map Call.entry ++ kept <:+ q.entries ∧ q'.entries = kept ++ es := by
  cases h with
  | same => exact ⟨q.entries, suffix_rfl, (append_nil _).symm⟩
  | reclaimed label =>
    exact ⟨(q.reclaimed active).entries, reclaimed_suffix active, (append_nil _).symm⟩
  | @admitted atMs inbound q₁ k current connected unfinished start batches items =>
    have hq₁ : q₁.entries <:+ q.entries := by
      cases start with
      | inl hq => rw [hq.1]
      | inr hq => rw [hq]; exact reclaimed_suffix active
    exact ⟨q₁.entries.drop k, (drop_suffix k _).trans hq₁, rfl⟩
  | drained fronts =>
    refine ⟨((q.reclaimed active).handAll calls).entries, ?_, (append_nil _).symm⟩
    rw [← handAll_entries fronts]
    exact reclaimed_suffix active

end QueueStep

inductive PluginChange (active : Option Generation) (p : PluginId) (op : Op α) (o : Output α) :
    Option PluginQueue → Option PluginQueue → Prop
  | absent (admitted : admittedTo p op o = []) (handed : handedFrom p o = []) :
      PluginChange active p op o none none
  | registered {policy : IntakePolicy} (call : op = .register p policy) (answer : o = .done) :
      PluginChange active p op o none (some (.new (normalizePolicy policy)))
  | reregistered {policy : IntakePolicy} {q : PluginQueue} (call : op = .register p policy)
      (answer : o = .done) :
      PluginChange active p op o (some q) (some (q.reregister active (normalizePolicy policy)))
  | removed {q : PluginQueue} (call : op = .unregister p)
      (answer : o = .unregistered true q.entries) : PluginChange active p op o (some q) none
  | changed {q q' : PluginQueue} (other : op.registers p = false)
      (change : QueueStep active q (admittedTo p op o) (handedFrom p o) q') :
      PluginChange active p op o (some q) (some q')

section
variable {active : Option Generation} {p : PluginId} {op : Op α} {o : Output α}
  (hother : op.registers p = false) (hadmitted : admittedTo p op o = [])
  (hhanded : handedFrom p o = [])
include hother hadmitted hhanded

lemma PluginChange.quiet {f : PluginQueue → PluginQueue} (hf : ∀ q, QueueStep active q [] [] (f q))
    (before : Option PluginQueue) : PluginChange active p op o before (before.map f) := by
  cases before with
  | none => exact .absent hadmitted hhanded
  | some q =>
    refine .changed hother ?_
    rw [hadmitted, hhanded]
    exact hf q

lemma PluginChange.same (before : Option PluginQueue) :
    PluginChange active p op o before before := by
  simpa using PluginChange.quiet hother hadmitted hhanded (f := id) (fun _ => .same) before

end

namespace InboundResultQueue
variable {s s' : InboundResultQueue} {p : PluginId} {q : PluginQueue}

/-! Registrations. -/

lemma register_of_some (hp : s.plugins.get? p = some q) (policy : IntakePolicy) :
    s.register p policy =
      s.modifyQueue p fun queue => queue.reregister s.active (normalizePolicy policy) := by
  simp only [register, hp]

lemma register_of_none (hp : s.plugins.get? p = none) (policy : IntakePolicy) :
    s.register p policy =
      { s with plugins := s.plugins.insert p (.new (normalizePolicy policy)) } := by
  simp only [register, hp]

lemma register_sound (h : s.Sound) (policy : IntakePolicy) : (s.register p policy).Sound := by
  cases hp : s.plugins.get? p with
  | some q =>
    rw [register_of_some hp]
    exact h.relabel _ fun q => ⟨rfl, rfl⟩
  | none =>
    rw [register_of_none hp]
    refine ⟨?_, ?_, ?_, h.batches_le, h.items_le⟩
    · intro p' q' hq'
      rw [get?_insert] at hq'
      by_cases hpp : p' = p
      · rw [if_pos hpp, some.injEq] at hq'
        rw [← hq']
        exact ⟨rfl, by simp⟩
      · rw [if_neg hpp] at hq'
        exact h.filed p' q' hq'
    · rw [h.batches, sum_insert_of_none _ _ hp]
      rfl
    · rw [h.items, sum_insert_of_none _ _ hp]
      rfl

lemma register_moves (s : InboundResultQueue) (p : PluginId) (policy : IntakePolicy) :
    Moves s (s.register p policy) 0 := by
  cases hp : s.plugins.get? p with
  | some q =>
    rw [register_of_some hp]
    exact .of_eq rfl rfl rfl rfl
  | none =>
    rw [register_of_none hp]
    exact .of_eq rfl rfl rfl rfl

lemma register_change (policy : IntakePolicy) (p' : PluginId) :
    PluginChange s.active p' (.register p policy : Op α) .done (s.plugins.get? p')
      ((s.register p policy).plugins.get? p') := by
  by_cases hpp : p' = p
  · subst hpp
    cases hp : s.plugins.get? p' with
    | some q =>
      rw [register_of_some hp, modifyQueue, get?_modify_self, hp]
      exact .reregistered rfl rfl
    | none =>
      rw [register_of_none hp, get?_insert, if_pos rfl]
      exact .registered rfl rfl
  · have hsame : (s.register p policy).plugins.get? p' = s.plugins.get? p' := by
      cases hp : s.plugins.get? p with
      | some q =>
        rw [register_of_some hp]
        exact get?_modify_ne _ _ hpp
      | none => rw [register_of_none hp, get?_insert, if_neg hpp]
    rw [hsame]
    exact .same (by simp [Op.registers, Ne.symm hpp]) rfl rfl _

lemma unregister_of_some (hp : s.plugins.get? p = some q) : s.unregister p = ({ s with
          plugins := s.plugins.erase p
          totalBatches := s.totalBatches - q.entries.length
          totalItems := s.totalItems - q.items
          drainCursor := s.cursorWithout p
          events := s.events.filter (·.plugin ≠ p) }, true, q.entries) := by
  simp only [unregister, hp]

lemma unregister_of_none (hp : s.plugins.get? p = none) : s.unregister p = (s, false, []) := by
  simp only [unregister, hp]

lemma unregister_sound (h : s.Sound) : (s.unregister p).1.Sound := by
  cases hp : s.plugins.get? p with
  | none =>
    rw [unregister_of_none hp]
    exact h
  | some q =>
    rw [unregister_of_some hp]
    have hb := sum_erase (fun q : PluginQueue => q.entries.length) hp
    have hi := sum_erase (fun q : PluginQueue => q.items) hp
    rw [← h.batches] at hb
    rw [← h.items] at hi
    refine ⟨?_, ?_, ?_, (sub_le _ _).trans h.batches_le, (sub_le _ _).trans h.items_le⟩
    · intro p' q' hq'
      rw [get?_erase] at hq'
      by_cases hpp : p' = p
      · simp [hpp] at hq'
      · rw [if_neg hpp] at hq'
        exact h.filed p' q' hq'
    · exact Nat.sub_eq_of_eq_add hb.symm
    · exact Nat.sub_eq_of_eq_add hi.symm

lemma unregister_moves (s : InboundResultQueue) (p : PluginId) : Moves s (s.unregister p).1 0 := by
  cases hp : s.plugins.get? p with
  | some q =>
    rw [unregister_of_some hp]
    exact .of_eq rfl rfl rfl rfl
  | none =>
    rw [unregister_of_none hp]
    exact .of_eq rfl rfl rfl rfl

lemma unregister_change (p' : PluginId) : PluginChange s.active p' (.unregister p : Op α)
      (.unregistered (s.unregister p).2.1 (s.unregister p).2.2) (s.plugins.get? p')
      ((s.unregister p).1.plugins.get? p') := by
  cases hp : s.plugins.get? p with
  | none =>
    rw [unregister_of_none hp]
    by_cases hpp : p' = p
    · rw [hpp, hp]
      exact .absent rfl rfl
    · exact .same (by simp [Op.registers, Ne.symm hpp]) rfl rfl _
  | some q =>
    simp only [unregister_of_some hp, get?_erase]
    by_cases hpp : p' = p
    · subst hpp
      rw [if_pos rfl, hp]
      exact .removed rfl rfl
    · rw [if_neg hpp]
      exact .same (by simp [Op.registers, Ne.symm hpp]) rfl rfl _

/-! Submissions. -/

lemma submission_change {atMs : Nat} {inbound : InboundBatch}
    {result : Except QueueReject ProducerState} (h : s.Sound)
    (hs : s.Submission atMs inbound s' result) (p : PluginId) :
    PluginChange s.active p (.submit atMs inbound : Op α) (.submitted result)
      (s.plugins.get? p) (s'.plugins.get? p) := by
  have hother : inbound.batch.plugin ≠ p →
      admittedTo p (.submit atMs inbound : Op α) (.submitted result) = [] := by
    intro hne
    cases result <;> simp [admittedTo, hne]
  cases hs with
  | turned why plugins totalBatches moves =>
    rw [plugins]
    exact .same rfl rfl rfl _
  | @entered q eligible room plugins totalBatches moves =>
    rw [plugins]
    by_cases hp : inbound.batch.plugin = p
    · subst hp
      have hself := (h.filed _ q eligible.registered).hold_self
      rw [get?_modify_self, eligible.registered]
      have hitems : inbound.batch.items.length ≤
          q.policy.capacityItems - load (q.entries.drop 0) := by
        rw [drop_zero, ← (h.filed _ q eligible.registered).items]
        exact room.items
      have hstep : QueueStep s.active q [⟨atMs, inbound⟩] []
          (entered atMs inbound (q.hold (q.entries.drop 0))) :=
        .admitted eligible.current eligible.connected eligible.unfinished (.inl ⟨rfl, rfl⟩)
          room.batches hitems
      rw [drop_zero, hself] at hstep
      refine .changed rfl ?_
      simpa [admittedTo, handedFrom] using hstep
    · rw [get?_modify_ne _ _ (Ne.symm hp)]
      exact .same rfl (hother hp) rfl _
  | @decided q s₁ n result eligible swept decision =>
    have hget : ∀ p, s₁.plugins.get? p = (s.plugins.get? p).map (·.reclaimed s.active) := by
      intro p
      rw [swept.plugins, get?_mapValues]
    cases decision with
    | refused label plugins totalBatches moves =>
      rw [plugins]
      by_cases hp : inbound.batch.plugin = p
      · subst hp
        rw [get?_modify_self, hget, eligible.registered]
        exact .changed rfl (.reclaimed label)
      · rw [get?_modify_ne _ _ (Ne.symm hp), hget]
        exact .quiet rfl (hother hp) rfl (fun _ => .reclaimed (.inl rfl)) _
    | admitted k_le evicted room plugins totalBatches moves =>
      rw [plugins, evicted.plugins]
      by_cases hp : inbound.batch.plugin = p
      · subst hp
        rw [get?_modify_self, get?_modify_self, hget, eligible.registered]
        refine .changed rfl ?_
        simp only [admittedTo]
        exact .admitted eligible.current eligible.connected eligible.unfinished (.inr rfl)
          room.batches room.items
      · rw [get?_modify_ne _ _ (Ne.symm hp), get?_modify_ne _ _ (Ne.symm hp), hget]
        exact .quiet rfl (hother hp) rfl (fun _ => .reclaimed (.inl rfl)) _

/-! Drains. -/

lemma drains_change [ResultAggregator α] {atMs : Nat} {aggregator : α} {budget : DrainBudget}
    {d : Drained α} {n : Nat} (hd : s.Drains aggregator s' d n) (p : PluginId) :
    PluginChange s.active p (.drainInto atMs aggregator budget) (.drained d)
      (s.plugins.get? p) (s'.plugins.get? p) := by
  have hfronts := hd.fronts p
  rw [hd.queues p]
  cases hp : s.plugins.get? p with
  | none =>
    rw [hp, elim_none, prefix_nil, map_eq_nil_iff] at hfronts
    exact .absent rfl hfronts
  | some q =>
    rw [hp] at hfronts
    exact .changed rfl (.drained hfronts)

/-! Generations. -/

/-- The generations of the intake as an epoch. -/
def epoch (s : InboundResultQueue) : Epoch Generation := ⟨s.retirementFloor, s.active⟩

lemma Moves.epoch {δ : Counter → Nat} (h : Moves s s' δ) : s'.epoch = s.epoch := by
  rw [InboundResultQueue.epoch, h.retirementFloor, h.active, InboundResultQueue.epoch]

lemma beginGeneration_spec (s : InboundResultQueue) (g : Generation) :
    ∃ active, s.beginGeneration g = { s with active := active } ∧
      s.epoch.Turn ⟨s.retirementFloor, active⟩ := by
  have hstart : s.epoch.start g = if g < s.retirementFloor then s.epoch
      else if s.active.any fun active => g ≤ active then s.epoch
      else ⟨s.retirementFloor, some g⟩ := rfl
  rw [beginGeneration]
  by_cases hfloor : g < s.retirementFloor
  · rw [if_pos hfloor]
    exact ⟨s.active, rfl, .still⟩
  rw [if_neg hfloor] at hstart ⊢
  by_cases hold : (s.active.any fun active => decide (g ≤ active)) = true
  · rw [if_pos hold]
    exact ⟨s.active, rfl, .still⟩
  · rw [if_neg hold] at hstart ⊢
    exact ⟨some g, rfl, hstart ▸ .started g⟩

lemma retireBefore_spec (s : InboundResultQueue) (g : Generation) :
    ∃ floor active, s.retireBefore g = { s with retirementFloor := floor, active := active } ∧
      s.epoch.Turn ⟨floor, active⟩ := by
  have hretire : s.epoch.retire g = if g ≤ s.retirementFloor then s.epoch
      else ⟨g, if s.active.any fun active => active < g then none else s.active⟩ := rfl
  rw [retireBefore]
  by_cases hfloor : g ≤ s.retirementFloor
  · rw [if_pos hfloor]
    exact ⟨s.retirementFloor, s.active, rfl, .still⟩
  · rw [if_neg hfloor] at hretire ⊢
    exact ⟨g, _, rfl, hretire ▸ .retired g⟩

/-! Calls. -/

/-- Every call with what is known of its outcome. -/
inductive Answered [ResultAggregator α] (s : InboundResultQueue) :
    Op α → InboundResultQueue → Output α → Prop
  | registered (p : PluginId) (policy : IntakePolicy) :
      Answered s (.register p policy) (s.register p policy) .done
  | unregistered (p : PluginId) : Answered s (.unregister p) (s.unregister p).1
        (.unregistered (s.unregister p).2.1 (s.unregister p).2.2)
  | begun {g : Generation} {active : Option Generation}
      (turn : s.epoch.Turn ⟨s.retirementFloor, active⟩) :
      Answered s (.beginGeneration g) { s with active := active } .done
  | retired {g floor : Generation} {active : Option Generation}
      (turn : s.epoch.Turn ⟨floor, active⟩) :
      Answered s (.retireBefore g) { s with retirementFloor := floor, active := active } .done
  | submitted {s' : InboundResultQueue} {atMs : Nat} {inbound : InboundBatch}
      {result : Except QueueReject ProducerState}
      (submission : s.Submission atMs inbound s' result) :
      Answered s (.submit atMs inbound) s' (.submitted result)
  | drained {s' : InboundResultQueue} {atMs : Nat} {aggregator : α} {budget : DrainBudget}
      {d : Drained α} {n : Nat} (drains : s.Drains aggregator s' d n) :
      Answered s (.drainInto atMs aggregator budget) s' (.drained d)

variable [ResultAggregator α]

lemma step_spec (h : s.Sound) (op : Op α) :
    ∃ s' o, step s op = some (s', o) ∧ s'.Sound ∧ Answered s op s' o := by
  cases op with
  | register p policy => exact ⟨_, _, rfl, register_sound h policy, .registered p policy⟩
  | unregister p => exact ⟨_, _, rfl, unregister_sound h, .unregistered p⟩
  | beginGeneration g =>
    obtain ⟨active, heq, hturn⟩ := beginGeneration_spec s g
    exact ⟨{ s with active := active }, .done, by simp [step, heq], h.congr rfl rfl rfl rfl,
      .begun hturn⟩
  | retireBefore g =>
    obtain ⟨floor, active, heq, hturn⟩ := retireBefore_spec s g
    exact ⟨{ s with retirementFloor := floor, active := active }, .done, by simp [step, heq],
      h.congr rfl rfl rfl rfl, .retired hturn⟩
  | submit atMs inbound =>
    obtain ⟨s', result, hsub, hsound, hspec⟩ := submit_spec h atMs inbound
    exact ⟨s', .submitted result, by simp [step, hsub], hsound, .submitted hspec⟩
  | drainInto atMs aggregator budget =>
    obtain ⟨s', d, n, hdrain, hsound, hspec⟩ := drainInto_spec h atMs aggregator budget
    exact ⟨s', .drained d, by simp [step, hdrain], hsound, .drained hspec⟩

lemma step_total (h : s.Sound) (op : Op α) : ∃ s' o, step s op = some (s', o) ∧ s'.Sound := by
  obtain ⟨s', o, hstep, hsound, -⟩ := step_spec h op
  exact ⟨s', o, hstep, hsound⟩

section
variable {op : Op α} {o : Output α}

variable (h : s.Sound)
include h

section
variable (hstep : step s op = some (s', o))
include hstep

lemma step_sound_answered : s'.Sound ∧ Answered s op s' o := by
  obtain ⟨t, o', ht, hsound, hanswered⟩ := step_spec h op
  rw [ht, some.injEq] at hstep
  obtain ⟨rfl, rfl⟩ := hstep
  exact ⟨hsound, hanswered⟩

lemma step_sound : s'.Sound :=
  (step_sound_answered h hstep).1

lemma step_answered : Answered s op s' o :=
  (step_sound_answered h hstep).2

end

lemma step_submit {atMs : Nat} {inbound : InboundBatch}
    (hstep : step s (.submit atMs inbound : Op α) = some (s', o)) :
    ∃ result, o = .submitted result ∧ s.Submission atMs inbound s' result := by
  cases step_answered h hstep with
  | submitted submission => exact ⟨_, rfl, submission⟩

lemma step_change (hstep : step s op = some (s', o)) (p : PluginId) :
    PluginChange s.active p op o (s.plugins.get? p) (s'.plugins.get? p) := by
  cases step_answered h hstep with
  | registered a policy => exact register_change policy p
  | unregistered a => exact unregister_change p
  | begun turn | retired turn => exact .same rfl rfl rfl _
  | submitted submission => exact submission_change h submission p
  | drained drains => exact drains_change drains p

lemma step_turn (hstep : step s op = some (s', o)) :
    s'.limits = s.limits ∧ s.epoch.Turn s'.epoch := by
  cases step_answered h hstep with
  | registered a policy =>
    have hmoves := register_moves s a policy
    exact ⟨hmoves.limits, hmoves.epoch ▸ .still⟩
  | unregistered a =>
    have hmoves := unregister_moves s a
    exact ⟨hmoves.limits, hmoves.epoch ▸ .still⟩
  | begun turn => exact ⟨rfl, turn⟩
  | retired turn => exact ⟨rfl, turn⟩
  | submitted submission =>
    obtain ⟨n, k, hmoves, -⟩ := submission.books
    exact ⟨hmoves.limits, hmoves.epoch ▸ .still⟩
  | drained drains => exact ⟨drains.moves.limits, drains.moves.epoch ▸ .still⟩

end

/-! Runs. -/

lemma sound_new (limits : QueueLimits) : (new limits).Sound :=
  ⟨fun p q hq => by simp [new] at hq, rfl, rfl, zero_le _, zero_le _⟩

lemma exec_sound {limits : QueueLimits} {tr : List (Op α × Output α)} {t : InboundResultQueue}
    (h : Exec step (new limits) tr t) : t.Sound ∧ t.limits = limits := by
  refine Exec.invariant (fun _ t => t.Sound ∧ t.limits = limits) ⟨sound_new limits, rfl⟩ ?_ h
  intro tr t op t' o _ ih hstep
  exact ⟨step_sound ih.1 hstep, (step_turn ih.1 hstep).1.trans ih.2⟩

lemma run_returns (limits : QueueLimits) (ops : List (Op α)) :
    ∃ t tr, run step (new limits) ops = some (t, tr) := by
  refine run_total (fun _ t => t.Sound) (sound_new limits) ?_
  intro op ops t h
  obtain ⟨t', o, hstep, hsound⟩ := step_total h op
  exact ⟨t', o, hstep, hsound⟩

end InboundResultQueue
end CriKey.Intake
