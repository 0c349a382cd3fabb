import CriKey.Intake.Reclaim

/-! What a submission can do. From a sound state it always returns, and `Submission` lists
the ways it ends: turned away before any work, entered at once, refused or admitted after a
reclamation. -/
namespace CriKey.Intake
open CriKey.Base CriKey.Core CriKey.Aggregator List Option Table
namespace InboundResultQueue
variable {s : InboundResultQueue} {q : PluginQueue} {inbound : InboundBatch}

/-! Enqueueing. -/

/-- The queue of the producer once its batch is in. -/
def entered (atMs : Nat) (inbound : InboundBatch) (q : PluginQueue) : PluginQueue :=
  (q.pushed atMs inbound).reconciled

lemma pushed_filed (h : q.Filed inbound.batch.plugin) (atMs : Nat) :
    (q.pushed atMs inbound).Filed inbound.batch.plugin := by
  refine ⟨?_, ?_⟩
  · show q.items + inbound.batch.items.length = load (q.entries ++ [⟨atMs, inbound⟩])
    rw [load_append, h.items, load_cons]
    rfl
  · intro e he
    cases mem_append.mp he with
    | inl hold => exact h.owned e hold
    | inr hnew => rw [mem_singleton.mp hnew]; rfl

section
variable (h : s.Sound) (hp : s.plugins.get? inbound.batch.plugin = some q)
  (hroom : s.Room q inbound.batch.items.length) (atMs : Nat)
include h hp hroom

lemma arrive_spec : ∃ s', s.arrive atMs inbound = some s' ∧
      s'.plugins = s.plugins.modify inbound.batch.plugin (·.pushed atMs inbound) ∧
      s'.totalBatches = s.totalBatches + 1 ∧
      s'.totalItems = s.totalItems + inbound.batch.items.length ∧
      Moves s s' (once .admitted 1) := by
  obtain ⟨-, -, htb, hti⟩ := hroom
  have hq := h.load_le hp
  have hile := h.items_le
  have hbmax := s.limits.capacityBatches_le
  have himax := s.limits.capacityItems_le
  have hitems : checkedAdd q.items inbound.batch.items.length =
      some (q.items + inbound.batch.items.length) := checkedAdd_of_le (by omega)
  have hbatches : checkedAdd s.totalBatches 1 = some (s.totalBatches + 1) :=
    checkedAdd_of_le (by omega)
  have htotal : checkedAdd s.totalItems inbound.batch.items.length =
      some (s.totalItems + inbound.batch.items.length) := checkedAdd_of_le (by omega)
  unfold arrive
  simp only [hp, hitems, hbatches, htotal]
  refine ⟨_, rfl, ?_, pushEvent_totalBatches _ _, pushEvent_totalItems _ _, ?_⟩
  · rw [pushEvent_plugins]
    exact modify_congr (fun queue => { queue with
      items := q.items + inbound.batch.items.length
      terminalGeneration :=
        if inbound.batch.state.isTerminal then some inbound.batch.generation
        else queue.terminalGeneration
      entries := queue.entries ++ [⟨atMs, inbound⟩] }) _ hp rfl
  · refine Moves.trans_quiet ?_ (pushEvent_moves _ _)
    exact { count_moves s .admitted 1 with }

lemma enqueue_spec : ∃ s', s.enqueue atMs inbound = some (s', .ok (entered atMs inbound q).state) ∧
      s'.plugins = s.plugins.modify inbound.batch.plugin (entered atMs inbound) ∧
      s'.totalBatches = s.totalBatches + 1 ∧ s'.Sound ∧ Moves s s' (once .admitted 1) := by
  obtain ⟨s₁, harrive, hplugins, hb, hi, hmoves⟩ := arrive_spec h hp hroom atMs
  obtain ⟨-, -, htb, hti⟩ := hroom
  have hile := h.items_le
  have hsound : s₁.Sound := by
    refine h.modify hp hplugins (pushed_filed (h.filed _ q hp) atMs) ?_ ?_ ?_ ?_
    · simp only [PluginQueue.pushed, length_append, length_singleton]
      omega
    · simp only [PluginQueue.pushed]
      omega
    · rw [hb, hmoves.limits]
      exact htb
    · rw [hmoves.limits]
      omega
  have hp₁ : s₁.plugins.get? inbound.batch.plugin = some (q.pushed atMs inbound) := by
    rw [hplugins, get?_modify_self, hp, map_some]
  obtain ⟨s', hrec, hlabel⟩ := reconcileProducer_spec hp₁ atMs inbound.batch.generation
  have hplugins' : s'.plugins = s.plugins.modify inbound.batch.plugin (entered atMs inbound) := by
    rw [hlabel.plugins, hplugins, modify_modify]
    rfl
  have hp' : s'.plugins.get? inbound.batch.plugin = some (entered atMs inbound q) := by
    rw [hplugins', get?_modify_self, hp, map_some]
  refine ⟨s', ?_, hplugins', ?_, hlabel.sound hsound fun _ => ⟨rfl, rfl⟩,
    hmoves.trans_quiet hlabel.moves⟩
  · simp only [enqueue, harrive, hrec, hp']
  · rw [hlabel.totalBatches, hb]

end

/-! Decisions after a reclamation. -/

/-- How a submission that was not turned away is decided. -/
inductive Decision (s : InboundResultQueue) (atMs : Nat) (inbound : InboundBatch)
    (q : PluginQueue) (s' : InboundResultQueue) : Except QueueReject ProducerState → Prop
  | refused {reason : QueueReject} {state : ProducerState}
      (label : state = q.state ∨ state = .paused ∨ state = .disconnected)
      (plugins : s'.plugins =
        s.plugins.modify inbound.batch.plugin fun q => { q with state := state })
      (totalBatches : s'.totalBatches = s.totalBatches)
      (moves : Moves s s' (once (.rejected reason) 1)) :
      Decision s atMs inbound q s' (.error reason)
  | admitted {s₁ : InboundResultQueue} {k : Nat} (k_le : k ≤ q.entries.length)
      (evicted : s.Evicted s₁ inbound.batch.plugin k)
      (room : s₁.Room (q.hold (q.entries.drop k)) inbound.batch.items.length)
      (plugins : s'.plugins = s₁.plugins.modify inbound.batch.plugin (entered atMs inbound))
      (totalBatches : s'.totalBatches = s₁.totalBatches + 1)
      (moves : Moves s₁ s' (once .admitted 1)) :
      Decision s atMs inbound q s' (.ok (entered atMs inbound (q.hold (q.entries.drop k))).state)

lemma rejectWith_spec {s₁ : InboundResultQueue} (h : s.Sound) (atMs : Nat)
    (reason : QueueReject) {state : ProducerState}
    (hstate : state = q.state ∨ state = .paused ∨ state = .disconnected)
    (hs₁ : s.Relabelled s₁ inbound.batch.plugin fun q => { q with state := state }) :
    (s₁.rejectWith atMs inbound reason).1.Sound ∧
      s.Decision atMs inbound q (s₁.rejectWith atMs inbound reason).1 (.error reason) := by
  refine ⟨(hs₁.sound h fun _ => ⟨rfl, rfl⟩).countEvent _ _ _, .refused hstate ?_ ?_ ?_⟩
  · exact (pushEvent_plugins _ _).trans hs₁.plugins
  · exact (pushEvent_totalBatches _ _).trans hs₁.totalBatches
  · exact hs₁.moves.quiet_trans (countEvent_moves _ _ _ _)

section Decide
variable (h : s.Sound) (hp : s.plugins.get? inbound.batch.plugin = some q) (atMs : Nat)
include h hp

lemma reject_spec (reason : QueueReject) :
    ∃ s' result, some (s.rejectWith atMs inbound reason) = some (s', result) ∧ s'.Sound ∧
      s.Decision atMs inbound q s' result :=
  ⟨_, _, rfl, rejectWith_spec h atMs reason (.inl rfl) (.same hp rfl)⟩

lemma pause_spec (reason : QueueReject) :
    ∃ s', (s.rejectWith atMs inbound reason).1.forcePause atMs inbound.batch.plugin
        inbound.batch.generation = some s' ∧ s'.Sound ∧
      s.Decision atMs inbound q s' (.error reason) := by
  let s₁ := (s.rejectWith atMs inbound reason).1
  have hplugins₁ : s₁.plugins = s.plugins := pushEvent_plugins _ _
  have hp₁ : s₁.plugins.get? inbound.batch.plugin = some q := by rw [hplugins₁, hp]
  have hsound₁ : s₁.Sound := h.countEvent _ _ _
  obtain ⟨s', hpause, hlabel⟩ := forcePause_spec hp₁ atMs inbound.batch.generation
  have hstate : (halted q).state = q.state ∨ (halted q).state = .paused ∨
      (halted q).state = .disconnected := by
    by_cases hrun : q.state = .running
    · exact .inr (.inl (if_pos hrun))
    · exact .inl (if_neg hrun)
  have hplugins : s'.plugins = s.plugins.modify inbound.batch.plugin fun q' =>
      { q' with state := (halted q).state } := by
    rw [hlabel.plugins, hplugins₁]
    exact modify_congr halted _ hp rfl
  exact ⟨s', hpause, hlabel.sound hsound₁ fun _ => ⟨rfl, rfl⟩, .refused hstate hplugins
    (hlabel.totalBatches.trans (pushEvent_totalBatches _ _))
    ((countEvent_moves _ _ _ _).trans_quiet hlabel.moves)⟩

omit h in
lemma replace_spec {s₁ : InboundResultQueue} {k : Nat} (hk : k ≤ q.entries.length)
    (hev : s.Evicted s₁ inbound.batch.plugin k)
    (hroom : s₁.Room (q.hold (q.entries.drop k)) inbound.batch.items.length) :
    ∃ s' result, s₁.enqueue atMs inbound = some (s', result) ∧ s'.Sound ∧
      s.Decision atMs inbound q s' result := by
  have hp₁ : s₁.plugins.get? inbound.batch.plugin = some (q.hold (q.entries.drop k)) := by
    rw [hev.plugins, get?_modify_self, hp, map_some]
  obtain ⟨s', henq, hplugins, hb, hsound, hmoves⟩ := enqueue_spec hev.sound hp₁ hroom atMs
  exact ⟨s', _, henq, hsound, .admitted hk hev hroom hplugins hb hmoves⟩

lemma overflow_spec (full : Bool) :
    ∃ s' result, s.overflow atMs inbound q full = some (s', result) ∧ s'.Sound ∧
      s.Decision atMs inbound q s' result := by
  unfold overflow
  cases q.policy.overflow with
  | rejectLowPriority => exact reject_spec h hp atMs _
  | pauseProducer =>
    obtain ⟨s', hpause, hsound, hdec⟩ := pause_spec h hp atMs (fullReason full)
    exact ⟨s', .error (fullReason full), by simp only [hpause]; rfl, hsound, hdec⟩
  | disconnect =>
    have hlabel : s.Relabelled
        (s.modifyQueue inbound.batch.plugin fun q => { q with state := .disconnected })
        inbound.batch.plugin fun q => { q with state := .disconnected } :=
      ⟨rfl, rfl, rfl, .of_eq rfl rfl rfl rfl⟩
    exact ⟨_, _, rfl, rejectWith_spec h atMs _ (.inr (.inr rfl)) hlabel⟩
  | replaceOldest =>
    obtain ⟨r, hpre, hok⟩ := preflight_spec h hp inbound.batch.items.length
    simp only [hpre]
    cases r with
    | error reason => exact reject_spec h hp atMs reason
    | ok u =>
      obtain ⟨s₁, k, hloop, hk, hev, hroom, -⟩ := evictLoop_spec atMs h hp (hok rfl) le_rfl
      simp only [hloop]
      exact replace_spec hp atMs hk hev hroom

omit h in
lemma decideAdmission_of_room (hlow : q.lowAtWatermark inbound = false)
    (hroom : s.Room q inbound.batch.items.length) :
    s.decideAdmission atMs inbound = s.enqueue atMs inbound := by
  have hfull := (room_iff _).mpr hroom
  simp only [decideAdmission, hp, hlow, hfull]
  rfl

lemma decideAdmission_spec :
    ∃ s' result, s.decideAdmission atMs inbound = some (s', result) ∧ s'.Sound ∧
      s.Decision atMs inbound q s' result := by
  by_cases hlow : q.lowAtWatermark inbound = true
  · simp only [decideAdmission, hp, hlow]
    exact reject_spec h hp atMs .lowPriorityShed
  by_cases hroom : s.Room q inbound.batch.items.length
  · rw [decideAdmission_of_room hp atMs (by simpa using hlow) hroom]
    refine replace_spec hp atMs (Nat.zero_le _) (.zero h hp) ?_
    rw [drop_zero, (h.filed _ q hp).hold_self]
    exact hroom
  · have hfull : ((s.violations q inbound.batch.items.length).1 ||
        (s.violations q inbound.batch.items.length).2) = true := by
      rw [← Bool.not_eq_false, room_iff]
      exact hroom
    simp only [decideAdmission, hp, if_neg hlow, hfull]
    exact overflow_spec h hp atMs _

end Decide

/-! Submissions. -/

/-- The tests that turn a batch away before any work is reclaimed. -/
inductive Turned (s : InboundResultQueue) (inbound : InboundBatch) : QueueReject → Prop
  | unregistered (absent : s.plugins.get? inbound.batch.plugin = none) :
      Turned s inbound .unregistered
  | staleGeneration (stale : s.active ≠ some inbound.batch.generation) :
      Turned s inbound .staleGeneration
  | disconnected {q : PluginQueue} (registered : s.plugins.get? inbound.batch.plugin = some q)
      (gone : q.state = .disconnected) : Turned s inbound .disconnected
  | streamTerminated {q : PluginQueue} (registered : s.plugins.get? inbound.batch.plugin = some q)
      (ended : q.terminalGeneration = some inbound.batch.generation) :
      Turned s inbound .streamTerminated

structure Eligible (s : InboundResultQueue) (inbound : InboundBatch) (q : PluginQueue) :
    Prop where
  registered : s.plugins.get? inbound.batch.plugin = some q
  current : s.active = some inbound.batch.generation
  connected : q.state ≠ .disconnected
  unfinished : q.terminalGeneration ≠ some inbound.batch.generation

inductive Submission (s : InboundResultQueue) (atMs : Nat) (inbound : InboundBatch)
    (s' : InboundResultQueue) : Except QueueReject ProducerState → Prop
  | turned {reason : QueueReject} (why : s.Turned inbound reason)
      (plugins : s'.plugins = s.plugins) (totalBatches : s'.totalBatches = s.totalBatches)
      (moves : Moves s s' (once (.rejected reason) 1)) :
      Submission s atMs inbound s' (.error reason)
  | entered {q : PluginQueue} (eligible : s.Eligible inbound q)
      (room : s.Room q inbound.batch.items.length)
      (plugins : s'.plugins = s.plugins.modify inbound.batch.plugin (entered atMs inbound))
      (totalBatches : s'.totalBatches = s.totalBatches + 1)
      (moves : Moves s s' (once .admitted 1)) :
      Submission s atMs inbound s' (.ok (InboundResultQueue.entered atMs inbound q).state)
  | decided {q : PluginQueue} {s₁ : InboundResultQueue} {n : Nat}
      {result : Except QueueReject ProducerState} (eligible : s.Eligible inbound q)
      (swept : s.Swept s₁ n)
      (decision : s₁.Decision atMs inbound (q.reclaimed s.active) s' result) :
      Submission s atMs inbound s' result

/-- The counter that the answer of a submission moves. -/
def verdict : Except QueueReject ProducerState → Counter
  | .ok _ => .admitted
  | .error reason => .rejected reason

lemma Submission.books {atMs : Nat} {s' : InboundResultQueue}
    {result : Except QueueReject ProducerState} (h : s.Submission atMs inbound s' result) :
    ∃ n k, Moves s s' (once .droppedObsolete n + once .evictedOldest k + once (verdict result) 1) ∧
      s'.totalBatches + n + k = s.totalBatches + once (verdict result) 1 .admitted := by
  cases h with
  | turned _ _ totalBatches moves | entered _ _ _ totalBatches moves =>
    refine ⟨0, 0, ?_, totalBatches⟩
    simpa [once_zero, verdict] using moves
  | @decided q s₁ n result eligible swept decision =>
    have hswept := swept.totalBatches
    cases decision with
    | refused label plugins totalBatches moves =>
      refine ⟨n, 0, ?_, ?_⟩
      · simpa [once_zero, verdict] using swept.moves.trans moves
      · rw [totalBatches]
        exact hswept
    | @admitted s₂ k k_le evicted room plugins totalBatches moves =>
      have hevicted := evicted.totalBatches
      refine ⟨n, k, (swept.moves.trans evicted.moves).trans moves, ?_⟩
      simp only [verdict, once, if_true]
      omega

lemma turned_spec {reason : QueueReject} (h : s.Sound) (atMs : Nat)
    (why : s.Turned inbound reason) :
    ∃ s' result, some (s.rejectWith atMs inbound reason) = some (s', result) ∧ s'.Sound ∧
      s.Submission atMs inbound s' result :=
  ⟨_, _, rfl, h.countEvent _ _ _, .turned why (pushEvent_plugins _ _)
    (pushEvent_totalBatches _ _) (countEvent_moves _ _ _ _)⟩

lemma eligible_spec (h : s.Sound) (he : s.Eligible inbound q) (atMs : Nat) :
    ∃ s' result, (if s.admissionNeedsReclamation q inbound then
        match s.reclaimObsolete atMs with
        | none => none
        | some (s, _) => s.decideAdmission atMs inbound
      else s.decideAdmission atMs inbound) = some (s', result) ∧ s'.Sound ∧
      s.Submission atMs inbound s' result := by
  cases hneeds : s.admissionNeedsReclamation q inbound with
  | true =>
    obtain ⟨s₁, n, hreclaim, hswept⟩ := reclaimObsolete_spec h atMs
    have hp₁ : s₁.plugins.get? inbound.batch.plugin = some (q.reclaimed s.active) := by
      rw [hswept.plugins, get?_mapValues, he.registered, map_some]
    obtain ⟨s', result, hdec, hsound, hdecision⟩ := decideAdmission_spec hswept.sound hp₁ atMs
    refine ⟨s', result, ?_, hsound, .decided he hswept hdecision⟩
    simp only [if_true, hreclaim, hdec]
  | false =>
    simp only [admissionNeedsReclamation, Bool.or_assoc, Bool.or_eq_false_iff] at hneeds
    have hroom : s.Room q inbound.batch.items.length :=
      (room_iff _).mp (Bool.or_eq_false_iff.mpr hneeds.2)
    obtain ⟨s', henq, hplugins, hb, hsound, hmoves⟩ := enqueue_spec h he.registered hroom atMs
    refine ⟨s', _, ?_, hsound, .entered he hroom hplugins hb hmoves⟩
    rw [if_neg (by simp), decideAdmission_of_room he.registered atMs hneeds.1 hroom, henq]

lemma submit_spec (h : s.Sound) (atMs : Nat) (inbound : InboundBatch) :
    ∃ s' result, s.submit atMs inbound = some (s', result) ∧ s'.Sound ∧
      s.Submission atMs inbound s' result := by
  unfold submit
  cases hp : s.plugins.get? inbound.batch.plugin with
  | none => exact turned_spec h atMs (.unregistered hp)
  | some q =>
    simp only
    by_cases hactive : s.active = some inbound.batch.generation
    · rw [if_neg (not_not.mpr hactive)]
      by_cases hstate : q.state = .disconnected
      · rw [if_pos hstate]
        exact turned_spec h atMs (.disconnected hp hstate)
      rw [if_neg hstate]
      by_cases hended : q.terminalGeneration = some inbound.batch.generation
      · rw [if_pos hended]
        exact turned_spec h atMs (.streamTerminated hp hended)
      · rw [if_neg hended]
        exact eligible_spec h ⟨hp, hactive, hstate, hended⟩ atMs
    · rw [if_pos hactive]
      exact turned_spec h atMs (.staleGeneration hactive)

end InboundResultQueue
end CriKey.Intake
