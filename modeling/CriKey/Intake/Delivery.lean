import CriKey.Intake.Reclaim

/-! What a drain can do. From a sound state it always returns; the batches it handed over
are, plugin by plugin, the front of what the reclamation left. -/
namespace CriKey.Intake
open CriKey.Base CriKey.Core CriKey.Aggregator PluginQueue Table List Option ResultAggregator Call

def callsOf (p : PluginId) (calls : List Call) : List Call :=
  calls.filter fun c => c.entry.plugin = p

lemma callsOf_append (p : PluginId) (calls calls' : List Call) :
    callsOf p (calls ++ calls') = callsOf p calls ++ callsOf p calls' :=
  filter_append _ _

def Call.counter (c : Call) : Counter :=
  match c.result with
  | .ok () => .merged
  | .error reason => .mergeRejected reason

def DrainReport.note (report : DrainReport) (c : Call) : DrainReport :=
  match c.result with
  | .ok () =>
    { report with
      merged := report.merged + 1
      mergedBatches := report.mergedBatches ++
        [⟨c.entry.plugin, c.entry.admittedAtMs, c.entry.generation, c.entry.inbound.batch.state,
          c.entry.itemCount⟩] }
  | .error reason =>
    { report with mergeRejected := report.mergeRejected ++ [(c.entry.plugin, reason)] }

def tally (calls : List Call) (c : Counter) : Nat := (calls.map counter).count c

lemma tally_append (calls calls' : List Call) :
    tally (calls ++ calls') = tally calls + tally calls' := by
  funext c
  simp [tally]

lemma tally_singleton (c : Call) : tally [c] = once c.counter 1 := by
  funext c'
  by_cases hc : c' = c.counter
  · simp [tally, once, hc]
  · simp [tally, once, hc, Ne.symm hc]

namespace PluginQueue

def handAll (q : PluginQueue) (calls : List Call) : PluginQueue :=
  calls.foldl (fun q c => q.handed c.entry q.entries.tail c.result) q

lemma handAll_append (q : PluginQueue) (calls calls' : List Call) :
    q.handAll (calls ++ calls') = (q.handAll calls).handAll calls' :=
  foldl_append

lemma handAll_entries {q : PluginQueue} {calls : List Call} (h : calls.map entry <+: q.entries) :
    q.entries = calls.map entry ++ (q.handAll calls).entries := by
  induction calls generalizing q with
  | nil => rfl
  | cons c calls ih =>
    obtain ⟨rest, hrest⟩ := h
    rw [map_cons, cons_append] at hrest
    have htail : q.entries.tail = calls.map entry ++ rest := by rw [← hrest, tail_cons]
    have hnext : (q.handed c.entry q.entries.tail c.result).entries =
        calls.map entry ++ rest := by rw [handed_entries, htail]
    have hih := ih (q := q.handed c.entry q.entries.tail c.result) ⟨rest, hnext.symm⟩
    rw [← hrest, ← hnext, hih]
    rfl

end PluginQueue

variable {α : Type} [ResultAggregator α]

/-- The aggregator after a run of calls, each with the answer written beside it. -/
def Fed : α → List Call → α → Prop
  | aggregator, [], aggregator' => aggregator' = aggregator
  | aggregator, c :: calls, aggregator' =>
    (accept aggregator c.entry.inbound.batch).2 = c.result ∧
      Fed (accept aggregator c.entry.inbound.batch).1 calls aggregator'

lemma Fed.append {a a' a'' : α} {calls calls' : List Call} (h : Fed a calls a')
    (h' : Fed a' calls' a'') : Fed a (calls ++ calls') a'' := by
  induction calls generalizing a with
  | nil =>
    rw [Fed] at h
    rwa [← h]
  | cons c calls ih => exact ⟨h.1, ih h.2⟩

open InboundResultQueue

/-- From `round` to `round'` the calls were made. -/
structure Delivers (round round' : DrainRound α) (calls : List Call) : Prop where
  made : round'.calls = round.calls ++ calls
  report : round'.report = calls.foldl DrainReport.note round.report
  fed : Fed round.aggregator calls round'.aggregator
  keys : round'.queue.plugins.keys = round.queue.plugins.keys
  queues : ∀ p, round'.queue.plugins.get? p =
    (round.queue.plugins.get? p).map (·.handAll (callsOf p calls))
  fronts : ∀ p, (callsOf p calls).map entry <+:
    (round.queue.plugins.get? p).elim [] (·.entries)
  totalBatches : round'.queue.totalBatches + calls.length = round.queue.totalBatches
  sound : round'.queue.Sound
  moves : Moves round.queue round'.queue (tally calls)

namespace Delivers
variable {round round' round'' : DrainRound α} {calls calls' : List Call}

lemma refl (h : round.queue.Sound) : Delivers round round [] where
  made := (append_nil _).symm
  report := rfl
  fed := rfl
  keys := rfl
  queues := fun p => by
    cases round.queue.plugins.get? p <;> rfl
  fronts := fun _ => nil_prefix
  totalBatches := rfl
  sound := h
  moves := .of_eq rfl rfl rfl rfl

lemma trans (h : Delivers round round' calls) (h' : Delivers round' round'' calls') :
    Delivers round round'' (calls ++ calls') where
  made := by rw [h'.made, h.made, append_assoc]
  report := by rw [h'.report, h.report, foldl_append]
  fed := h.fed.append h'.fed
  keys := h'.keys.trans h.keys
  queues := by
    intro p
    rw [h'.queues p, h.queues p, callsOf_append]
    cases round.queue.plugins.get? p with
    | none => rfl
    | some q => simp [handAll_append]
  fronts := by
    intro p
    have hfirst := h.fronts p
    have hsecond := h'.fronts p
    rw [h.queues p] at hsecond
    rw [callsOf_append, map_append]
    cases hq : round.queue.plugins.get? p with
    | none =>
      simp only [hq, map_none, elim_none, prefix_nil] at hfirst hsecond ⊢
      rw [hfirst, hsecond, append_nil]
    | some q =>
      simp only [hq, elim_some] at hfirst hsecond ⊢
      rw [handAll_entries hfirst]
      exact (prefix_append_right_inj _).mpr hsecond
  totalBatches := by
    have hb := h.totalBatches
    have hb' := h'.totalBatches
    rw [length_append]
    omega
  sound := h'.sound
  moves := by
    rw [tally_append]
    exact h.moves.trans h'.moves

end Delivers

lemma settle_spec {s : InboundResultQueue} (h : s.Sound) (atMs : Nat) (entry : Entry)
    (result : Except RejectReason Unit) (report : DrainReport) :
    ∃ s', settle atMs entry.plugin entry result s report = (s', report.note ⟨entry, result⟩) ∧
      s'.plugins = s.plugins.modify entry.plugin (·.answered entry result) ∧
      s'.totalBatches = s.totalBatches ∧ s'.Sound ∧
      Moves s s' (once (counter ⟨entry, result⟩) 1) := by
  cases result with
  | ok u =>
    have hid : s.plugins.modify entry.plugin (·.answered entry (.ok u)) = s.plugins := by
      cases hp : s.plugins.get? entry.plugin with
      | none => exact modify_eq_self _ hp
      | some q => exact modify_fixed _ hp rfl
    exact ⟨_, rfl, (pushEvent_plugins _ _).trans hid.symm, pushEvent_totalBatches _ _,
      h.countEvent _ _ _, countEvent_moves _ _ _ _⟩
  | error reason =>
    have hsound : (s.modifyQueue entry.plugin (·.reopen entry)).Sound :=
      h.relabel _ fun q => ⟨reopen_entries entry, reopen_items entry⟩
    have hmoves : Moves s (s.modifyQueue entry.plugin (·.reopen entry)) 0 :=
      .of_eq rfl rfl rfl rfl
    exact ⟨_, rfl, pushEvent_plugins _ _, pushEvent_totalBatches _ _, hsound.countEvent _ _ _,
      hmoves.quiet_trans (countEvent_moves _ _ _ _)⟩

variable {round : DrainRound α} {a p : PluginId} {q : PluginQueue}

lemma Delivers.one {round' : DrainRound α} {c : Call} {rest : List Entry}
    (hp : round.queue.plugins.get? c.entry.plugin = some q)
    (hq : q.entries = c.entry :: rest) (hmade : round'.calls = round.calls ++ [c])
    (hreport : round'.report = round.report.note c)
    (haccept : accept round.aggregator c.entry.inbound.batch = (round'.aggregator, c.result))
    (hplugins : round'.queue.plugins =
      round.queue.plugins.modify c.entry.plugin (·.handed c.entry rest c.result))
    (hb : round'.queue.totalBatches + 1 = round.queue.totalBatches)
    (hsound : round'.queue.Sound) (hmoves : Moves round.queue round'.queue (once c.counter 1)) :
    Delivers round round' [c] where
  made := hmade
  report := hreport
  fed := by simp [Fed, haccept]
  keys := by rw [hplugins, keys_modify]
  queues := by
    intro p
    rw [hplugins]
    by_cases hpa : p = c.entry.plugin
    · rw [hpa, get?_modify_self, hp]
      simp [callsOf, handAll, hq]
    · rw [get?_modify_ne _ _ hpa]
      cases round.queue.plugins.get? p <;> simp [callsOf, handAll, Ne.symm hpa]
  fronts := by
    intro p
    by_cases hpa : p = c.entry.plugin
    · simp [callsOf, hpa, hp, hq]
    · simp [callsOf, Ne.symm hpa]
  totalBatches := hb
  sound := hsound
  moves := by
    rw [tally_singleton]
    exact hmoves

lemma handOver_spec {e : Entry} {rest : List Entry} (h : round.queue.Sound)
    (hp : round.queue.plugins.get? a = some q) (hq : q.entries = e :: rest) (atMs index : Nat) :
    ∃ round' c, handOver atMs a index round = some round' ∧ Delivers round round' [c] := by
  have howned : e.plugin = a := (h.filed a q hp).owned e (by rw [hq]; exact mem_cons_self)
  subst howned
  obtain ⟨s₁, hpop, hplugins, hbatches, hsound, hmoves⟩ := popEntry_spec h hp hq
  let answer := accept round.aggregator e.inbound.batch
  obtain ⟨s', hsettle, hsplugins, hsbatches, hssound, hsmoves⟩ :=
    settle_spec hsound atMs e answer.2 round.report
  have hhand : handOver atMs e.plugin index round =
      some ⟨s', answer.1, round.report.note ⟨e, answer.2⟩, round.calls ++ [⟨e, answer.2⟩],
        some index⟩ := by
    simp only [handOver, hpop]
    rw [hsettle]
  refine ⟨_, ⟨e, answer.2⟩, hhand, .one hp hq rfl rfl rfl ?_ ?_ hssound ?_⟩
  · -- the pop and the answer together are one `handed`
    rw [hsplugins, hplugins, modify_modify]
    rfl
  · exact (congrArg (· + 1) hsbatches).trans hbatches
  · exact hmoves.quiet_trans hsmoves

variable (atMs : Nat) (budget : DrainBudget)

lemma drainLoop_spec (index own pluginItems : Nat) (h : round.queue.Sound) :
    ∃ round' calls, drainLoop atMs budget a index own pluginItems round = some round' ∧
      Delivers round round' calls := by
  induction own generalizing round pluginItems with
  | zero => exact ⟨round, [], rfl, .refl h⟩
  | succ own ih =>
    by_cases htotal : budget.totalBatches ≤ round.calls.length
    · exact ⟨round, [], by rw [drainLoop, if_pos htotal], .refl h⟩
    cases hnext : (round.queue.plugins.get? a).bind (·.entries.head?) with
    | none => exact ⟨round, [], by simp only [drainLoop, if_neg htotal, hnext], .refl h⟩
    | some next =>
      by_cases hitems : own + 1 < budget.batchesPerPlugin ∧
          budget.itemsPerPlugin - pluginItems < next.itemCount
      · refine ⟨round, [], ?_, .refl h⟩
        simp only [drainLoop, if_neg htotal, hnext, if_pos hitems]
      obtain ⟨q, hp, hhead⟩ := bind_eq_some_iff.mp hnext
      obtain ⟨rest, hq⟩ := head?_eq_some_iff.mp hhead
      obtain ⟨round₁, c, hhand, hone⟩ := handOver_spec h hp hq atMs index
      obtain ⟨round', calls, hloop, hrest⟩ :=
        ih (satAdd pluginItems next.itemCount) hone.sound
      refine ⟨round', c :: calls, ?_, hone.trans hrest⟩
      simp only [drainLoop, if_neg htotal, hnext, if_neg hitems, hhand, hloop]

lemma drainAt_spec (order : List PluginId)
    (start offset : Nat) (h : round.queue.Sound) (horder : 0 < order.length) :
    ∃ round' calls, drainAt atMs budget order start round offset = some round' ∧
      Delivers round round' calls := by
  unfold drainAt
  by_cases htotal : budget.totalBatches ≤ round.calls.length
  · exact ⟨round, [], by rw [if_pos htotal], .refl h⟩
  · have hindex : (start + offset) % order.length < order.length := Nat.mod_lt _ horder
    simp only [if_neg htotal, getElem?_eq_getElem hindex]
    exact drainLoop_spec atMs budget _ _ _ h

lemma drainOffsets_spec (order : List PluginId)
    (start : Nat) (offsets : List Nat) (h : round.queue.Sound) (horder : 0 < order.length) :
    ∃ round' calls, offsets.foldlM (drainAt atMs budget order start) round = some round' ∧
      Delivers round round' calls := by
  induction offsets generalizing round with
  | nil => exact ⟨round, [], rfl, .refl h⟩
  | cons offset offsets ih =>
    obtain ⟨round₁, calls, hat, hone⟩ :=
      drainAt_spec atMs budget order start offset h horder
    obtain ⟨round', calls', hrest, hmore⟩ := ih hone.sound
    refine ⟨round', calls ++ calls', ?_, hone.trans hmore⟩
    rw [foldlM_cons, hat]
    exact hrest

/-! The end of a drain. -/

namespace InboundResultQueue
variable {s : InboundResultQueue}

lemma reconcileAll_spec (atMs : Nat) (generation : Generation) (ps : List PluginId)
    (h : s.Sound) (hps : ps ⊆ s.plugins.keys) : ∃ s', s.reconcileAll atMs generation ps = some s' ∧
      s'.plugins = ps.foldl (fun t p => t.modify p (·.reconciled)) s.plugins ∧
      s'.totalBatches = s.totalBatches ∧ s'.Sound ∧ Moves s s' 0 := by
  induction ps generalizing s with
  | nil => exact ⟨s, rfl, rfl, rfl, h, .of_eq rfl rfl rfl rfl⟩
  | cons p ps ih =>
    rw [cons_subset] at hps
    obtain ⟨q, hp⟩ := isSome_iff_exists.mp ((mem_keys_iff _ p).mp hps.1)
    obtain ⟨s₁, hrec, hlabel⟩ := reconcileProducer_spec hp atMs generation
    have hkeys : ps ⊆ s₁.plugins.keys := by
      rw [hlabel.plugins, keys_modify]
      exact hps.2
    obtain ⟨s', hrest, hplugins, hb, hsound, hmoves⟩ :=
      ih (hlabel.sound h fun _ => ⟨rfl, rfl⟩) hkeys
    refine ⟨s', ?_, ?_, hb.trans hlabel.totalBatches, hsound, hlabel.moves.trans_quiet hmoves⟩
    · rw [reconcileAll, foldlM_cons, hrec]
      exact hrest
    · rw [hplugins, hlabel.plugins, foldl_cons]

/-- What a drain leaves: `n` obsolete batches dropped, then the calls made. -/
structure Drains (s : InboundResultQueue) (aggregator : α) (s' : InboundResultQueue)
    (d : Drained α) (n : Nat) : Prop where
  report : d.report = d.calls.foldl DrainReport.note { droppedObsolete := n }
  fed : Fed aggregator d.calls d.aggregator
  keys : s'.plugins.keys = s.plugins.keys
  queues : ∀ p, s'.plugins.get? p = (s.plugins.get? p).map fun q =>
    ((q.reclaimed s.active).handAll (callsOf p d.calls)).reconciled
  fronts : ∀ p, (callsOf p d.calls).map entry <+:
    (s.plugins.get? p).elim [] fun q => (q.reclaimed s.active).entries
  totalBatches : s'.totalBatches + d.calls.length + n = s.totalBatches
  moves : Moves s s' (once .droppedObsolete n + tally d.calls)

lemma drainInto_spec (h : s.Sound) (atMs : Nat) (aggregator : α) (budget : DrainBudget) :
    ∃ s' d n, s.drainInto atMs aggregator budget = some (s', d) ∧ s'.Sound ∧
      s.Drains aggregator s' d n := by
  obtain ⟨s₁, n, hreclaim, hswept⟩ := reclaimObsolete_spec h atMs
  have hkeys : s₁.plugins.keys = s.plugins.keys := by rw [hswept.plugins, keys_mapValues]
  have hget : ∀ p, s₁.plugins.get? p = (s.plugins.get? p).map (·.reclaimed s.active) := by
    intro p
    rw [hswept.plugins, get?_mapValues]
  by_cases horder : s₁.plugins.keys.length = 0
  · -- nobody is registered
    have hnone : ∀ p, s.plugins.get? p = none := by
      intro p
      rw [get?_eq_none_iff, ← hkeys, length_eq_zero_iff.mp horder]
      exact not_mem_nil
    refine ⟨s₁, ⟨aggregator, { droppedObsolete := n }, []⟩, n, ?_, hswept.sound,
      ⟨rfl, rfl, hkeys, ?_, fun _ => nil_prefix, hswept.totalBatches, ?_⟩⟩
    · simp only [drainInto, hreclaim, if_pos horder]
    · intro p
      rw [hget p, hnone p]
      rfl
    · exact hswept.moves.trans_quiet (.of_eq rfl rfl rfl rfl)
  · let round₀ : DrainRound α := ⟨s₁, aggregator, { droppedObsolete := n }, [], none⟩
    have hsound₀ : round₀.queue.Sound := hswept.sound
    obtain ⟨round, calls, hloop, hdel⟩ := drainOffsets_spec atMs budget s₁.plugins.keys
      (s₁.drainCursor % s₁.plugins.keys.length) (range s₁.plugins.keys.length) hsound₀
      (Nat.pos_of_ne_zero horder)
    let s₂ : InboundResultQueue := { round.queue with
      drainCursor := nextCursor budget s₁.plugins.keys.length
        (s₁.drainCursor % s₁.plugins.keys.length) round }
    have hsound₂ : s₂.Sound := hdel.sound.congr rfl rfl rfl rfl
    have hmoves₂ : Moves round.queue s₂ 0 := .of_eq rfl rfl rfl rfl
    have hkeys₂ : s₂.plugins.keys = s₁.plugins.keys := hdel.keys
    obtain ⟨s', hrec, hplugins, hb, hsound, hmoves⟩ := reconcileAll_spec atMs
      (s₂.active.getD s₂.retirementFloor) s₁.plugins.keys hsound₂
      (by rw [hkeys₂]; exact .refl _)
    rw [← hkeys₂, foldl_modify_all] at hplugins
    have hcalls : round.calls = calls := hdel.made.trans (nil_append calls)
    refine ⟨s', ⟨round.aggregator, round.report, round.calls⟩, n, ?_, hsound, ⟨?_, ?_, ?_, ?_, ?_,
      ?_, ?_⟩⟩
    · simp only [drainInto, hreclaim, if_neg horder, round₀] at hloop ⊢
      simp only [hloop]
      simp only [s₂] at hrec
      simp only [hrec]
    · rw [hcalls]
      exact hdel.report
    · rw [hcalls]
      exact hdel.fed
    · rw [hplugins, keys_mapValues, hkeys₂, hkeys]
    · intro p
      rw [hplugins, get?_mapValues, hcalls]
      have hqueues := hdel.queues p
      show ((round.queue.plugins.get? p).map _) = _
      rw [hqueues]
      show ((s₁.plugins.get? p).map _).map _ = _
      rw [hget p]
      cases s.plugins.get? p <;> rfl
    · intro p
      have hfronts := hdel.fronts p
      rw [hcalls]
      simp only [round₀, hget p] at hfronts
      cases hq : s.plugins.get? p with
      | none | some q => simpa [hq] using hfronts
    · have hdb := hdel.totalBatches
      have hsb := hswept.totalBatches
      show s'.totalBatches + round.calls.length + n = s.totalBatches
      rw [hb, hcalls]
      simp only [s₂, round₀] at hdb ⊢
      omega
    · rw [hcalls]
      exact (hswept.moves.trans hdel.moves).trans_quiet (hmoves₂.trans_quiet hmoves)

end InboundResultQueue
end CriKey.Intake
