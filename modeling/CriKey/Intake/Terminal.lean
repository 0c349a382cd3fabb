import CriKey.Aggregator.Stream
import CriKey.Intake.Boundary

/-! The end of a stream. While a terminal batch of the active generation waits it closes its
queue, it is not evicted, and once it is merged the aggregator takes nothing more of that
plugin and generation. -/
namespace CriKey.Intake
open CriKey.Base CriKey.Core CriKey.Aggregator List
open InboundResultQueue

namespace PluginQueue
variable {active : Option Generation} {q q' : PluginQueue}

/-- A terminal batch of the active generation is the last of its queue, and the marker says
that it is there. -/
def Capped (active : Option Generation) (q : PluginQueue) : Prop :=
  ∀ pre e post, q.entries = pre ++ e :: post → e.isTerminal = true →
    active = some e.generation → post = [] ∧ q.terminalGeneration = some e.generation

lemma Capped.suffix (h : q.Capped active) (he : q'.entries <:+ q.entries)
    (hm : q'.terminalGeneration = q.terminalGeneration) : q'.Capped active := by
  obtain ⟨front, hfront⟩ := he
  intro pre e post hsplit hterm hlive
  rw [hm]
  exact h (front ++ pre) e post (by rw [← hfront, hsplit, append_assoc]) hterm hlive

lemma Capped.mem (h : q.Capped active) {e : Entry} (he : e ∈ q.entries)
    (hterm : e.isTerminal = true) (hlive : active = some e.generation) :
    q.terminalGeneration = some e.generation := by
  obtain ⟨pre, post, hsplit⟩ := append_of_mem he
  exact (h pre e post hsplit hterm hlive).2

lemma handed_marker {c : Call} (rest : List Entry)
    (hkeep : c.entry.isTerminal = true → q.terminalGeneration = some c.entry.generation →
      c.result = .ok ()) :
    (q.handed c.entry rest c.result).terminalGeneration = q.terminalGeneration := by
  cases hres : c.result with
  | ok u => rfl
  | error reason =>
    have hno : ¬(c.entry.isTerminal = true ∧ q.terminalGeneration = some c.entry.generation) := by
      rintro ⟨hterm, hmarker⟩
      have hbad := hkeep hterm hmarker
      rw [hres] at hbad
      cases hbad
    simp only [handed, answered, reopen]
    rw [if_neg (by simpa using hno)]
    rfl

/-- Handing over the front keeps a queue capped: were the front the marked terminal, it would
have been the last entry. -/
lemma Capped.handed {c : Call} {rest : List Entry} (h : q.Capped active)
    (hq : q.entries = c.entry :: rest) : (q.handed c.entry rest c.result).Capped active := by
  intro pre e post hsplit hterm hlive
  rw [handed_entries] at hsplit
  have hwhole : q.entries = (c.entry :: pre) ++ e :: post := by rw [hq, hsplit, cons_append]
  obtain ⟨hpost, hmarker⟩ := h _ e post hwhole hterm hlive
  refine ⟨hpost, ?_⟩
  rw [handed_marker rest, hmarker]
  intro hcterm hcmarker
  have hsame : some e.generation = some c.entry.generation := hmarker.symm.trans hcmarker
  have hlast := (h [] c.entry rest hq hcterm (hlive.trans hsame)).1
  simp [hsplit] at hlast

variable {calls : List Call}

lemma Capped.handAll (h : q.Capped active) (hfront : calls.map Call.entry <+: q.entries) :
    (q.handAll calls).Capped active := by
  induction calls generalizing q with
  | nil => exact h
  | cons c calls ih =>
    obtain ⟨rest, hrest⟩ := hfront
    rw [map_cons, cons_append] at hrest
    have htail : q.entries.tail = calls.map Call.entry ++ rest := by rw [← hrest, tail_cons]
    have hq : q.entries = c.entry :: q.entries.tail := by rw [htail, hrest]
    refine ih (h.handed hq) ⟨rest, ?_⟩
    rw [handed_entries, htail]

lemma handAll_marker {g : Generation} (hm : q.terminalGeneration = some g)
    (hok : ∀ c ∈ calls, c.entry.isTerminal = true → c.entry.generation = g → c.result = .ok ()) :
    (q.handAll calls).terminalGeneration = some g := by
  induction calls generalizing q with
  | nil => exact hm
  | cons c calls ih =>
    refine ih ?_ fun c' hc' => hok c' (mem_cons_of_mem _ hc')
    rw [handed_marker _ ?_, hm]
    intro hterm hmarker
    exact hok c mem_cons_self hterm (Option.some.inj (hmarker.symm.trans hm))

lemma Capped.queueStep {es : List Entry} (h : q.Capped active)
    (hstep : QueueStep active q es calls q') : q'.Capped active := by
  have hreclaimed : (q.reclaimed active).Capped active := h.suffix (reclaimed_suffix _) rfl
  cases hstep with
  | same => exact h
  | reclaimed label => exact hreclaimed
  | drained fronts => exact hreclaimed.handAll fronts
  | @admitted atMs inbound q₁ k current connected unfinished start batches items =>
    have hq₁ : q₁.entries.drop k <:+ q.entries := by
      refine (drop_suffix k _).trans ?_
      cases start with
      | inl hq => rw [hq.1]
      | inr hq => rw [hq]; exact reclaimed_suffix _
    intro pre e post hsplit hterm hlive
    have hnew : q₁.entries.drop k ++ [⟨atMs, inbound⟩] = pre ++ e :: post := hsplit
    cases eq_nil_or_concat post with
    | inl hnil =>
      -- the new batch itself
      rw [hnil] at hnew ⊢
      obtain ⟨-, hlast⟩ := append_inj' hnew rfl
      obtain rfl : e = ⟨atMs, inbound⟩ := by simpa using hlast.symm
      refine ⟨rfl, ?_⟩
      exact if_pos hterm
    | inr hcons =>
      -- a terminal that was there before would have turned the batch away
      obtain ⟨post', last, hpost⟩ := hcons
      rw [hpost, concat_eq_append, ← cons_append, ← append_assoc] at hnew
      obtain ⟨hkept, -⟩ := append_inj' hnew rfl
      have hmem : e ∈ q.entries := hq₁.subset (by rw [hkept]; simp)
      have hmarker := h.mem hmem hterm hlive
      rw [← hlive, current] at hmarker
      exact absurd hmarker unfinished

lemma Capped.turn {s s' : InboundResultQueue} (h : q.Capped s.active) (horder : q.InOrder s)
    (hturn : s.epoch.Turn s'.epoch) : q.Capped s'.active := by
  intro pre e post hsplit hterm hlive
  have hmem : e ∈ q.entries := by rw [hsplit]; simp
  exact h pre e post hsplit hterm (hturn.active_of (horder.below e hmem) hlive)

/-- The waiting terminals of the active generation. -/
def liveTerminals (active : Option Generation) (entries : List Entry) : List Entry :=
  entries.filter fun e => e.isTerminal && !obsolete active e

lemma liveTerminals_reclaimed :
    liveTerminals active (q.reclaimed active).entries = liveTerminals active q.entries := by
  have hfront : liveTerminals active (q.entries.takeWhile (obsolete active)) = [] := by
    rw [liveTerminals, filter_eq_nil_iff]
    intro e he
    have hobs : obsolete active e = true := all_eq_true.mp all_takeWhile e he
    simp [hobs]
  have hsplit : q.entries = q.entries.takeWhile (obsolete active) ++
      (q.reclaimed active).entries := takeWhile_append_dropWhile.symm
  conv_rhs => rw [hsplit, liveTerminals, filter_append]
  rw [liveTerminals] at hfront
  rw [hfront]
  rfl

lemma Capped.liveTerminals_kept {es : List Entry} (h : q.Capped active)
    (hstep : QueueStep active q es [] q') :
    (liveTerminals active q.entries).Sublist q'.entries := by
  have hreclaimed : (liveTerminals active q.entries).Sublist (q.reclaimed active).entries := by
    rw [← liveTerminals_reclaimed]
    exact filter_sublist
  generalize hcalls : ([] : List Call) = calls at hstep
  cases hstep with
  | same => exact filter_sublist
  | reclaimed label => exact hreclaimed
  | drained fronts =>
    rw [← hcalls]
    exact hreclaimed
  | admitted current connected unfinished start batches items =>
    have hnone : liveTerminals active q.entries = [] := by
      rw [liveTerminals, filter_eq_nil_iff]
      intro e he hlive
      obtain ⟨hterm, hactive⟩ : e.isTerminal = true ∧ active = some e.generation := by
        simpa [obsolete] using hlive
      have hmarker := h.mem he hterm hactive
      rw [← hactive, current] at hmarker
      exact unfinished hmarker
    rw [hnone]
    exact nil_sublist _

end PluginQueue

open PluginQueue

variable {α : Type} [ResultAggregator α]

/-- What every reachable intake has. -/
structure Regular (s : InboundResultQueue) : Prop where
  sound : s.Sound
  inOrder : InOrder s
  capped : ∀ p q, s.plugins.get? p = some q → q.Capped s.active

lemma Regular.new (limits : QueueLimits) : Regular (.new limits) where
  sound := sound_new limits
  inOrder := fun p q hq => by simp [InboundResultQueue.new] at hq
  capped := fun p q hq => by simp [InboundResultQueue.new] at hq

variable {s s' : InboundResultQueue}

variable {o : Output α}

lemma Regular.step {op : Op α} (h : Regular s) (hstep : step s op = some (s', o)) : Regular s' := by
  refine ⟨step_sound h.sound hstep, inOrder_step h.sound h.inOrder hstep, ?_⟩
  intro p q' hq'
  have hturn := (step_turn h.sound hstep).2
  have hchange := step_change h.sound hstep p
  rw [hq'] at hchange
  generalize hbefore : s.plugins.get? p = before at hchange
  cases hchange with
  | registered call answer => exact fun pre e post hsplit => by simp at hsplit
  | @reregistered policy q call answer =>
    have hq : (q.reregister s.active (normalizePolicy policy)).Capped s.active :=
      (h.capped p q hbefore).suffix suffix_rfl rfl
    exact hq.turn ((h.inOrder p q hbefore).of_entries rfl) hturn
  | @changed q _ other change =>
    exact ((h.capped p q hbefore).queueStep change).turn
      ((h.inOrder p q hbefore).queueStep change) hturn

variable {atMs : Nat} {inbound : InboundBatch}

lemma Regular.submit_keeps (h : Regular s)
    (hstep : Intake.step s (.submit atMs inbound) = some (s', o)) (p : PluginId) :
    (liveTerminals s.active (resident p s)).Sublist (resident p s') := by
  obtain ⟨result, rfl, -⟩ := step_submit h.sound hstep
  have hchange := step_change h.sound hstep p
  unfold resident
  generalize hbefore : s.plugins.get? p = before at hchange
  generalize s'.plugins.get? p = after at hchange
  cases hchange with
  | absent admitted handed => exact .slnil
  | registered call answer => cases call
  | reregistered call answer => cases call
  | removed call answer => cases call
  | @changed q q' other change => exact (h.capped p q hbefore).liveTerminals_kept change

/-! A closed queue. -/

/-- Nothing of the generation of `terminal` gets into the queue of `p`: the generation has
passed, or `terminal` set the marker and is the only terminal of it that can be there. -/
structure Shut (p : PluginId) (terminal : Entry) (s : InboundResultQueue) : Prop where
  below : s.epoch.Below terminal.generation
  closed : s.active = some terminal.generation → ∃ q, s.plugins.get? p = some q ∧
    q.terminalGeneration = some terminal.generation ∧
    ∀ e ∈ q.entries, e.isTerminal = true → e.generation = terminal.generation → e = terminal

variable {state : ProducerState}

lemma submission_eligible (h : s.Submission atMs inbound s' (.ok state)) :
    ∃ q, s.Eligible inbound q := by
  generalize hr : (Except.ok state : Except QueueReject ProducerState) = result at h
  cases h with
  | turned why plugins totalBatches moves => cases hr
  | entered eligible room plugins totalBatches moves => exact ⟨_, eligible⟩
  | decided eligible swept decision => exact ⟨_, eligible⟩

lemma Shut.refuses {terminal : Entry} (hsound : s.Sound) (h : Shut inbound.batch.plugin terminal s)
    (hgen : inbound.batch.generation = terminal.generation) :
    step s (.submit atMs inbound : Op α) ≠ some (s', .submitted (.ok state)) := by
  intro hstep
  obtain ⟨result, hresult, hspec⟩ := step_submit hsound hstep
  obtain rfl : result = .ok state := by simpa using hresult.symm
  obtain ⟨q, eligible⟩ := submission_eligible hspec
  obtain ⟨q', hq', hmarker, -⟩ := h.closed (hgen ▸ eligible.current)
  obtain rfl : q = q' := Option.some.inj (eligible.registered.symm.trans hq')
  exact eligible.unfinished (hgen ▸ hmarker)

lemma Regular.shut_of_admission (h : Regular s) (hterm : inbound.batch.state.isTerminal = true)
    (hstep : Intake.step s (.submit atMs inbound : Op α) = some (s', .submitted (.ok state))) :
    Shut inbound.batch.plugin ⟨atMs, inbound⟩ s' := by
  obtain ⟨result, hresult, hspec⟩ := step_submit h.sound hstep
  obtain rfl : result = .ok state := by simpa using hresult.symm
  obtain ⟨q, eligible⟩ := submission_eligible hspec
  obtain ⟨n, k, hmoves, -⟩ := hspec.books
  have hactive : s'.epoch.active = some inbound.batch.generation :=
    hmoves.active.trans eligible.current
  refine ⟨(Epoch.below_of_some hactive).mpr le_rfl, fun _ => ?_⟩
  have hchange := step_change h.sound hstep inbound.batch.plugin
  rw [eligible.registered] at hchange
  generalize s'.plugins.get? inbound.batch.plugin = after at hchange
  cases hchange with
  | reregistered call answer => cases call
  | removed call answer => cases call
  | @changed _ q' other change =>
    have hone : admittedTo inbound.batch.plugin (.submit atMs inbound : Op α)
        (.submitted (.ok state)) = [⟨atMs, inbound⟩] := if_pos rfl
    rw [hone] at change
    obtain ⟨kept, hkept, hentries⟩ := change.entries
    refine ⟨q', rfl, ?_, ?_⟩
    · generalize hes : [(⟨atMs, inbound⟩ : Entry)] = es at change
      cases change with
      | same | reclaimed | drained => simp at hes
      | admitted current connected unfinished start batches items =>
        obtain ⟨rfl, rfl⟩ := hes
        exact if_pos hterm
    · intro e he heterm hegen
      rw [hentries, mem_append] at he
      cases he with
      | inl hold =>
        -- an older terminal of the generation would have turned this one away
        have hmem : e ∈ q.entries := hkept.subset (mem_append_right _ hold)
        have hlive : s.active = some e.generation := by rw [hegen]; exact eligible.current
        have hmarker := (h.capped _ q eligible.registered).mem hmem heterm hlive
        rw [hegen] at hmarker
        exact absurd hmarker eligible.unfinished
      | inr hnew => exact mem_singleton.mp hnew

lemma Shut.step {p : PluginId} {terminal : Entry} {op : Op α} (hsound : s.Sound)
    (h : Shut p terminal s) (hstep : step s op = some (s', o)) (hstay : op ≠ .unregister p)
    (hok : ∀ c ∈ handedFrom p o, c.entry = terminal → c.result = .ok ()) : Shut p terminal s' := by
  have hturn := (step_turn hsound hstep).2
  refine ⟨hturn.below h.below, ?_⟩
  intro hactive
  have hbefore : s.active = some terminal.generation := hturn.active_of h.below hactive
  obtain ⟨q, hq, hmarker, honly⟩ := h.closed hbefore
  have hchange := step_change hsound hstep p
  rw [hq] at hchange
  generalize s'.plugins.get? p = after at hchange
  cases hchange with
  | removed call answer => exact absurd call hstay
  | reregistered call answer => exact ⟨_, rfl, hmarker, honly⟩
  | @changed _ q' other change =>
    generalize admittedTo p op o = es at change
    generalize handedFrom p o = calls at change hok
    cases change with
    | same => exact ⟨q, rfl, hmarker, honly⟩
    | reclaimed label =>
      exact ⟨_, rfl, hmarker, fun e he => honly e ((reclaimed_suffix s.active).subset he)⟩
    | admitted current connected unfinished start batches items =>
      rw [← current, hbefore] at unfinished
      exact absurd hmarker unfinished
    | drained fronts =>
      have hfront := fronts.subset
      have hsuffix := (reclaimed_suffix (q := q) s.active).subset
      refine ⟨_, rfl, ?_, ?_⟩
      · have hkept : (q.reclaimed s.active).terminalGeneration = some terminal.generation := hmarker
        refine handAll_marker hkept ?_
        intro c hc hterm hgen
        have hmem : c.entry ∈ q.entries := hsuffix (hfront (mem_map_of_mem hc))
        exact hok c hc (honly c.entry hmem hterm hgen)
      · intro e he
        refine honly e (hsuffix ?_)
        rw [handAll_entries fronts]
        exact mem_append_right _ he

/-! The merged stream. -/

/-- After a merged terminal no batch of its plugin and generation is merged. -/
def Final (c c' : Call) : Prop :=
  c.result = .ok () → c.entry.isTerminal = true → c'.entry.plugin = c.entry.plugin →
    c'.entry.generation = c.entry.generation → c'.result ≠ .ok ()

/-- The calls so far are final, and the aggregator knows the streams that ended. -/
structure Closing (calls : List Call) (a : MemoryResultAggregator) : Prop where
  final : calls.Pairwise Final
  ended : ∀ c ∈ calls, c.result = .ok () → c.entry.isTerminal = true →
    a.Ended c.entry.plugin c.entry.generation

lemma Closing.call {calls : List Call} {a : MemoryResultAggregator} {c : Call}
    (h : Closing calls a) (hc : (a.accept c.entry.inbound.batch).2 = c.result) :
    Closing (calls ++ [c]) (a.accept c.entry.inbound.batch).1 := by
  refine ⟨?_, ?_⟩
  · rw [pairwise_append]
    refine ⟨h.final, pairwise_singleton _ _, ?_⟩
    intro c₁ hc₁ c₂ hc₂ hok hterm hplugin hgen
    obtain rfl := mem_singleton.mp hc₂
    have hended := h.ended c₁ hc₁ hok hterm
    rw [← hplugin, ← hgen] at hended
    rw [← hc]
    exact hended.refuses
  · intro c₁ hc₁ hok hterm
    rw [mem_append, mem_singleton] at hc₁
    cases hc₁ with
    | inl hold => exact (h.ended c₁ hold hok hterm).accept _
    | inr hnew =>
      subst hnew
      exact MemoryResultAggregator.ended_of_accept (hc.trans hok) hterm

lemma Closing.fed {calls calls' : List Call} {a a' : MemoryResultAggregator}
    (h : Closing calls a) (hfed : Fed a calls' a') : Closing (calls ++ calls') a' := by
  induction calls' generalizing calls a with
  | nil =>
    rwa [append_nil, hfed]
  | cons c calls' ih =>
    have hnext := ih (h.call hfed.1) hfed.2
    rwa [append_assoc] at hnext

namespace Boundary

/-- The calls of the aggregator along a trace. -/
def calls (tr : List (Op × Output)) : List Call := tr.flatMap fun io => io.2.calls

lemma handed_calls (p : PluginId) {o : Intake.Output MemoryResultAggregator} {c : Call}
    (hc : c ∈ handedFrom p o) : c ∈ (Output.intake o).calls := by
  cases o with
  | drained d => exact (mem_filter.mp hc).1
  | done | unregistered | submitted => exact absurd hc not_mem_nil

variable {o : Output} {s s' : Boundary} {op : Op}

lemma regular_step (h : Regular s.intake) (hstep : step s op = some (s', o)) :
    Regular s'.intake := by
  cases step_change hstep with
  | intake call aggregator => exact h.step call
  | beside intake aggregator calls other => rwa [intake]

variable {limits : QueueLimits} {results : ResultLimits} {t : Boundary}

lemma regular_exec {tr : List (Op × Output)} (h : Exec step (new limits results) tr t) :
    Regular t.intake := by
  refine Exec.invariant (fun _ t => Regular t.intake) (Regular.new limits) ?_ h
  intro tr t op t' o _ ih hstep
  exact regular_step ih hstep

lemma closing_step {made : List Call} (hregular : Regular s.intake)
    (h : Closing made s.aggregator) (hstep : step s op = some (s', o)) :
    Closing (made ++ o.calls) s'.aggregator := by
  cases step_change hstep with
  | @intake op o call aggregator =>
    rw [aggregator]
    have hanswered := step_answered hregular.sound call
    generalize hop : op.into s.aggregator = op' at hanswered
    generalize s'.intake = after at hanswered
    cases hanswered with
    | drained drains =>
      rw [op.into_drainInto hop] at drains
      exact h.fed drains.fed
    | registered | unregistered | begun | retired | submitted =>
      simpa [Output.calls, Intake.Output.aggregator] using h
  | beside intake aggregator calls other =>
    rw [calls, append_nil]
    refine ⟨h.final, ?_⟩
    intro c hc hok hterm
    have hended := h.ended c hc hok hterm
    generalize s'.aggregator = a' at aggregator
    cases aggregator with
    | step call => exact hended.step call
    | limits pluginLimits => exact hended.congr rfl rfl rfl

lemma closing_exec {tr : List (Op × Output)} (h : Exec step (new limits results) tr t) :
    Closing (calls tr) t.aggregator := by
  refine Exec.invariant (fun tr t => Closing (calls tr) t.aggregator) ?_ ?_ h
  · exact ⟨.nil, fun c hc => absurd hc not_mem_nil⟩
  · intro tr t op t' o hexec ih hstep
    have hcalls : calls (tr ++ [(op, o)]) = calls tr ++ o.calls := by simp [calls]
    rw [hcalls]
    exact closing_step (regular_exec hexec) ih hstep

/-- The call ends the hold of an admitted terminal on its queue: the plugin goes, or the
terminal is handed over and not merged. -/
def Releases (terminal : Entry) (io : Op × Output) : Prop :=
  io.1 = .intake (.unregister terminal.plugin) ∨
    ∃ c ∈ io.2.calls, c.entry = terminal ∧ c.result ≠ .ok ()

lemma shut_step (terminal : Entry) (hregular : Regular s.intake)
    (h : Shut terminal.plugin terminal s.intake) (hstep : step s op = some (s', o))
    (hkept : ¬Releases terminal (op, o)) : Shut terminal.plugin terminal s'.intake := by
  rw [Releases, not_or] at hkept
  cases step_change hstep with
  | beside intake aggregator calls other => rwa [intake]
  | @intake op o call aggregator =>
    refine h.step hregular.sound call ?_ ?_
    · intro hop
      apply hkept.1
      cases op with
      | unregister a =>
        simp only [Op.into, Intake.Op.unregister.injEq] at hop
        rw [hop]
      | register | beginGeneration | retireBefore | submit | drainInto => cases hop
    · intro c hc hterm
      by_contra hbad
      exact hkept.2 ⟨c, handed_calls _ hc, hterm, hbad⟩

/-- Between the admission of a terminal and that of another batch of its plugin and
generation one of the calls released the queue. -/
lemma released_between {tr₁ tr₂ tr₃ : List (Op × Output)} {at₁ at₂ : Nat} {b₁ b₂ : InboundBatch}
    {st₁ st₂ : ProducerState} (h : Exec step (new limits results)
      (tr₁ ++ (.intake (.submit at₁ b₁), .intake (.submitted (.ok st₁))) ::
        (tr₂ ++ (.intake (.submit at₂ b₂), .intake (.submitted (.ok st₂))) :: tr₃)) t)
    (hterm : b₁.batch.state.isTerminal = true) (hplugin : b₂.batch.plugin = b₁.batch.plugin)
    (hgen : b₂.batch.generation = b₁.batch.generation) : ∃ io ∈ tr₂, Releases ⟨at₁, b₁⟩ io := by
  by_contra hnone
  have hquiet : ∀ io ∈ tr₂, ¬Releases ⟨at₁, b₁⟩ io := fun io hio hrel => hnone ⟨io, hio, hrel⟩
  obtain ⟨s₁, s₂, hs₁, hfirst, hrest⟩ := h.split_at
  obtain ⟨s₃, s₄, hbetween, hsecond, -⟩ := hrest.split_at
  have hregular₁ := regular_exec hs₁
  have hregular₂ := regular_step hregular₁ hfirst
  have hshut₂ : Shut b₁.batch.plugin ⟨at₁, b₁⟩ s₂.intake := by
    cases step_change hfirst with
    | intake call aggregator => exact hregular₁.shut_of_admission hterm call
    | beside intake aggregator calls other => exact absurd rfl (other _)
  -- nothing in between releases the queue
  have hall : Regular s₃.intake ∧ Shut b₁.batch.plugin ⟨at₁, b₁⟩ s₃.intake := by
    refine Exec.invariant (fun tr u => (∀ io ∈ tr, ¬Releases ⟨at₁, b₁⟩ io) →
      Regular u.intake ∧ Shut b₁.batch.plugin ⟨at₁, b₁⟩ u.intake)
      (fun _ => ⟨hregular₂, hshut₂⟩) ?_ hbetween hquiet
    intro tr u op u' o _ ih hstep hquiet
    obtain ⟨hregular, hshut⟩ := ih fun io hio => hquiet io (mem_append_left _ hio)
    exact ⟨regular_step hregular hstep,
      shut_step ⟨at₁, b₁⟩ hregular hshut hstep (hquiet (op, o) (by simp))⟩
  cases step_change hsecond with
  | intake call aggregator =>
    have hshut₃ := hall.2
    rw [← hplugin] at hshut₃
    exact hshut₃.refuses hall.1.sound hgen call
  | beside intake aggregator calls other => exact absurd rfl (other _)

/-- Along every sequence of calls: between an admitted terminal and the next admitted batch of
its plugin and generation, the plugin was unregistered or that terminal was drained and not
merged; a submission removes no waiting terminal of the active generation from any queue; and
after a merged terminal no batch of its plugin and generation is merged. -/
theorem terminal_discipline (limits : QueueLimits) (results : ResultLimits) (ops : List Op) :
    ∃ t tr, run step (new limits results) ops = some (t, tr) ∧ (∀ tr₁ at₁ b₁ st₁ tr₂ at₂ b₂ st₂ tr₃,
        tr = tr₁ ++ (.intake (.submit at₁ b₁), .intake (.submitted (.ok st₁))) ::
          (tr₂ ++ (.intake (.submit at₂ b₂), .intake (.submitted (.ok st₂))) :: tr₃) →
        b₁.batch.state.isTerminal = true → b₂.batch.plugin = b₁.batch.plugin →
        b₂.batch.generation = b₁.batch.generation →
        ∃ io ∈ tr₂, io.1 = .intake (.unregister b₁.batch.plugin) ∨
          ∃ c ∈ io.2.calls, c.entry = ⟨at₁, b₁⟩ ∧ c.result ≠ .ok ()) ∧
      (∀ atMs inbound t' o, step t (.intake (.submit atMs inbound)) = some (t', o) →
        ∀ p, ((resident p t.intake).filter fun e =>
          e.isTerminal && t.intake.active == some e.generation).Sublist (resident p t'.intake)) ∧
      (calls tr).Pairwise fun c c' => c.result = .ok () → c.entry.isTerminal = true →
        c'.entry.plugin = c.entry.plugin → c'.entry.generation = c.entry.generation →
        c'.result ≠ .ok () := by
  obtain ⟨t, tr, hrun⟩ := run_returns limits results ops
  have hexec := (exec_of_run hrun).1
  refine ⟨t, tr, hrun, ?_, ?_, (closing_exec hexec).final⟩
  · rintro tr₁ at₁ b₁ st₁ tr₂ at₂ b₂ st₂ tr₃ rfl hterm hplugin hgen
    exact released_between hexec hterm hplugin hgen
  · intro atMs inbound t' o hstep p
    cases step_change hstep with
    | intake call aggregator =>
      have hkept := (regular_exec hexec).submit_keeps call p
      have hsame : (fun e : Entry => e.isTerminal && t.intake.active == some e.generation) =
          fun e => e.isTerminal && !obsolete t.intake.active e := by
        funext e
        by_cases hlive : t.intake.active = some e.generation <;> simp [obsolete, hlive]
      rw [hsame]
      exact hkept
    | beside intake aggregator calls other => exact absurd rfl (other _)

def fourBatches : QueueLimits := ⟨4, 4, by decide, by decide⟩

def roomy : IntakePolicy := ⟨4, 4, 4, 0, .replaceOldest⟩

def batchOf (state : BatchState) : InboundBatch := ⟨⟨⟨1⟩, ⟨"files"⟩, state, []⟩, .high⟩

/-- The stream ends, the plugin is registered anew, and the stream goes on. -/
def reregistering : List Op :=
  [.intake (.register ⟨"files"⟩ roomy), .intake (.beginGeneration ⟨1⟩),
    .intake (.submit 0 (batchOf .final)), .intake (.unregister ⟨"files"⟩),
    .intake (.register ⟨"files"⟩ roomy), .intake (.submit 1 (batchOf .partial_))]

/-- A new registration forgets the marker: the second batch of the plugin and generation is
admitted although the terminal was never drained. -/
theorem admitted_after_reregistration : ∃ t tr tr₁ st₁ tr₂ st₂,
      run step (new fourBatches .default) reregistering = some (t, tr) ∧
      tr = tr₁ ++ (.intake (.submit 0 (batchOf .final)), .intake (.submitted (.ok st₁))) ::
        (tr₂ ++ [(.intake (.submit 1 (batchOf .partial_)), .intake (.submitted (.ok st₂)))]) ∧
      (batchOf .final).batch.state.isTerminal = true ∧ calls tr = [] :=
  ⟨_, _, [_, _], .running, [_, _], .running, rfl, rfl, rfl, rfl⟩

end Boundary
end CriKey.Intake
