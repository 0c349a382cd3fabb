import CriKey.Intake.Drain

/-! What the building blocks of the intake do to its queues, totals and counters. From a
state whose totals are right every block succeeds, and the totals stay right. -/
namespace CriKey.Intake
open CriKey.Base CriKey.Core CriKey.Aggregator Table

def load (entries : List Entry) : Nat := (entries.map (·.itemCount)).sum

@[simp] lemma load_nil : load [] = 0 := rfl

@[simp] lemma load_cons (e : Entry) (es : List Entry) : load (e :: es) = e.itemCount + load es := by
  simp [load]

@[simp] lemma load_append (es fs : List Entry) : load (es ++ fs) = load es + load fs := by
  simp [load]

namespace PluginQueue
variable (q : PluginQueue)

/-- The queue with other entries, counted right. -/
def hold (entries : List Entry) : PluginQueue :=
  { q with entries := entries, items := load entries }

/-- The entries are of the plugin and counted right. -/
structure Filed (p : PluginId) : Prop where
  items : q.items = load q.entries
  owned : ∀ e ∈ q.entries, e.plugin = p

/-- The queue without its obsolete front. -/
def reclaimed (active : Option Generation) : PluginQueue :=
  q.hold (q.entries.dropWhile (obsolete active))

/-- The queue at its watermark. -/
def reconciled : PluginQueue :=
  { q with state := q.state.atDepth q.policy q.entries.length }

def pushed (atMs : Nat) (inbound : InboundBatch) : PluginQueue :=
  { q with
    items := q.items + inbound.batch.items.length
    terminalGeneration :=
      if inbound.batch.state.isTerminal then some inbound.batch.generation
      else q.terminalGeneration
    entries := q.entries ++ [⟨atMs, inbound⟩] }

/-- What an answer of the aggregator does to the marker. -/
def answered (entry : Entry) (result : Except RejectReason Unit) : PluginQueue :=
  match result with
  | .ok () => q
  | .error _ => q.reopen entry

/-- The queue after its front was handed over with the answer. -/
def handed (entry : Entry) (rest : List Entry) (result : Except RejectReason Unit) : PluginQueue :=
  (q.hold rest).answered entry result

variable {q} {p : PluginId}

@[simp] lemma new_entries (policy : IntakePolicy) : (new policy).entries = [] := rfl

@[simp] lemma reregister_entries (active : Option Generation) (policy : IntakePolicy) :
    (q.reregister active policy).entries = q.entries := rfl

@[simp] lemma hold_terminalGeneration (entries : List Entry) :
    (q.hold entries).terminalGeneration = q.terminalGeneration := rfl

lemma Filed.hold_self (h : q.Filed p) : q.hold q.entries = q := by
  have hitems := h.items
  cases q
  simp only [hold] at hitems ⊢
  rw [hitems]

lemma Filed.hold {entries : List Entry} (h : q.Filed p) (hsub : entries ⊆ q.entries) :
    (q.hold entries).Filed p :=
  ⟨rfl, fun e he => h.owned e (hsub he)⟩

lemma Filed.reclaimed_of_fresh {active : Option Generation} (h : q.Filed p)
    (hf : q.entries.head?.any (obsolete active) = false) : q.reclaimed active = q := by
  have hsame : q.entries.dropWhile (obsolete active) = q.entries := by
    cases hq : q.entries with
    | nil => rfl
    | cons e rest =>
      have he : obsolete active e = false := by simpa [hq] using hf
      simp [he]
  rw [reclaimed, hsame, h.hold_self]

lemma reopen_entries (entry : Entry) : (q.reopen entry).entries = q.entries := by
  unfold reopen
  split <;> rfl

lemma reopen_items (entry : Entry) : (q.reopen entry).items = q.items := by
  unfold reopen
  split <;> rfl

lemma answered_entries (entry : Entry) (result : Except RejectReason Unit) :
    (q.answered entry result).entries = q.entries := by
  cases result with
  | ok _ => rfl
  | error _ => exact reopen_entries entry

lemma handed_entries (entry : Entry) (rest : List Entry) (result : Except RejectReason Unit) :
    (q.handed entry rest result).entries = rest :=
  answered_entries entry result

end PluginQueue

/-- Counters that say nothing about a batch. -/
def Counter.isNoise : Counter → Bool
  | .pauses | .resumes | .eventsDropped => true
  | _ => false

/-- A counter that grew by an amount, the others as they were. -/
def once (c : Counter) (amount : Nat) (c' : Counter) : Nat := if c' = c then amount else 0

namespace InboundResultQueue
variable {s s' s'' : InboundResultQueue} {p : PluginId} {q : PluginQueue}

/-- From `s` to `s'` limits and generations stay, and unless a counter saturated the batch
counters grew by `δ`. -/
structure Moves (s s' : InboundResultQueue) (δ : Counter → Nat) : Prop where
  limits : s'.limits = s.limits
  retirementFloor : s'.retirementFloor = s.retirementFloor
  active : s'.active = s.active
  counts : s'.diagnostics.countersSaturated = false → s.diagnostics.countersSaturated = false ∧
      ∀ c, c.isNoise = false → s'.diagnostics.counters c = s.diagnostics.counters c + δ c

namespace Moves
variable {δ δ' : Counter → Nat}

lemma of_eq (hl : s'.limits = s.limits) (hf : s'.retirementFloor = s.retirementFloor)
    (ha : s'.active = s.active) (hd : s'.diagnostics = s.diagnostics) : Moves s s' 0 :=
  ⟨hl, hf, ha, fun hs => ⟨hd ▸ hs, fun _ _ => by rw [hd]; rfl⟩⟩

lemma trans (h : Moves s s' δ) (h' : Moves s' s'' δ') : Moves s s'' (δ + δ') := by
  refine ⟨h'.limits.trans h.limits, h'.retirementFloor.trans h.retirementFloor,
    h'.active.trans h.active, ?_⟩
  intro hs
  obtain ⟨hs', hc'⟩ := h'.counts hs
  obtain ⟨hs'', hc⟩ := h.counts hs'
  refine ⟨hs'', fun c hn => ?_⟩
  rw [hc' c hn, hc c hn, Pi.add_apply, Nat.add_assoc]

lemma trans_quiet (h : Moves s s' δ) (h' : Moves s' s'' 0) : Moves s s'' δ := by
  simpa using h.trans h'

lemma quiet_trans (h : Moves s s' 0) (h' : Moves s' s'' δ) : Moves s s'' δ := by
  simpa using h.trans h'

end Moves

/-! Counters and events. -/

section
variable (s : InboundResultQueue)

lemma count_spec (c : Counter) (n : Nat)
    (hs : (s.count c n).diagnostics.countersSaturated = false) :
    s.diagnostics.countersSaturated = false ∧
      ∀ c', (s.count c n).diagnostics.counters c' = s.diagnostics.counters c' + once c n c' := by
  unfold count QueueDiagnostics.add addCounter at *
  cases hadd : checkedAdd (s.diagnostics.counters c) n with
  | none => simp [hadd] at hs
  | some value =>
    have hvalue := checkedAdd_eq_some hadd
    simp only [hadd] at hs ⊢
    refine ⟨hs, fun c' => ?_⟩
    by_cases hc : c' = c
    · simp [once, hc, hvalue]
    · simp [once, hc]

lemma count_moves (c : Counter) (n : Nat) : Moves s (s.count c n) (once c n) :=
  ⟨rfl, rfl, rfl, fun hs =>
    ⟨(count_spec s c n hs).1, fun c' _ => (count_spec s c n hs).2 c'⟩⟩

lemma count_noise {c : Counter} (hc : c.isNoise = true) (n : Nat) : Moves s (s.count c n) 0 := by
  refine ⟨rfl, rfl, rfl, fun hs => ⟨(count_spec s c n hs).1, fun c' hc' => ?_⟩⟩
  have hne : c' ≠ c := fun he => by simp [he, hc] at hc'
  rw [(count_spec s c n hs).2 c', once, if_neg hne]
  rfl

section
variable (event : QueueEvent)

lemma pushEvent_spec : (s.pushEvent event).plugins = s.plugins ∧
      (s.pushEvent event).totalBatches = s.totalBatches ∧
      (s.pushEvent event).totalItems = s.totalItems ∧
      (s.pushEvent event).drainCursor = s.drainCursor ∧ Moves s (s.pushEvent event) 0 := by
  unfold pushEvent
  simp only
  split
  · exact ⟨rfl, rfl, rfl, rfl, count_noise s rfl 1⟩
  split
  · have hring : Moves s { s with events := s.events.tail } 0 := .of_eq rfl rfl rfl rfl
    have hcount := count_noise { s with events := s.events.tail } (c := .eventsDropped) rfl 1
    exact ⟨rfl, rfl, rfl, rfl, (hring.trans_quiet hcount).trans_quiet (.of_eq rfl rfl rfl rfl)⟩
  · exact ⟨rfl, rfl, rfl, rfl, .of_eq rfl rfl rfl rfl⟩

@[simp] lemma pushEvent_plugins :
    (s.pushEvent event).plugins = s.plugins := (pushEvent_spec s event).1

@[simp] lemma pushEvent_totalBatches :
    (s.pushEvent event).totalBatches = s.totalBatches := (pushEvent_spec s event).2.1

@[simp] lemma pushEvent_totalItems :
    (s.pushEvent event).totalItems = s.totalItems := (pushEvent_spec s event).2.2.1

lemma pushEvent_moves : Moves s (s.pushEvent event) 0 := (pushEvent_spec s event).2.2.2.2

end

lemma countEvent_moves (c : Counter) (n : Nat) (event : QueueEvent) :
    Moves s ((s.count c n).pushEvent event) (once c n) :=
  (count_moves s c n).trans_quiet (pushEvent_moves _ event)

end

/-! Totals. -/

/-- The redundant totals are right and within the limits. -/
structure Sound (s : InboundResultQueue) : Prop where
  filed : ∀ p q, s.plugins.get? p = some q → q.Filed p
  batches : s.totalBatches = s.plugins.sum (·.entries.length)
  items : s.totalItems = s.plugins.sum (·.items)
  batches_le : s.totalBatches ≤ s.limits.capacityBatches
  items_le : s.totalItems ≤ s.limits.capacityItems

namespace Sound

lemma congr (h : s.Sound) (hp : s'.plugins = s.plugins) (hb : s'.totalBatches = s.totalBatches)
    (hi : s'.totalItems = s.totalItems) (hl : s'.limits = s.limits) : s'.Sound where
  filed := by rw [hp]; exact h.filed
  batches := by rw [hp, hb]; exact h.batches
  items := by rw [hp, hi]; exact h.items
  batches_le := by rw [hb, hl]; exact h.batches_le
  items_le := by rw [hi, hl]; exact h.items_le

lemma countEvent (h : s.Sound) (c : Counter) (n : Nat) (event : QueueEvent) :
    ((s.count c n).pushEvent event).Sound :=
  h.congr (pushEvent_plugins _ event) (pushEvent_totalBatches _ event)
    (pushEvent_totalItems _ event) (countEvent_moves s c n event).limits

lemma modify {f : PluginQueue → PluginQueue} (h : s.Sound) (hp : s.plugins.get? p = some q)
    (hplugins : s'.plugins = s.plugins.modify p f) (hf : (f q).Filed p)
    (hb : s'.totalBatches + q.entries.length = s.totalBatches + (f q).entries.length)
    (hi : s'.totalItems + q.items = s.totalItems + (f q).items)
    (hble : s'.totalBatches ≤ s'.limits.capacityBatches)
    (hile : s'.totalItems ≤ s'.limits.capacityItems) : s'.Sound where
  filed := by
    intro p' q' hq'
    rw [hplugins] at hq'
    by_cases hpp : p' = p
    · subst hpp
      rw [get?_modify_self, hp, Option.map_some, Option.some.injEq] at hq'
      exact hq' ▸ hf
    · rw [get?_modify_ne _ _ hpp] at hq'
      exact h.filed p' q' hq'
  batches := by
    have hsum := sum_modify (fun q : PluginQueue => q.entries.length) f hp
    have hold := h.batches
    rw [hplugins]
    omega
  items := by
    have hsum := sum_modify (fun q : PluginQueue => q.items) f hp
    have hold := h.items
    rw [hplugins]
    omega
  batches_le := hble
  items_le := hile

lemma relabel (f : PluginQueue → PluginQueue) (h : s.Sound)
    (hf : ∀ q, (f q).entries = q.entries ∧ (f q).items = q.items) : (s.modifyQueue p f).Sound := by
  cases hp : s.plugins.get? p with
  | none =>
    have hsame : s.plugins.modify p f = s.plugins := modify_eq_self f hp
    exact h.congr hsame rfl rfl rfl
  | some q =>
    obtain ⟨he, hi⟩ := hf q
    refine h.modify hp rfl ?_ (by rw [he]; rfl) (by rw [hi]; rfl) h.batches_le h.items_le
    obtain ⟨hitems, howned⟩ := h.filed p q hp
    exact ⟨by rw [hi, he, hitems], by rw [he]; exact howned⟩

lemma entries_le (h : s.Sound) (hp : s.plugins.get? p = some q) :
    q.entries.length ≤ s.totalBatches := by
  rw [h.batches]
  exact le_sum (fun q : PluginQueue => q.entries.length) hp

lemma load_le (h : s.Sound) (hp : s.plugins.get? p = some q) : q.items ≤ s.totalItems := by
  rw [h.items]
  exact le_sum (fun q : PluginQueue => q.items) hp

end Sound

lemma popEntry_spec {e : Entry} {rest : List Entry} (h : s.Sound)
    (hp : s.plugins.get? p = some q) (hq : q.entries = e :: rest) :
    ∃ s', s.popEntry p = some (s', e) ∧ s'.plugins = s.plugins.modify p (·.hold rest) ∧
      s'.totalBatches + 1 = s.totalBatches ∧ s'.Sound ∧ Moves s s' 0 := by
  have hfiled := h.filed p q hp
  have hcounted : q.items = e.itemCount + load rest := by
    rw [hfiled.items, hq, load_cons]
  have hbatches := h.entries_le hp
  have hitems := h.load_le hp
  rw [hq, List.length_cons] at hbatches
  have hsub : checkedSub q.items e.itemCount = some (load rest) := by
    rw [checkedSub_of_le (by omega), hcounted, Nat.add_sub_cancel_left]
  have hsubB : checkedSub s.totalBatches 1 = some (s.totalBatches - 1) :=
    checkedSub_of_le (by omega)
  have hsubI : checkedSub s.totalItems e.itemCount = some (s.totalItems - e.itemCount) :=
    checkedSub_of_le (by omega)
  refine ⟨{ s.modifyQueue p (·.hold rest) with
      totalBatches := s.totalBatches - 1, totalItems := s.totalItems - e.itemCount },
    ?_, rfl, ?_, ?_, .of_eq rfl rfl rfl rfl⟩
  · simp only [popEntry, hp, hq, hsub, hsubB, hsubI]
    rfl
  · exact Nat.sub_add_cancel (by omega)
  · have hrest : rest ⊆ q.entries := by
      rw [hq]
      exact List.subset_cons_self e rest
    refine h.modify (f := (·.hold rest)) hp rfl (hfiled.hold hrest) ?_ ?_ ?_ ?_
    · simp only [PluginQueue.hold, hq, List.length_cons]
      omega
    · simp only [PluginQueue.hold]
      omega
    · exact (Nat.sub_le _ _).trans h.batches_le
    · exact (Nat.sub_le _ _).trans h.items_le

end InboundResultQueue
end CriKey.Intake
