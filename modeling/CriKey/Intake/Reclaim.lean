import CriKey.Intake.Frame

/-! Reclamation, eviction and the producer labels. From a sound state none of them fails,
and each says what it did to the queues, the totals and the counters. -/
namespace CriKey.Intake
open CriKey.Base CriKey.Core CriKey.Aggregator PluginQueue Table List Option Bool Nat

lemma once_add (c : Counter) (m n : Nat) : once c m + once c n = once c (m + n) := by
  funext c'
  by_cases hc : c' = c <;> simp [once, hc]

lemma once_zero (c : Counter) : once c 0 = 0 := by
  funext c'
  simp [once]

lemma exceeds_eq_false {current additional limit : Nat} :
    exceeds current additional limit = false ↔ additional ≤ limit - current := by
  simp [exceeds]

/-- A reclamation that went on from `r` to `r'`. -/
structure Reclamation.Advances (r r' : Reclamation) : Prop where
  sound : r'.queue.Sound
  moves : InboundResultQueue.Moves r.queue r'.queue 0
  dropped : r'.queue.totalBatches + r'.dropped = r.queue.totalBatches + r.dropped

namespace Reclamation.Advances
variable {r r' r'' : Reclamation}

lemma refl (h : r.queue.Sound) : r.Advances r := ⟨h, .of_eq rfl rfl rfl rfl, rfl⟩

lemma trans (h : r.Advances r') (h' : r'.Advances r'') : r.Advances r'' :=
  ⟨h'.sound, h.moves.trans_quiet h'.moves, h'.dropped.trans h.dropped⟩

end Reclamation.Advances

namespace InboundResultQueue
variable {s : InboundResultQueue} {p : PluginId} {q : PluginQueue}

/-! Reclamation. -/

lemma frontObsolete_eq (hp : s.plugins.get? p = some q) :
    s.frontObsolete p = q.entries.head?.any (obsolete s.active) := by
  simp [frontObsolete, hp]

variable {r : Reclamation}

lemma reclaimLoop_fresh (fuel : Nat) (h : r.queue.Sound) (hp : r.queue.plugins.get? p = some q)
    (hf : q.entries.head?.any (obsolete r.queue.active) = false) :
    reclaimLoop p fuel r = some r ∧ r.Advances r ∧
      r.queue.plugins = r.queue.plugins.modify p (·.reclaimed r.queue.active) := by
  refine ⟨?_, .refl h, ?_⟩
  · cases fuel <;> simp [reclaimLoop, frontObsolete_eq hp, hf]
  · rw [modify_fixed _ hp ((h.filed p q hp).reclaimed_of_fresh hf)]

lemma reclaimLoop_spec {fuel : Nat} (h : r.queue.Sound) (hp : r.queue.plugins.get? p = some q)
    (hfuel : q.entries.length ≤ fuel) : ∃ r', reclaimLoop p fuel r = some r' ∧ r.Advances r' ∧
      r'.queue.plugins = r.queue.plugins.modify p (·.reclaimed r.queue.active) := by
  induction fuel generalizing r q with
  | zero =>
    have hnil : q.entries = [] := length_eq_zero_iff.mp (le_zero.mp hfuel)
    exact ⟨r, reclaimLoop_fresh 0 h hp (by simp [hnil])⟩
  | succ fuel ih =>
    cases hf : q.entries.head?.any (obsolete r.queue.active) with
    | false => exact ⟨r, reclaimLoop_fresh _ h hp hf⟩
    | true =>
      obtain ⟨e, rest, hentries, hobs⟩ : ∃ e rest, q.entries = e :: rest ∧
          obsolete r.queue.active e = true := by
        cases hentries : q.entries with
        | nil => simp [hentries] at hf
        | cons e rest => exact ⟨e, rest, rfl, by simpa [hentries] using hf⟩
      obtain ⟨s₁, hpop, hplugins, hbatches, hsound, hmoves⟩ := popEntry_spec h hp hentries
      have hp₁ : s₁.plugins.get? p = some (q.hold rest) := by
        rw [hplugins, get?_modify_self, hp, map_some]
      have hrest : (q.hold rest).entries.length ≤ fuel := by
        rw [hentries] at hfuel
        exact le_of_succ_le_succ hfuel
      let r₁ : Reclamation :=
        ⟨s₁, noteDrop r.records p e.generation e.itemCount, r.dropped + 1⟩
      have hadv : r.Advances r₁ := by
        refine ⟨hsound, hmoves, ?_⟩
        show s₁.totalBatches + (r.dropped + 1) = _
        omega
      obtain ⟨r', hloop, hadv', hplugins'⟩ := ih (r := r₁) hsound hp₁ hrest
      refine ⟨r', ?_, hadv.trans hadv', ?_⟩
      · rw [reclaimLoop, if_pos (by rw [frontObsolete_eq hp, hf]), hpop]
        exact hloop
      · rw [hplugins', hmoves.active]
        show s₁.plugins.modify p _ = _
        rw [hplugins, modify_modify]
        apply modify_congr _ _ hp
        simp only [reclaimed, hold, hentries, dropWhile_cons, hobs, if_true]

lemma reclaimPlugins_spec {ps : List PluginId} (h : r.queue.Sound)
    (hps : ps ⊆ r.queue.plugins.keys) :
    ∃ r', reclaimPlugins ps r = some r' ∧ r.Advances r' ∧ r'.queue.plugins =
      ps.foldl (fun t p => t.modify p (·.reclaimed r.queue.active)) r.queue.plugins := by
  induction ps generalizing r with
  | nil => exact ⟨r, rfl, .refl h, rfl⟩
  | cons p ps ih =>
    rw [cons_subset] at hps
    obtain ⟨q, hp⟩ := isSome_iff_exists.mp ((mem_keys_iff _ p).mp hps.1)
    have hdepth : r.queue.depthOf p = q.entries.length := by simp [depthOf, hp]
    obtain ⟨r₁, hloop, hadv, hplugins⟩ := reclaimLoop_spec h hp le_rfl
    have hkeys : ps ⊆ r₁.queue.plugins.keys := by
      rw [hplugins, keys_modify]
      exact hps.2
    obtain ⟨r', hrest, hadv', hplugins'⟩ := ih hadv.sound hkeys
    refine ⟨r', ?_, hadv.trans hadv', ?_⟩
    · rw [reclaimPlugins, foldlM_cons, hdepth, hloop]
      exact hrest
    · rw [hplugins', hplugins, hadv.moves.active, foldl_cons]

lemma pushEvents_spec (events : List QueueEvent) (s : InboundResultQueue) :
    (events.foldl pushEvent s).plugins = s.plugins ∧
      (events.foldl pushEvent s).totalBatches = s.totalBatches ∧
      (events.foldl pushEvent s).totalItems = s.totalItems ∧
      Moves s (events.foldl pushEvent s) 0 := by
  induction events generalizing s with
  | nil => exact ⟨rfl, rfl, rfl, .of_eq rfl rfl rfl rfl⟩
  | cons event events ih =>
    obtain ⟨hp, hb, hi, hm⟩ := ih (s.pushEvent event)
    simp only [foldl_cons]
    exact ⟨by rw [hp, pushEvent_plugins], by rw [hb, pushEvent_totalBatches],
      by rw [hi, pushEvent_totalItems], (pushEvent_moves s event).trans_quiet hm⟩

/-- The obsolete front is off every queue, `n` batches in all. -/
structure Swept (s s' : InboundResultQueue) (n : Nat) : Prop where
  plugins : s'.plugins = s.plugins.mapValues (·.reclaimed s.active)
  totalBatches : s'.totalBatches + n = s.totalBatches
  sound : s'.Sound
  moves : Moves s s' (once .droppedObsolete n)

lemma reclaimObsolete_spec (h : s.Sound) (atMs : Nat) :
    ∃ s' n, s.reclaimObsolete atMs = some (s', n) ∧ s.Swept s' n := by
  obtain ⟨r, hloop, hadv, hplugins⟩ :=
    reclaimPlugins_spec (r := ⟨s, [], 0⟩) h (.refl s.plugins.keys)
  rw [foldl_modify_all] at hplugins
  let events := r.records.map fun record =>
    (⟨atMs, record.plugin, record.generation,
      .droppedObsolete record.batches record.items⟩ : QueueEvent)
  obtain ⟨hp, hb, hi, hm⟩ := pushEvents_spec events (r.queue.count .droppedObsolete r.dropped)
  refine ⟨_, r.dropped, ?_, hp.trans hplugins, ?_, hadv.sound.congr hp hb hi hm.limits,
    (hadv.moves.quiet_trans (count_moves _ _ _)).trans_quiet hm⟩
  · simp only [reclaimObsolete, hloop, events, foldl_map]
  · rw [hb]
    exact hadv.dropped

/-! The bounds. -/

/-- Both the queue and the boundary take one more batch of the size. -/
structure Room (s : InboundResultQueue) (q : PluginQueue) (itemCount : Nat) : Prop where
  batches : q.entries.length < q.policy.capacityBatches
  items : itemCount ≤ q.policy.capacityItems - q.items
  totalBatches : s.totalBatches < s.limits.capacityBatches
  totalItems : itemCount ≤ s.limits.capacityItems - s.totalItems

lemma room_iff (n : Nat) : ((s.violations q n).1 || (s.violations q n).2) = false ↔ s.Room q n := by
  simp only [violations, or_eq_false_iff, exceeds_eq_false]
  constructor
  · rintro ⟨⟨hb, hi⟩, htb, hti⟩
    exact ⟨by omega, hi, by omega, hti⟩
  · rintro ⟨hb, hi, htb, hti⟩
    exact ⟨⟨by omega, hi⟩, by omega, hti⟩

/-! Eviction. -/

lemma evictOldest_spec {e : Entry} {rest : List Entry} (h : s.Sound)
    (hp : s.plugins.get? p = some q) (hq : q.entries = e :: rest) (atMs : Nat) :
    ∃ s', s.evictOldest atMs p = some s' ∧ s'.plugins = s.plugins.modify p (·.hold rest) ∧
      s'.totalBatches + 1 = s.totalBatches ∧ s'.totalItems + e.itemCount = s.totalItems ∧
      s'.Sound ∧ Moves s s' (once .evictedOldest 1) := by
  obtain ⟨s₁, hpop, hplugins, hbatches, hsound, hmoves⟩ := popEntry_spec h hp hq
  have hitems : s₁.totalItems + e.itemCount = s.totalItems := by
    have hsum := sum_modify (fun q : PluginQueue => q.items) (·.hold rest) hp
    have hq' := (h.filed p q hp).items
    rw [← hplugins, ← hsound.items, ← h.items, hq', hq, load_cons] at hsum
    simp only [hold] at hsum
    omega
  refine ⟨_, by rw [evictOldest, hpop], ?_, ?_, ?_, hsound.countEvent _ _ _,
    hmoves.quiet_trans (countEvent_moves _ _ _ _)⟩
  · rw [pushEvent_plugins]
    exact hplugins
  · rw [pushEvent_totalBatches]
    exact hbatches
  · rw [pushEvent_totalItems]
    exact hitems

/-- The plugin would fit were its queue empty. -/
structure Replaceable (s : InboundResultQueue) (q : PluginQueue) (n : Nat) : Prop where
  batches : 1 ≤ q.policy.capacityBatches
  items : n ≤ q.policy.capacityItems
  totalBatches : s.totalBatches + 1 ≤ s.limits.capacityBatches + q.entries.length
  totalItems : s.totalItems + n ≤ s.limits.capacityItems + q.items

lemma preflight_spec (h : s.Sound) (hp : s.plugins.get? p = some q) (n : Nat) :
    ∃ r, s.replacementPreflight q n = some r ∧ (r = .ok () → s.Replaceable q n) := by
  unfold replacementPreflight
  have hb := h.entries_le hp
  have hi := h.load_le hp
  have hile := h.items_le
  rw [checkedSub_of_le hb, checkedSub_of_le hi]
  split
  · exact ⟨_, rfl, by simp⟩
  rename_i hown
  simp only
  split
  · exact ⟨_, rfl, by simp⟩
  · rename_i hall
    simp only [not_eq_true, or_eq_false_iff, exceeds_eq_false] at hown hall
    exact ⟨_, rfl, fun _ => ⟨by omega, by omega, by omega, by omega⟩⟩

variable {n : Nat}

lemma Replaceable.room (h : s.Sound) (hp : s.plugins.get? p = some q) (hr : s.Replaceable q n)
    (hnil : q.entries = []) : s.Room q n := by
  obtain ⟨hb, hi, htb, hti⟩ := hr
  have hitems : q.items = 0 := by rw [(h.filed p q hp).items, hnil, load_nil]
  rw [hnil] at htb
  simp only [length_nil] at htb
  exact ⟨by rw [hnil]; exact hb, by omega, by omega, by omega⟩

/-- What the eviction of `k` entries of `p` leaves. -/
structure Evicted (s s' : InboundResultQueue) (p : PluginId) (k : Nat) : Prop where
  plugins : s'.plugins = s.plugins.modify p fun q => q.hold (q.entries.drop k)
  totalBatches : s'.totalBatches + k = s.totalBatches
  sound : s'.Sound
  moves : Moves s s' (once .evictedOldest k)

lemma evictLoop_of_room (hp : s.plugins.get? p = some q) (hroom : s.Room q n) (atMs fuel : Nat) :
    evictLoop atMs p n fuel s = some s := by
  have hfull := (room_iff n).mpr hroom
  unfold evictLoop
  simp only [capacityViolations, hp, map_some, hfull]
  rfl

lemma Evicted.zero (h : s.Sound) (hp : s.plugins.get? p = some q) : s.Evicted s p 0 where
  plugins := by
    rw [modify_fixed _ hp]
    exact (h.filed p q hp).hold_self
  totalBatches := rfl
  sound := h
  moves := by
    rw [once_zero]
    exact .of_eq rfl rfl rfl rfl

/-- With its `k` oldest entries gone the plugin and the boundary take the batch. -/
def AdmitsAfter (s : InboundResultQueue) (q : PluginQueue) (n k : Nat) : Prop :=
  Room { s with
    totalBatches := s.totalBatches - k
    totalItems := s.totalItems - load (q.entries.take k) } (q.hold (q.entries.drop k)) n

lemma admitsAfter_zero (h : s.Sound) (hp : s.plugins.get? p = some q) :
    s.AdmitsAfter q n 0 ↔ s.Room q n := by
  rw [AdmitsAfter, drop_zero, (h.filed p q hp).hold_self]
  exact ⟨fun ⟨a, b, c, d⟩ => ⟨a, b, c, d⟩, fun ⟨a, b, c, d⟩ => ⟨a, b, c, d⟩⟩

lemma evictLoop_done (h : s.Sound) (hp : s.plugins.get? p = some q) (hroom : s.Room q n)
    (atMs fuel : Nat) :
    ∃ s' k, evictLoop atMs p n fuel s = some s' ∧ k ≤ q.entries.length ∧ s.Evicted s' p k ∧
      s'.Room (q.hold (q.entries.drop k)) n ∧ IsLeast {j | s.AdmitsAfter q n j} k := by
  refine ⟨s, 0, evictLoop_of_room hp hroom atMs _, zero_le _, .zero h hp, ?_,
    (admitsAfter_zero h hp).mpr hroom, fun _ _ => zero_le _⟩
  rw [drop_zero, (h.filed p q hp).hold_self]
  exact hroom

lemma evictLoop_spec {fuel : Nat} (atMs : Nat) (h : s.Sound) (hp : s.plugins.get? p = some q)
    (hr : s.Replaceable q n) (hfuel : q.entries.length ≤ fuel) :
    ∃ s' k, evictLoop atMs p n fuel s = some s' ∧ k ≤ q.entries.length ∧ s.Evicted s' p k ∧
      s'.Room (q.hold (q.entries.drop k)) n ∧ IsLeast {j | s.AdmitsAfter q n j} k := by
  induction fuel generalizing s q with
  | zero =>
    have hnil : q.entries = [] := length_eq_zero_iff.mp (le_zero.mp hfuel)
    exact evictLoop_done h hp (hr.room h hp hnil) atMs 0
  | succ fuel ih =>
    by_cases hroom : s.Room q n
    · exact evictLoop_done h hp hroom atMs _
    have hfull : ((s.violations q n).1 || (s.violations q n).2) = true := by
      rw [← not_eq_false, room_iff]
      exact hroom
    cases hentries : q.entries with
    | nil => exact absurd (hr.room h hp hentries) hroom
    | cons e rest =>
      obtain ⟨s₁, hevict, hplugins, hbatches, hitems, hsound, hmoves⟩ :=
        evictOldest_spec h hp hentries atMs
      have hp₁ : s₁.plugins.get? p = some (q.hold rest) := by
        rw [hplugins, get?_modify_self, hp, map_some]
      have hr₁ : s₁.Replaceable (q.hold rest) n := by
        have hq := (h.filed p q hp).items
        obtain ⟨hb, hi, htb, hti⟩ := hr
        rw [hentries, load_cons] at hq
        rw [hentries, length_cons] at htb
        refine ⟨hb, hi, ?_, ?_⟩
        · rw [hmoves.limits]
          simp only [hold]
          omega
        · rw [hmoves.limits]
          simp only [hold]
          omega
      rw [hentries, length_cons] at hfuel
      obtain ⟨s', k, hloop, hk, hev, hroom', hleast⟩ :=
        ih hsound hp₁ hr₁ (le_of_succ_le_succ hfuel)
      have hshift (j : Nat) : s₁.AdmitsAfter (q.hold rest) n j ↔ s.AdmitsAfter q n (j + 1) := by
        have hb : s.totalBatches - (j + 1) = s₁.totalBatches - j := by omega
        have hi : s.totalItems - (e.itemCount + load (rest.take j)) =
            s₁.totalItems - load (rest.take j) := by omega
        simp only [AdmitsAfter, hold, hentries, take_succ_cons, load_cons, hb, hi, hmoves.limits]
        constructor <;> rintro ⟨a, b, c, d⟩ <;> exact ⟨a, b, c, d⟩
      refine ⟨s', k + 1, ?_, succ_le_succ hk, ⟨?_, ?_, hev.sound, ?_⟩, hroom',
        (hshift k).mp hleast.1, fun j hj => ?_⟩
      · rw [evictLoop]
        simp only [capacityViolations, hp, map_some, hfull, hevict]
        exact hloop
      · rw [hev.plugins, hplugins, modify_modify]
        apply modify_congr _ _ hp
        simp only [hold, hentries, drop_succ_cons]
      · have := hev.totalBatches
        omega
      · rw [add_comm k 1, ← once_add]
        exact hmoves.trans hev.moves
      · cases j with
        | zero => exact absurd ((admitsAfter_zero h hp).mp hj) hroom
        | succ j => exact succ_le_succ (hleast.2 ((hshift j).mpr hj))

/-! Labels of a queue. -/

/-- Only the label of one queue changed. -/
structure Relabelled (s s' : InboundResultQueue) (p : PluginId)
    (f : PluginQueue → PluginQueue) : Prop where
  plugins : s'.plugins = s.plugins.modify p f
  totalBatches : s'.totalBatches = s.totalBatches
  totalItems : s'.totalItems = s.totalItems
  moves : Moves s s' 0

variable {f : PluginQueue → PluginQueue}

lemma Relabelled.sound {s' : InboundResultQueue} (hr : s.Relabelled s' p f) (h : s.Sound)
    (hf : ∀ q, (f q).entries = q.entries ∧ (f q).items = q.items) : s'.Sound :=
  (h.relabel f hf).congr hr.plugins hr.totalBatches hr.totalItems hr.moves.limits

section
variable (hp : s.plugins.get? p = some q)
include hp

lemma Relabelled.same (hf : f q = q) : s.Relabelled s p f :=
  ⟨(modify_fixed f hp hf).symm, rfl, rfl, .of_eq rfl rfl rfl rfl⟩

lemma Relabelled.noted {state : ProducerState} {c : Counter} (hf : { q with state := state } = f q)
    (hc : c.isNoise = true) (event : QueueEvent) :
    s.Relabelled (((s.modifyQueue p fun q => { q with state := state }).count c 1).pushEvent event)
      p f where
  plugins := by
    rw [pushEvent_plugins]
    exact modify_congr (fun q => { q with state := state }) f hp hf
  totalBatches := pushEvent_totalBatches _ _
  totalItems := pushEvent_totalItems _ _
  moves := by
    have hlabel : Moves s (s.modifyQueue p fun q => { q with state := state }) 0 :=
      .of_eq rfl rfl rfl rfl
    exact (hlabel.trans_quiet (count_noise _ hc 1)).trans_quiet (pushEvent_moves _ event)

lemma reconcileProducer_spec (atMs : Nat) (generation : Generation) :
    ∃ s', s.reconcileProducer atMs p generation = some s' ∧ s.Relabelled s' p (·.reconciled) := by
  unfold reconcileProducer
  simp only [hp]
  split
  · rename_i hsame
    exact ⟨s, rfl, .same hp (by simp only [reconciled, hsame])⟩
  · split
    · exact ⟨_, rfl, .noted hp rfl rfl _⟩
    · exact ⟨_, rfl, .noted hp rfl rfl _⟩

end

/-- The queue of a producer that is told to stop. -/
def halted (q : PluginQueue) : PluginQueue :=
  { q with state := if q.state = .running then .paused else q.state }

lemma forcePause_spec (hp : s.plugins.get? p = some q) (atMs : Nat) (generation : Generation) :
    ∃ s', s.forcePause atMs p generation = some s' ∧ s.Relabelled s' p halted := by
  unfold forcePause
  simp only [hp]
  split
  · rename_i hstate
    exact ⟨s, rfl, .same hp (by simp only [halted, if_neg hstate])⟩
  · rename_i hstate
    refine ⟨_, rfl, .noted hp ?_ rfl _⟩
    rw [halted, if_pos (not_not.mp hstate)]

end InboundResultQueue
end CriKey.Intake
