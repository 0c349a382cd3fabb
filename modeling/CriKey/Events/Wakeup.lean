import CriKey.Base.Machine
import CriKey.Events.Coalescer

/-! The deadlines the coalescer reports. A tick takes whatever is due, except for a deactivation of
a plugin whose callback runs: that one stays due, and is reported all the same. -/
namespace CriKey.Events
open CriKey.Base CriKey.Core Table Option List

namespace EventCoalescer
variable {c : EventCoalescer} {p : PluginId} {now d : Nat}

def deadlines (c : EventCoalescer) : List Nat :=
  ((c.plugins.values.filterMap (·.notice)).filter (·.kind = .deactivated)).map (·.dueAt) ++
    (c.rawBurst.map (·.deadline c.config)).toList

def nextWakeup (c : EventCoalescer) : Option Nat := c.deadlines.min?

/-- A deactivation of `p` is pending until `d`. -/
def Deactivates (c : EventCoalescer) (p : PluginId) (d : Nat) : Prop :=
  ∃ slot, c.plugins.get? p = some slot ∧ slot.notice = some ⟨.deactivated, d⟩

lemma mem_deadlines : d ∈ c.deadlines ↔
    (∃ p, c.Deactivates p d) ∨ c.rawBurst.map (·.deadline c.config) = some d := by
  simp only [deadlines, Deactivates, List.mem_append, List.mem_map, List.mem_filter,
    mem_filterMap, mem_values_iff, mem_toList, decide_eq_true_eq]
  refine or_congr_left ⟨?_, ?_⟩
  · rintro ⟨⟨kind, due⟩, ⟨⟨slot, ⟨p, hp⟩, hnotice⟩, rfl⟩, rfl⟩
    exact ⟨p, slot, hp, hnotice⟩
  · rintro ⟨p, slot, hp, hnotice⟩
    exact ⟨_, ⟨⟨slot, ⟨p, hp⟩, hnotice⟩, rfl⟩, rfl⟩

lemma nextWakeup_le (h : d ∈ c.deadlines) : ∃ w, c.nextWakeup = some w ∧ w ≤ d := by
  cases hmin : c.nextWakeup with
  | none => simp [min?_eq_none_iff.mp hmin] at h
  | some w => exact ⟨w, rfl, (min?_eq_some_iff.mp hmin).2 d h⟩

lemma deliver_notice (slot : PluginSlot) : (slot.deliver now).1.notice =
    if slot.inFlight.isSome then slot.notice else slot.notice.filter (now < ·.dueAt) := by
  unfold PluginSlot.deliver
  cases hnotice : slot.notice with
  | none => grind
  | some notice => by_cases hdue : notice.dueAt ≤ now <;> grind

lemma tick_slot : (c.tick now).1.plugins.get? p = (c.plugins.get? p).map fun slot =>
    (((c.rawBurst.filter (·.deadline c.config ≤ now)).elim slot fun burst =>
      mergePending burst.flags burst.lastAt slot).deliver now).1 := by
  simp only [tick, get?_mapValues, flushDueRawBurst]
  cases c.rawBurst with
  | none => rfl
  | some burst =>
    by_cases hdue : burst.deadline c.config ≤ now <;>
      simp [hdue, filter_some, Function.comp_def]

lemma tick_burst : (c.tick now).1.rawBurst = c.rawBurst.filter (now < ·.deadline c.config) ∧
    (c.tick now).1.config = c.config := by
  simp only [tick, flushDueRawBurst]
  cases hburst : c.rawBurst with
  | none => exact ⟨hburst, rfl⟩
  | some burst =>
    by_cases hdue : burst.deadline c.config ≤ now <;> simp [hdue, hburst, filter_some]

/-- What is left of the deactivations after a tick. -/
lemma tick_deactivates : (c.tick now).1.Deactivates p d ↔ c.Deactivates p d ∧
    (now < d ∨ ∃ slot, c.plugins.get? p = some slot ∧ slot.inFlight.isSome) := by
  have hkept (slot : PluginSlot) (burst : Option RawBurst) : ((burst.elim slot fun burst =>
      mergePending burst.flags burst.lastAt slot).deliver now).1.notice =
      if slot.inFlight.isSome then slot.notice else slot.notice.filter (now < ·.dueAt) := by
    rw [deliver_notice]
    cases burst <;> rfl
  unfold Deactivates
  rw [tick_slot]
  cases hp : c.plugins.get? p with
  | none => simp
  | some slot =>
    simp only [map_some, some.injEq, exists_eq_left']
    cases hnotice : slot.notice <;> grind

/-- A tick at `now` takes the open burst or a pending deactivation. -/
def Handles (c : EventCoalescer) (now : Nat) : Prop :=
  (c.rawBurst.isSome ∧ (c.tick now).1.rawBurst = none) ∨
    ∃ p d, c.Deactivates p d ∧ ¬(c.tick now).1.Deactivates p d

/-- After a tick the next deadline lies ahead exactly when no plugin whose callback runs has a
deactivation that is due; and whatever a later tick would take, the coalescer asks to be woken for
in time. -/
theorem wakeup_ahead_iff (c : EventCoalescer) (now : Nat) :
    ((∀ w, (c.tick now).1.nextWakeup = some w → now < w) ↔
      ∀ p slot d, c.plugins.get? p = some slot → slot.inFlight.isSome →
        slot.notice = some ⟨.deactivated, d⟩ → now < d) ∧
      ∀ later, (c.tick now).1.Handles later →
        ∃ w, (c.tick now).1.nextWakeup = some w ∧ w ≤ later := by
  refine ⟨⟨?_, ?_⟩, ?_⟩
  · intro hahead p slot d hp hrun hnotice
    have hleft : (c.tick now).1.Deactivates p d :=
      tick_deactivates.mpr ⟨⟨slot, hp, hnotice⟩, .inr ⟨slot, hp, hrun⟩⟩
    obtain ⟨w, hw, hle⟩ := nextWakeup_le (mem_deadlines.mpr (.inl ⟨p, hleft⟩))
    exact (hahead w hw).trans_le hle
  · intro hfree w hw
    rcases mem_deadlines.mp (min?_eq_some_iff.mp hw).1 with ⟨p, hleft⟩ | hburst
    · obtain ⟨⟨slot, hp, hnotice⟩, hlate | ⟨slot', hp', hrun⟩⟩ := tick_deactivates.mp hleft
      · exact hlate
      · obtain rfl := some.inj (hp.symm.trans hp')
        exact hfree p slot w hp hrun hnotice
    · rw [tick_burst.1, tick_burst.2] at hburst
      obtain ⟨burst, hkept, rfl⟩ := map_eq_some_iff.mp hburst
      exact of_decide_eq_true (filter_eq_some_iff.mp hkept).2
  · rintro later (⟨hopen, htaken⟩ | ⟨p, d, hpending, htaken⟩)
    · obtain ⟨burst, hburst⟩ := isSome_iff_exists.mp hopen
      rw [tick_burst.1, hburst] at htaken
      have hdue : burst.deadline (c.tick now).1.config ≤ later := by grind
      obtain ⟨w, hw, hle⟩ := nextWakeup_le (mem_deadlines.mpr (.inr (by rw [hburst]; rfl)))
      exact ⟨w, hw, hle.trans hdue⟩
    · obtain ⟨w, hw, hle⟩ := nextWakeup_le (mem_deadlines.mpr (.inl ⟨p, hpending⟩))
      have hdue : d ≤ later := by
        by_contra hlate
        exact htaken (tick_deactivates.mpr ⟨hpending, .inl (by omega)⟩)
      exact ⟨w, hw, hle.trans hdue⟩

end EventCoalescer

/-- A deactivation behind a running callback is due at 50 and still the next deadline at 100. -/
theorem wakeup_behind_callback : ∃ c tr,
    run step (.new ⟨10, 10, 50⟩) [.register ⟨"p"⟩, .beginCallback ⟨"p"⟩ .onSuggest 0,
      .deactivated ⟨"p"⟩ 0, .tick 100] = some (c, tr) ∧ c.nextWakeup = some 50 :=
  ⟨_, _, rfl, rfl⟩

end CriKey.Events
