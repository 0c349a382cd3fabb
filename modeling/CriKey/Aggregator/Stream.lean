import CriKey.Aggregator.Refinement
import CriKey.Base.Epoch

/-! The end of a plugin's stream. Once a terminal batch is retained, nothing more of that
plugin and generation is accepted, whatever is called in between. -/
namespace CriKey.Aggregator
open CriKey.Base CriKey.Core Option

namespace MemoryResultAggregator
variable {a a' : MemoryResultAggregator} {p : PluginId} {g : Generation} {batch : ResultBatch}

def epoch (a : MemoryResultAggregator) : Epoch Generation := ⟨a.retirementFloor, a.active⟩

/-- The stream of the plugin has ended for the generation, or the generation has passed. -/
structure Ended (a : MemoryResultAggregator) (p : PluginId) (g : Generation) : Prop where
  below : a.epoch.Below g
  terminal : a.active = some g → (a.batchStates.get? p).any (·.isTerminal) = true

lemma Ended.congr (h : a.Ended p g) (hf : a'.retirementFloor = a.retirementFloor)
    (ha : a'.active = a.active) (hs : a'.batchStates = a.batchStates) : a'.Ended p g := by
  have hepoch : a'.epoch = a.epoch := by rw [epoch, hf, ha, epoch]
  exact ⟨by rw [hepoch]; exact h.below, by rw [ha, hs]; exact h.terminal⟩

/-! Accepting. -/

lemma retain_stream (n total : Nat) : (a.retain batch n total).retirementFloor = a.retirementFloor ∧
      (a.retain batch n total).active = a.active ∧
      (a.retain batch n total).batchStates = a.batchStates.insert batch.plugin batch.state := by
  by_cases hempty : batch.items = []
  · rw [retain_of_empty n total hempty]
    exact ⟨rfl, rfl, rfl⟩
  · rw [retain_of_items n total hempty]
    exact ⟨rfl, rfl, rfl⟩

lemma accept_stream (a : MemoryResultAggregator) (batch : ResultBatch) :
    (∃ reason, a.accept batch = (a, .error reason)) ∨
      (a.accept batch).2 = .ok () ∧ a.active = some batch.generation ∧
        (a.batchStates.get? batch.plugin).any (·.isTerminal) = false ∧
        (a.accept batch).1.retirementFloor = a.retirementFloor ∧
        (a.accept batch).1.active = a.active ∧
        (a.accept batch).1.batchStates = a.batchStates.insert batch.plugin batch.state := by
  cases hr : (a.accept batch).2 with
  | error reason => exact Or.inl ⟨reason, Prod.ext (accept_error hr) hr⟩
  | ok u =>
    obtain ⟨n, total, hc, hretain⟩ := accept_ok hr
    obtain ⟨hactive, hopen, -⟩ := checkBatch_ok hc
    rw [hretain]
    exact Or.inr ⟨rfl, hactive, hopen, retain_stream n total⟩

lemma Ended.refuses (h : a.Ended batch.plugin batch.generation) : (a.accept batch).2 ≠ .ok () := by
  intro hok
  cases a.accept_stream batch with
  | inl hrefused =>
    obtain ⟨reason, hr⟩ := hrefused
    rw [hr] at hok
    cases hok
  | inr haccepted =>
    obtain ⟨-, hactive, hopen, -⟩ := haccepted
    rw [h.terminal hactive] at hopen
    cases hopen

lemma Ended.accept (h : a.Ended p g) (batch : ResultBatch) : (a.accept batch).1.Ended p g := by
  cases a.accept_stream batch with
  | inl hrefused =>
    obtain ⟨reason, hr⟩ := hrefused
    rw [hr]
    exact h
  | inr haccepted =>
    obtain ⟨hok, hactive, hopen, hfloor, hsame, hstates⟩ := haccepted
    have hepoch : (a.accept batch).1.epoch = a.epoch := by rw [epoch, hfloor, hsame, epoch]
    refine ⟨by rw [hepoch]; exact h.below, ?_⟩
    intro hg
    rw [hsame] at hg
    have hterm := h.terminal hg
    -- the open stream is not the one that ended
    have hne : p ≠ batch.plugin := by
      rintro rfl
      rw [hterm] at hopen
      cases hopen
    rw [hstates, Table.get?_insert, if_neg hne]
    exact hterm

lemma ended_of_accept (hok : (a.accept batch).2 = .ok ()) (hterm : batch.state.isTerminal = true) :
    (a.accept batch).1.Ended batch.plugin batch.generation := by
  cases a.accept_stream batch with
  | inl hrefused =>
    obtain ⟨reason, hr⟩ := hrefused
    rw [hr] at hok
    cases hok
  | inr haccepted =>
    obtain ⟨-, hactive, -, -, hsame, hstates⟩ := haccepted
    have hactive' : (a.accept batch).1.epoch.active = some batch.generation := hsame.trans hactive
    refine ⟨(Epoch.below_of_some hactive').mpr le_rfl, fun _ => ?_⟩
    rw [hstates, Table.get?_insert, if_pos rfl]
    exact hterm

/-! Generations. -/

lemma Ended.beginGeneration (h : a.Ended p g) (next : Generation) :
    (a.beginGeneration next).Ended p g := by
  have hstart : a.epoch.start next = if next < a.retirementFloor then a.epoch
      else if a.active.any fun active => next ≤ active then a.epoch
      else ⟨a.retirementFloor, some next⟩ := rfl
  have hbelow := Epoch.start_below h.below next
  rw [hstart] at hbelow
  unfold MemoryResultAggregator.beginGeneration
  by_cases hfloor : next < a.retirementFloor
  · rw [if_pos hfloor]
    exact h
  rw [if_neg hfloor] at hbelow ⊢
  by_cases hold : (a.active.any fun active => decide (next ≤ active)) = true
  · rw [if_pos hold]
    exact h
  rw [if_neg hold] at hbelow ⊢
  refine ⟨hbelow.1, ?_⟩
  intro hg
  -- the generation is new, so it is not the one that ended
  have hactive : a.active = some g := hbelow.2 hg
  have hnext : next = g := some.inj hg
  simp [hactive, hnext] at hold

lemma Ended.retireBefore (h : a.Ended p g) (next : Generation) :
    (a.retireBefore next).Ended p g := by
  have hretire : a.epoch.retire next = if next ≤ a.retirementFloor then a.epoch
      else ⟨next, if a.active.any fun active => active < next then none else a.active⟩ := rfl
  have hbelow := (Epoch.retire_below h.below next).1
  rw [hretire] at hbelow
  unfold MemoryResultAggregator.retireBefore
  by_cases hfloor : next ≤ a.retirementFloor
  · rw [if_pos hfloor]
    exact h
  rw [if_neg hfloor] at hbelow ⊢
  cases ha : a.active with
  | none =>
    simp only [ha] at hbelow ⊢
    exact ⟨hbelow, fun hg => by simp at hg⟩
  | some active =>
    simp only [ha] at hbelow ⊢
    by_cases hle : next ≤ active
    · rw [if_pos hle]
      rw [if_neg (by simpa using hle)] at hbelow
      exact ⟨hbelow, fun hg => h.terminal (ha.trans hg)⟩
    · rw [if_neg hle]
      rw [if_pos (by simpa using hle)] at hbelow
      exact ⟨hbelow, fun hg => by simp [reset] at hg⟩

lemma Ended.step {op : Op} {o : Output} (h : a.Ended p g)
    (hstep : Aggregator.step a op = some (a', o)) : a'.Ended p g := by
  cases op with
  | beginGeneration next =>
    cases hstep
    exact h.beginGeneration next
  | retireBefore next =>
    cases hstep
    exact h.retireBefore next
  | accept batch =>
    cases hstep
    exact h.accept batch
  | beginFrame =>
    cases hstep
    exact h.congr rfl rfl rfl
  | takeUiUpdate =>
    cases hstep
    unfold takeUiUpdate
    split
    · exact h
    · exact h.congr rfl rfl rfl

end MemoryResultAggregator
end CriKey.Aggregator
