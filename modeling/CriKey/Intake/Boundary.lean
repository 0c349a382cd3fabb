import CriKey.Intake.Order

/-! The intake with the in-memory aggregator behind it, as one machine. A drain goes into the
aggregator of the state; the other calls of either side come in any order. -/
namespace CriKey.Intake
open CriKey.Base CriKey.Core CriKey.Aggregator

/-- The same call with another aggregator to drain into. -/
def Op.into {α β : Type} (aggregator : β) : Op α → Op β
  | .register plugin policy => .register plugin policy
  | .unregister plugin => .unregister plugin
  | .beginGeneration generation => .beginGeneration generation
  | .retireBefore generation => .retireBefore generation
  | .submit atMs inbound => .submit atMs inbound
  | .drainInto atMs _ budget => .drainInto atMs aggregator budget

lemma Op.into_drainInto {α β : Type} {a b : β} {atMs : Nat} {budget : DrainBudget} (op : Op α)
    (h : op.into a = .drainInto atMs b budget) : b = a := by
  cases op with
  | drainInto => exact (Op.drainInto.inj h).2.1.symm
  | register | unregister | beginGeneration | retireBefore | submit => cases h

/-- The aggregator after a call of the intake. -/
def Output.aggregator {α : Type} (before : α) : Output α → α
  | .drained d => d.aggregator
  | _ => before

structure Boundary where
  intake : InboundResultQueue
  aggregator : MemoryResultAggregator

namespace Boundary

def new (limits : QueueLimits) (results : ResultLimits) : Boundary where
  intake := .new limits
  aggregator := .new results

inductive Op where
  | intake (op : Intake.Op Unit)
  | aggregator (op : Aggregator.Op)
  | setPluginLimits (plugin : PluginId) (maxItemsPerQuery maxItemsPerBatch : Nat)
  | removePluginLimits (plugin : PluginId)

inductive Output where
  | intake (output : Intake.Output MemoryResultAggregator)
  | aggregator (output : Aggregator.Output)
  | done

def step (s : Boundary) : Op → Option (Boundary × Output)
  | .intake op =>
    (Intake.step s.intake (op.into s.aggregator)).map fun r =>
      (⟨r.1, r.2.aggregator s.aggregator⟩, .intake r.2)
  | .aggregator op =>
    (Aggregator.step s.aggregator op).map fun r => ({ s with aggregator := r.1 }, .aggregator r.2)
  | .setPluginLimits plugin maxItemsPerQuery maxItemsPerBatch =>
    some ({ s with
      aggregator := s.aggregator.setPluginLimits plugin maxItemsPerQuery maxItemsPerBatch }, .done)
  | .removePluginLimits plugin =>
    some ({ s with aggregator := s.aggregator.removePluginLimits plugin }, .done)

/-- The calls of the aggregator that a drain made. -/
def Output.calls : Output → List Call
  | .intake (.drained d) => d.calls
  | _ => []

inductive AggregatorCall (a : MemoryResultAggregator) : MemoryResultAggregator → Prop
  | step {op : Aggregator.Op} {a' : MemoryResultAggregator} {o : Aggregator.Output}
      (call : Aggregator.step a op = some (a', o)) : AggregatorCall a a'
  | limits (pluginLimits : Table PluginId PluginResultLimits) :
      AggregatorCall a { a with pluginLimits := pluginLimits }

/-- A call is one of the intake or leaves it alone. -/
inductive Change (s s' : Boundary) : Op → Output → Prop
  | intake {op : Intake.Op Unit} {o : Intake.Output MemoryResultAggregator}
      (call : Intake.step s.intake (op.into s.aggregator) = some (s'.intake, o))
      (aggregator : s'.aggregator = o.aggregator s.aggregator) :
      Change s s' (.intake op) (.intake o)
  | beside {op : Op} {o : Output} (intake : s'.intake = s.intake)
      (aggregator : AggregatorCall s.aggregator s'.aggregator) (calls : o.calls = [])
      (other : ∀ op', op ≠ .intake op') : Change s s' op o

lemma step_change {s s' : Boundary} {op : Op} {o : Output} (h : step s op = some (s', o)) :
    Change s s' op o := by
  cases op with
  | intake op =>
    simp only [step, Option.map_eq_some_iff, Prod.mk.injEq] at h
    obtain ⟨r, hr, rfl, rfl⟩ := h
    exact .intake hr rfl
  | aggregator op =>
    simp only [step, Option.map_eq_some_iff, Prod.mk.injEq] at h
    obtain ⟨r, hr, rfl, rfl⟩ := h
    exact .beside rfl (.step hr) rfl (by simp)
  | setPluginLimits | removePluginLimits =>
    cases h
    exact .beside rfl (.limits _) rfl (by simp)

lemma step_total {s : Boundary} (h : s.intake.Sound) (op : Op) :
    ∃ s' o, step s op = some (s', o) ∧ s'.intake.Sound := by
  cases op with
  | intake op =>
    obtain ⟨t, o, hstep, hsound⟩ := InboundResultQueue.step_total h (op.into s.aggregator)
    exact ⟨⟨t, o.aggregator s.aggregator⟩, .intake o, by simp [step, hstep], hsound⟩
  | aggregator op => cases op <;> exact ⟨_, _, rfl, h⟩
  | setPluginLimits plugin maxItemsPerQuery maxItemsPerBatch | removePluginLimits plugin =>
    exact ⟨_, _, rfl, h⟩

lemma run_returns (limits : QueueLimits) (results : ResultLimits) (ops : List Op) :
    ∃ t tr, run step (new limits results) ops = some (t, tr) := by
  refine run_total (fun _ t => t.intake.Sound) (InboundResultQueue.sound_new limits) ?_
  intro op ops t h
  exact step_total h op

end Boundary
end CriKey.Intake
