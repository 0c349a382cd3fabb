import CriKey.Base.Machine
import CriKey.Supervisor.Budget

/-! Admission under interleaving. A thread inside `admit` has loaded the occupancy of its kind and
tries to exchange it, while other threads do the same or drop their guards. -/
namespace CriKey.Supervisor
open CriKey.Base Function ConcurrencyBudget

/-- The budget, the guards that are alive, and for each thread inside `admit` the kind it asks for
with the occupancy it observed last. -/
structure Admissions where
  budget : ConcurrencyBudget
  guards : List BudgetKind := []
  observed : Nat → Option (BudgetKind × Nat) := fun _ => none

inductive Act where
  | load (thread : Nat) (kind : BudgetKind)
  /-- One turn of the loop; the weak exchange may fail without a reason. -/
  | exchange (thread : Nat) (spurious : Bool)
  | drop (kind : BudgetKind)

inductive Verdict where
  | none
  | admitted (kind : BudgetKind)
  | refused (kind : BudgetKind)
deriving DecidableEq

/-- `none` stands for an act no thread is in the position to take. -/
def Admissions.step (s : Admissions) : Act → Option (Admissions × Verdict)
  | .load thread kind =>
    if (s.observed thread).isSome then none
    else
      let current := s.budget.inFlight kind
      some ({ s with observed := update s.observed thread (some (kind, current)) }, .none)
  | .exchange thread spurious => do
    let (kind, current) ← s.observed thread
    if s.budget.limits kind ≤ current then
      let refusals := update s.budget.refusals kind (satAdd (s.budget.refusals kind) 1)
      some ({ s with
        budget := { s.budget with refusals }
        observed := update s.observed thread none }, .refused kind)
    else if s.budget.inFlight kind = current ∧ spurious = false then
      some ({
        budget := { s.budget with inFlight := update s.budget.inFlight kind (current + 1) }
        guards := kind :: s.guards
        observed := update s.observed thread none }, .admitted kind)
    else
      let current := s.budget.inFlight kind
      some ({ s with observed := update s.observed thread (some (kind, current)) }, .none)
  | .drop kind =>
    if kind ∈ s.guards then
      some ({ s with budget := s.budget.release kind, guards := s.guards.erase kind }, .none)
    else none

/-- What holds of one kind after the acts of a trace. -/
structure Counted (limits : BudgetKind → Nat) (tr : List (Act × Verdict)) (s : Admissions)
    (kind : BudgetKind) : Prop where
  limits_eq : s.budget.limits = limits
  live : s.budget.inFlight kind = s.guards.count kind
  bounded : s.budget.inFlight kind ≤ limits kind
  refusals : s.budget.refusals kind = min (tr.countP (·.2 = .refused kind)) u64Max

lemma Counted.step {limits : BudgetKind → Nat} {tr : List (Act × Verdict)} {s s' : Admissions}
    {act : Act} {verdict : Verdict} {kind : BudgetKind} (h : Counted limits tr s kind)
    (hstep : s.step act = some (s', verdict)) :
    Counted limits (tr ++ [(act, verdict)]) s' kind := by
  obtain ⟨hlimits, hlive, hbounded, hrefusals⟩ := h
  have hcount : (tr ++ [(act, verdict)]).countP (·.2 = .refused kind) =
      tr.countP (·.2 = .refused kind) + if verdict = .refused kind then 1 else 0 := by
    simp [List.countP_append]
  cases act with
  | load thread k =>
    simp only [Admissions.step] at hstep
    split at hstep <;> cases hstep
    exact ⟨hlimits, hlive, hbounded, by simpa [hcount] using hrefusals⟩
  | exchange thread spurious =>
    simp only [Admissions.step, Option.bind_eq_bind, Option.bind_eq_some_iff] at hstep
    obtain ⟨⟨k, current⟩, -, hstep⟩ := hstep
    split at hstep
    · cases hstep
      refine ⟨hlimits, hlive, hbounded, ?_⟩
      rw [hcount]
      by_cases hk : kind = k
      · subst hk
        simp [← satAdd_min, ← hrefusals]
      · simp [hk, Ne.symm hk, hrefusals]
    · split at hstep <;> cases hstep
      · refine ⟨hlimits, ?_, ?_, by simpa [hcount] using hrefusals⟩ <;> grind [update_apply]
      · exact ⟨hlimits, hlive, hbounded, by simpa [hcount] using hrefusals⟩
  | drop k =>
    simp only [Admissions.step] at hstep
    split at hstep <;> cases hstep
    refine ⟨hlimits, ?_, ?_, by simpa [release] using hrefusals⟩ <;>
      simp only [release, update_apply] <;> grind

/-- Whatever threads do in whatever order, the occupancy of a kind is the number of its guards that
are alive and stays within its limit, a guard is only dropped from an occupied slot, and the refusal
counter grew by one with every refusal, up to the top of 64 bits. -/
theorem occupancy_exact (sec : ConcurrencySection) {tr : List (Act × Verdict)} {s : Admissions}
    (h : Exec Admissions.step { budget := .fromSection sec } tr s) (kind : BudgetKind) :
    s.budget.inFlight kind = s.guards.count kind ∧
      s.budget.inFlight kind ≤ (fromSection sec).limits kind ∧
      (∀ s' verdict, s.step (.drop kind) = some (s', verdict) → 0 < s.budget.inFlight kind) ∧
      s.budget.refusals kind = min (tr.countP (·.2 = .refused kind)) u64Max := by
  have hall : Counted (fromSection sec).limits tr s kind :=
    Exec.invariant (fun tr s => Counted (fromSection sec).limits tr s kind)
      ⟨rfl, rfl, Nat.zero_le _, rfl⟩ (fun _ _ _ _ _ _ ih hstep => ih.step hstep) h
  refine ⟨hall.live, hall.bounded, fun s' verdict hdrop => ?_, hall.refusals⟩
  simp only [Admissions.step] at hdrop
  split at hdrop
  case isTrue hmem => exact hall.live ▸ List.count_pos_iff.mpr hmem
  case isFalse => cases hdrop

/-- Two threads race for the only slot: one gets it, the other observes that and is refused. -/
theorem occupancy_exact_race : ∃ s tr, run Admissions.step { budget := .fromSection {} }
      [.load 0 .action, .load 1 .action, .exchange 0 false, .exchange 1 false, .exchange 1 false] =
        some (s, tr) ∧ s.budget.inFlight .action = 1 ∧ s.budget.refusals .action = 1 := by
  have hrun : run Admissions.step { budget := .fromSection {} } [.load 0 .action, .load 1 .action,
    .exchange 0 false, .exchange 1 false, .exchange 1 false] = some _ := rfl
  have hexact := occupancy_exact {} (exec_of_run hrun).1 .action
  exact ⟨_, _, hrun, hexact.1, hexact.2.2.2⟩

end CriKey.Supervisor
