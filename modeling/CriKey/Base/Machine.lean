import Mathlib

/-! Runs of a deterministic machine. A step may fail (a panic of the modelled
program); a run records every input together with the output it got. -/
namespace CriKey.Base
open List
variable {σ ι ο : Type*}

def run (step : σ → ι → Option (σ × ο)) : σ → List ι → Option (σ × List (ι × ο))
  | s, [] => some (s, [])
  | s, i :: is =>
    match step s i with
    | none => none
    | some (s', o) =>
      match run step s' is with
      | none => none
      | some (t, tr) => some (t, (i, o) :: tr)

/-- `Exec step s tr t`: the inputs of the trace `tr` lead from `s` to `t`, each
with the output written beside it. -/
inductive Exec (step : σ → ι → Option (σ × ο)) (s : σ) : List (ι × ο) → σ → Prop
  | start : Exec step s [] s
  | next {tr : List (ι × ο)} {t t' : σ} {i : ι} {o : ο} :
      Exec step s tr t → step t i = some (t', o) → Exec step s (tr ++ [(i, o)]) t'

variable {step : σ → ι → Option (σ × ο)} {s t u : σ} {tr tr' : List (ι × ο)}

lemma Exec.one {i : ι} {o : ο} (h : step s i = some (t, o)) : Exec step s [(i, o)] t :=
  Exec.next Exec.start h

lemma Exec.append (h : Exec step s tr t) (h' : Exec step t tr' u) : Exec step s (tr ++ tr') u := by
  induction h' with
  | start => simpa using h
  | next _ hstep ih =>
    rw [← append_assoc]
    exact Exec.next ih hstep

lemma Exec.of_snoc {i : ι} {o : ο} (h : Exec step s (tr ++ [(i, o)]) u) :
    ∃ t, Exec step s tr t ∧ step t i = some (u, o) := by
  generalize htr : tr ++ [(i, o)] = tr' at h
  cases h with
  | start => simp at htr
  | next hexec hstep =>
    obtain ⟨rfl, hlast⟩ := append_inj' htr rfl
    obtain ⟨rfl, rfl⟩ := hlast
    exact ⟨_, hexec, hstep⟩

/-- A run, cut open at one of its steps. -/
lemma Exec.split_at {i : ι} {o : ο} (h : Exec step s (tr ++ (i, o) :: tr') u) :
    ∃ t t', Exec step s tr t ∧ step t i = some (t', o) ∧ Exec step t' tr' u := by
  induction tr' using reverseRecOn generalizing u with
  | nil =>
    obtain ⟨t, ht, hstep⟩ := Exec.of_snoc h
    exact ⟨t, u, ht, hstep, .start⟩
  | append_singleton tr' io ih =>
    rw [← cons_append, ← append_assoc] at h
    obtain ⟨v, hv, hstep⟩ := Exec.of_snoc h
    obtain ⟨t, t', ht, hfirst, hrest⟩ := ih hv
    exact ⟨t, t', ht, hfirst, .next hrest hstep⟩

/-- What holds at the start and is kept by every step holds after every run. The
property may speak of the trace that led to the state. -/
lemma Exec.invariant (I : List (ι × ο) → σ → Prop) (h0 : I [] s)
    (hstep : ∀ tr t i t' o, Exec step s tr t → I tr t → step t i = some (t', o) →
      I (tr ++ [(i, o)]) t')
    (h : Exec step s tr t) : I tr t := by
  induction h with
  | start => exact h0
  | next hexec hs ih => exact hstep _ _ _ _ _ hexec ih hs

variable {is : List ι}

lemma exec_of_run (h : run step s is = some (t, tr)) : Exec step s tr t ∧ tr.map Prod.fst = is := by
  induction is generalizing s tr with
  | nil =>
    cases h
    exact ⟨Exec.start, rfl⟩
  | cons i is ih =>
    rw [run] at h
    cases hs : step s i with
    | none => simp [hs] at h
    | some so =>
      cases hr : run step so.1 is with
      | none => simp [hs, hr] at h
      | some ttr =>
        simp only [hs, hr] at h
        obtain ⟨rfl, rfl⟩ := h
        obtain ⟨hexec, his⟩ := ih hr
        exact ⟨(Exec.one hs).append hexec, by simp [his]⟩

/-- A run that can be evaluated reaches the state the evaluation shows. -/
lemma run_of_eval (step : σ → ι → Option (σ × ο)) (s : σ) (is : List ι)
    (P : σ → List (ι × ο) → Prop) [∀ t tr, Decidable (P t tr)]
    (h : (run step s is).any (fun r => P r.1 r.2) = true) :
    ∃ t tr, run step s is = some (t, tr) ∧ P t tr := by
  cases hr : run step s is with
  | none => simp [hr] at h
  | some r => exact ⟨r.1, r.2, rfl, by simpa [hr] using h⟩

lemma exec_of_eval {P : σ → List (ι × ο) → Prop} [∀ t tr, Decidable (P t tr)]
    (h : (run step s is).any (fun r => P r.1 r.2) = true) :
    ∃ tr t, Exec step s tr t ∧ tr.map Prod.fst = is ∧ P t tr := by
  obtain ⟨t, tr, hrun, hP⟩ := run_of_eval step s is P h
  obtain ⟨hexec, his⟩ := exec_of_run hrun
  exact ⟨tr, t, hexec, his, hP⟩

/-- Runs whose every input meets a condition in the state it is given to. -/
inductive ExecWhen (step : σ → ι → Option (σ × ο)) (P : σ → ι → Prop) (s : σ) :
    List (ι × ο) → σ → Prop
  | start : ExecWhen step P s [] s
  | next {tr : List (ι × ο)} {t t' : σ} {i : ι} {o : ο} :
      ExecWhen step P s tr t → P t i → step t i = some (t', o) →
      ExecWhen step P s (tr ++ [(i, o)]) t'

lemma ExecWhen.invariant {P : σ → ι → Prop} (I : List (ι × ο) → σ → Prop) (h0 : I [] s)
    (hstep : ∀ tr t i t' o, I tr t → P t i → step t i = some (t', o) → I (tr ++ [(i, o)]) t')
    (h : ExecWhen step P s tr t) : I tr t := by
  induction h with
  | start => exact h0
  | next hexec hp hs ih => exact hstep _ _ _ _ _ ih hp hs

lemma ExecWhen.imp {P Q : σ → ι → Prop} (hPQ : ∀ s i, P s i → Q s i)
    (h : ExecWhen step P s tr t) : ExecWhen step Q s tr t := by
  induction h with
  | start => exact .start
  | next _ hp hs ih => exact .next ih (hPQ _ _ hp) hs

/-- A run of the machine that refuses every input that misses the condition. -/
lemma execWhen_of_eval (step : σ → ι → Option (σ × ο)) (P : σ → ι → Prop) [∀ s i, Decidable (P s i)]
    (s : σ) (is : List ι) (Q : σ → Prop) [DecidablePred Q]
    (h : (run (fun s i => if P s i then step s i else none) s is).any (fun r => Q r.1) = true) :
    ∃ tr t, ExecWhen step P s tr t ∧ Q t := by
  obtain ⟨tr, t, hexec, -, hQ⟩ := exec_of_eval (P := fun t _ => Q t) h
  refine ⟨tr, t, ?_, hQ⟩
  clear h hQ
  induction hexec with
  | start => exact .start
  | @next tr u u' i o _ hs ih =>
    by_cases hp : P u i
    · rw [if_pos hp] at hs
      exact .next ih hp hs
    · rw [if_neg hp] at hs
      exact absurd hs (by simp)

/-! Histories: what holds of every entry with respect to the entries before it. -/

section EachAfter
variable {ε : Type*} {P : List ε → ε → Prop} {past es : List ε}

def EachAfter (P : List ε → ε → Prop) (past : List ε) : Prop :=
  ∀ a e b, past = a ++ e :: b → P a e

lemma eachAfter_nil : EachAfter P ([] : List ε) := by
  intro a e b h
  simp at h

lemma EachAfter.concat {e : ε} (h : EachAfter P past) (he : P past e) :
    EachAfter P (past ++ [e]) := by
  intro a x b heq
  cases b using reverseRecOn with
  | nil =>
    obtain ⟨rfl, hx⟩ := append_inj' heq rfl
    rw [← singleton_inj.mp hx]
    exact he
  | append_singleton b y =>
    have hsplit : past ++ [e] = (a ++ x :: b) ++ [y] := by simpa using heq
    exact h a x b (append_inj' hsplit rfl).1

lemma EachAfter.append (h : EachAfter P past) (hes : ∀ e ∈ es, ∀ a, P a e) :
    EachAfter P (past ++ es) := by
  induction es using reverseRecOn with
  | nil => simpa using h
  | append_singleton es e ih =>
    rw [← append_assoc]
    exact (ih fun x hx => hes x (by simp [hx])).concat (hes e (by simp) _)

end EachAfter

/-- When no step of a run from `s` can fail, the run reaches a state. -/
lemma run_total (I : List ι → σ → Prop) (h0 : I is s)
    (hstep : ∀ i is t, I (i :: is) t → ∃ t' o, step t i = some (t', o) ∧ I is t') :
    ∃ t tr, run step s is = some (t, tr) := by
  induction is generalizing s with
  | nil => exact ⟨s, [], rfl⟩
  | cons i is ih =>
    obtain ⟨s', o, hs, hI⟩ := hstep i is s h0
    obtain ⟨t, tr, hr⟩ := ih hI
    exact ⟨t, (i, o) :: tr, by simp [run, hs, hr]⟩

end CriKey.Base
