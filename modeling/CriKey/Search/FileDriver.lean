import CriKey.Base.Machine
import CriKey.Core.Generation
import CriKey.Core.Item

/-! The launcher's file provider: a mailbox and a slot for the answer stand between the UI thread
and one worker. -/
namespace CriKey.Search
open CriKey.Base CriKey.Core Option

def fileSettleDeadlineMs : Nat := 3 * 1000

structure FileJob where
  generation : Generation
  query : String
  now : Nat

structure Outstanding where
  generation : Generation
  submittedAt : Nat

structure FileOutcome where
  generation : Generation
  items : List Item
  pending : Bool

inductive FileWorker where
  | idle
  | searching (job : FileJob)
  | answered (outcome : FileOutcome)

/-- Without a worker the thread failed to spawn. -/
structure FileSearchDriver where
  job : Option FileJob := none
  outcome : Option FileOutcome := none
  current : Generation := .zero
  outstanding : Option Outstanding := none
  worker : Option FileWorker

inductive FileOp where
  | submit (generation : Generation) (query : String) (now : Nat)
  | takeOutcome (now : Nat)
  | takeJob
  | answer (items : List Item) (pending : Bool)
  | park

inductive FileOutput where
  | done
  | accepted (accepted : Bool)
  | taken (outcome : Option FileOutcome)

namespace FileSearchDriver
variable (d : FileSearchDriver)

def submit (generation : Generation) (query : String) (now : Nat) : FileSearchDriver × Bool :=
  if d.worker.isNone || generation < d.current then (d, false)
  else
    ({ d with
        current := generation, outstanding := some ⟨generation, now⟩,
        job := some ⟨generation, query, now⟩ }, true)

def takeOutcome (now : Nat) : FileSearchDriver × Option FileOutcome :=
  match d.outcome with
  | some outcome =>
    let d := { d with outcome := none }
    if outcome.generation ≠ d.current then (d, none)
    else
      ({ d with outstanding := d.outstanding.filter (outcome.generation < ·.generation) },
        some outcome)
  | none =>
    match d.outstanding with
    | some owed =>
      if fileSettleDeadlineMs ≤ now - owed.submittedAt then
        ({ d with outstanding := none }, some ⟨owed.generation, [], false⟩)
      else (d, none)
    | none => (d, none)

/-- The worker waits where its step is `none`. It parks an answer unless a newer query is known or
queued. -/
def step : FileOp → Option (FileSearchDriver × FileOutput)
  | .submit generation query now => some ((d.submit generation query now).map id .accepted)
  | .takeOutcome now => some ((d.takeOutcome now).map id .taken)
  | .takeJob =>
    match d.worker, d.job with
    | some .idle, some job => some ({ d with job := none, worker := some (.searching job) }, .done)
    | _, _ => none
  | .answer items pending =>
    match d.worker with
    | some (.searching job) =>
      some ({ d with worker := some (.answered ⟨job.generation, items, pending⟩) }, .done)
    | _ => none
  | .park =>
    match d.worker with
    | some (.answered outcome) =>
      let d := { d with worker := some .idle }
      some (if d.job.isSome || d.current ≠ outcome.generation then d
        else { d with outcome := some outcome }, .done)
    | _ => none

/-- The generation is owed since a time. -/
structure Owes (g : Generation) (t : Nat) : Prop where
  current : d.current = g
  outstanding : d.outstanding = some ⟨g, t⟩

end FileSearchDriver

/-- Neither is a query accepted nor the generation settled. -/
def FileOutput.Leaves (g : Generation) : FileOutput → Prop
  | .done => True
  | .accepted answer => answer = false
  | .taken outcome => ∀ answer ∈ outcome, answer.generation ≠ g

namespace FileSearchDriver
variable {d d' : FileSearchDriver} {g : Generation} {t now : Nat}

namespace Owes
variable (h : d.Owes g t)
include h

lemma takeOutcome_parked {parked : FileOutcome} (hparked : d.outcome = some parked) :
    d.takeOutcome now = if parked.generation = g then
        ({ d with outcome := none, outstanding := none }, some parked)
      else ({ d with outcome := none }, none) := by
  rw [FileSearchDriver.takeOutcome, hparked]
  by_cases hg : parked.generation = g
  · simp [h.current, h.outstanding, hg]
  · simp [h.current, hg]

lemma takeOutcome_empty (hempty : d.outcome = none) :
    d.takeOutcome now = if t + fileSettleDeadlineMs ≤ now then
        ({ d with outstanding := none }, some ⟨g, [], false⟩)
      else (d, none) := by
  simp only [FileSearchDriver.takeOutcome, hempty, h.outstanding, fileSettleDeadlineMs]
  grind

lemma takeOutcome (hleaves : (FileOutput.taken (d.takeOutcome now).2).Leaves g) :
    (d.takeOutcome now).1.Owes g t := by
  cases hparked : d.outcome with
  | some parked =>
    rw [h.takeOutcome_parked hparked] at hleaves ⊢
    split at hleaves
    · exact absurd ‹_› (hleaves parked rfl)
    · rw [if_neg ‹_›]
      exact { h with }
  | none =>
    rw [h.takeOutcome_empty hparked] at hleaves ⊢
    split at hleaves
    · exact absurd rfl (hleaves _ rfl)
    · rw [if_neg ‹_›]
      exact h

lemma step {op : FileOp} {output : FileOutput} (hstep : d.step op = some (d', output))
    (hleaves : output.Leaves g) : d'.Owes g t := by
  cases op with
  | submit generation query now =>
    obtain ⟨rfl, rfl⟩ := Prod.mk.inj (some_inj.mp hstep)
    have hrefused : (d.submit generation query now).2 = false := hleaves
    show (d.submit generation query now).1.Owes g t
    rw [submit] at hrefused ⊢
    split at hrefused
    · rw [if_pos ‹_›]
      exact h
    · cases hrefused
  | takeOutcome now =>
    cases hstep
    exact h.takeOutcome hleaves
  | takeJob | answer items pending =>
    simp only [FileSearchDriver.step] at hstep
    split at hstep
    · cases hstep
      exact { h with }
    · cases hstep
  | park =>
    simp only [FileSearchDriver.step] at hstep
    split at hstep
    · cases hstep
      split
      · exact { h with }
      · exact { h with }
    · cases hstep

lemma run {rest : List (FileOp × FileOutput)} (hrun : Exec FileSearchDriver.step d rest d')
    (hrest : ∀ entry ∈ rest, entry.2.Leaves g) : d'.Owes g t := by
  induction hrun with
  | start => exact h
  | next _ hstep ih =>
    rw [List.forall_mem_append, List.forall_mem_singleton] at hrest
    exact (ih hrest.1).step hstep hrest.2

end Owes

/-- Once its deadline has passed, an accepted query that is still owed waits for one more call
exactly when an answer to another query is in the slot. -/
theorem overdue_search_waits_iff {worker : Option FileWorker} {query : String}
    {before rest : List (FileOp × FileOutput)}
    (h : Exec FileSearchDriver.step { worker }
      (before ++ (.submit g query t, .accepted true) :: rest) d)
    (hrest : ∀ entry ∈ rest, entry.2.Leaves g) (hdeadline : t + fileSettleDeadlineMs ≤ now) :
    (d.takeOutcome now).2 = none ↔ ∃ parked ∈ d.outcome, parked.generation ≠ g := by
  obtain ⟨d₀, d₁, -, hsubmit, hrun⟩ := h.split_at
  have howes : d₁.Owes g t := by
    simp only [FileSearchDriver.step, submit] at hsubmit
    split at hsubmit
    · cases hsubmit
    · cases hsubmit
      exact ⟨rfl, rfl⟩
  have howed := howes.run hrun hrest
  cases hparked : d.outcome with
  | some parked =>
    rw [howed.takeOutcome_parked hparked]
    by_cases hg : parked.generation = g
    · simp [hg]
    · simp [hg]
  | none => simp [howed.takeOutcome_empty hparked, hdeadline]

def overtaken : List (FileOp × FileOutput) :=
  [(.submit ⟨1⟩ "a" 0, .accepted true), (.takeJob, .done)]

/-- The worker drops the answer to the query before, and searches on. -/
def stillSearching : List (FileOp × FileOutput) :=
  [(.answer [] false, .done), (.park, .done), (.takeOutcome 20, .taken none), (.takeJob, .done),
    (.submit ⟨1⟩ "a" 30, .accepted false)]

theorem interleaved_search_settles :
    let d : FileSearchDriver := ⟨none, none, ⟨2⟩, some ⟨⟨2⟩, 10⟩, some (.searching ⟨⟨2⟩, "b", 10⟩)⟩
    Exec FileSearchDriver.step { worker := some .idle }
        (overtaken ++ (.submit ⟨2⟩ "b" 10, .accepted true) :: stillSearching) d ∧
      (d.takeOutcome (10 + fileSettleDeadlineMs)).2 ≠ none := by
  intro d
  have hrun : run FileSearchDriver.step { worker := some .idle } [.submit ⟨1⟩ "a" 0, .takeJob,
      .submit ⟨2⟩ "b" 10, .answer [] false, .park, .takeOutcome 20, .takeJob, .submit ⟨1⟩ "a" 30] =
      some (d, overtaken ++ (.submit ⟨2⟩ "b" 10, .accepted true) :: stillSearching) := rfl
  have hexec := (exec_of_run hrun).1
  refine ⟨hexec, fun hwaits => ?_⟩
  have hrest : ∀ entry ∈ stillSearching, entry.2.Leaves ⟨2⟩ := by
    simp [stillSearching, FileOutput.Leaves]
  obtain ⟨parked, hparked, -⟩ := (overdue_search_waits_iff hexec hrest le_rfl).mp hwaits
  cases hparked

theorem overtaken_answer_delays :
    (run FileSearchDriver.step { worker := some .idle }
      [.submit ⟨1⟩ "a" 0, .takeJob, .answer [] false, .park, .submit ⟨2⟩ "b" 0,
        .takeOutcome fileSettleDeadlineMs]).map (·.2.drop 4) =
    some [(.submit ⟨2⟩ "b" 0, .accepted true), (.takeOutcome fileSettleDeadlineMs, .taken none)] :=
  rfl

end FileSearchDriver
end CriKey.Search
