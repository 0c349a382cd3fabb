import CriKey.Base.Machine

/-! Cancellation in the Rust SDK. The reader thread applies a Cancel when it reads it; the serving
loop, or a sink that waits for credit, applies it once more when its envelope comes up. -/
namespace CriKey.Sdk
open CriKey.Base List

structure CancellationKey where
  requestId : Nat
  generation : Nat
deriving DecidableEq, Repr

structure ActiveCancellation where
  current : Option CancellationKey := none
  cancelled : Bool := false
  pending : List CancellationKey := []

namespace ActiveCancellation
variable (a : ActiveCancellation)

def begin (key : CancellationKey) : ActiveCancellation :=
  ⟨some key, key ∈ a.pending, a.pending.erase key⟩

def finish : ActiveCancellation := { a with current := none, cancelled := false }

def cancel (key : CancellationKey) : ActiveCancellation :=
  if key.requestId = 0 ∧ key.generation = 0 then
    { a with cancelled := a.cancelled || a.current.isSome }
  else if a.current = some key then { a with cancelled := true }
  else if a.pending.length < 256 then { a with pending := a.pending ++ [key] }
  else a

end ActiveCancellation

/-- The messages that matter here: a Cancel, and a Suggest or CatalogRequest. -/
inductive Envelope where
  | cancel (key : CancellationKey)
  | request (key : CancellationKey)
deriving DecidableEq, Repr

/-- The state under the lock, the envelopes read and not yet taken, and those a sink put back. -/
structure Session where
  active : ActiveCancellation := {}
  inbox : List Envelope := []
  stash : List Envelope := []

inductive Op where
  | read (envelope : Envelope)
  | serve
  | waitForCredit
  | finish
deriving DecidableEq, Repr

namespace Session

def served (s : Session) : Envelope → ActiveCancellation
  | .cancel key => s.active.cancel key
  | .request key => s.active.begin key

/-- Between two requests the loop takes the next envelope; during one only a sink does. -/
def step (s : Session) : Op → Option (Session × Unit)
  | .read (.cancel key) =>
    some (⟨s.active.cancel key, s.inbox ++ [.cancel key], s.stash⟩, ())
  | .read (.request key) => some ({ s with inbox := s.inbox ++ [.request key] }, ())
  | .serve =>
    match s.active.current, s.stash, s.inbox with
    | none, e :: stash, inbox => some (⟨s.served e, inbox, stash⟩, ())
    | none, [], e :: inbox => some (⟨s.served e, inbox, []⟩, ())
    | _, _, _ => none
  | .waitForCredit =>
    match s.active.current, s.inbox with
    | some _, .cancel key :: inbox => some (⟨s.active.cancel key, inbox, s.stash⟩, ())
    | some _, .request key :: inbox => some (⟨s.active, inbox, s.stash ++ [.request key]⟩, ())
    | _, _ => none
  | .finish => some ({ s with active := s.active.finish }, ())

/-- A Cancel is of a request, and there is room for it in the list of early ones. -/
def keeps (s : Session) : Op → Bool
  | .read (.cancel key) =>
    key.requestId ≠ 0 && (s.active.current = some key || s.active.pending.length < 256)
  | _ => true

end Session

def Op.cancels : Op → List CancellationKey
  | .read (.cancel key) => [key]
  | _ => []

def Op.requests : Op → List CancellationKey
  | .read (.request key) => [key]
  | _ => []

/-- What holds once the Cancels `cs` and the requests `rs` were read and the envelopes `q` are
still to be taken. -/
structure Tracked (cs rs : List CancellationKey) (a : ActiveCancellation) (q : List Envelope) :
    Prop where
  once : ∀ k, q.count (.request k) ≤ 1
  known : ∀ k, .request k ∈ q → k ∈ rs
  read : ∀ k, .cancel k ∈ q → k ∈ cs
  nonzero : ∀ k ∈ cs, k.requestId ≠ 0
  pending : ∀ k ∈ a.pending, k ∈ cs
  early : ∀ k ∈ cs, k ∉ rs ∨ .request k ∈ q → k ∈ a.pending
  current : ∀ k, a.current = some k → (a.cancelled = true ↔ k ∈ cs) ∧ k ∈ rs ∧ .request k ∉ q

namespace Tracked
variable {cs rs : List CancellationKey} {a : ActiveCancellation} {q q' : List Envelope}
  {k : CancellationKey}

lemma begin (h : Tracked cs rs a (.request k :: q)) : Tracked cs rs (a.begin k) q := by
  obtain ⟨once, known, read, nonzero, pending, early, current⟩ := h
  refine ⟨fun j => ?_, ?_, ?_, nonzero, ?_, ?_, ?_⟩
  all_goals grind [ActiveCancellation.begin]

lemma first (h : Tracked cs rs a q) (hk : k.requestId ≠ 0)
    (hroom : a.current = some k ∨ a.pending.length < 256) :
    Tracked (cs ++ [k]) rs (a.cancel k) (q ++ [.cancel k]) := by
  obtain ⟨once, known, read, nonzero, pending, early, current⟩ := h
  unfold ActiveCancellation.cancel
  refine ⟨by simpa using once, ?_, ?_, ?_, ?_, ?_, ?_⟩ <;> grind

lemma again (h : Tracked cs rs a (q ++ .cancel k :: q')) :
    Tracked cs rs (a.cancel k) (q ++ q') := by
  obtain ⟨once, known, read, nonzero, pending, early, current⟩ := h
  have hk : k ∈ cs := read k (by simp)
  unfold ActiveCancellation.cancel
  refine ⟨by simpa using once, ?_, ?_, nonzero, ?_, ?_, ?_⟩ <;> grind

lemma request (h : Tracked cs rs a q) (hk : k ∉ rs) :
    Tracked cs (rs ++ [k]) a (q ++ [.request k]) := by
  obtain ⟨once, known, read, nonzero, pending, early, current⟩ := h
  refine ⟨fun j => ?_, ?_, ?_, nonzero, pending, ?_, ?_⟩
  · have hj := once j
    have hout : count (.request k) q = 0 := count_eq_zero.mpr fun h => hk (known k h)
    grind
  all_goals grind

variable {s s' : Session}

lemma step {op : Op} (h : Tracked cs rs s.active (s.stash ++ s.inbox)) (hop : s.keeps op = true)
    (hrs : (rs ++ op.requests).Nodup) (hstep : s.step op = some (s', ())) :
    Tracked (cs ++ op.cancels) (rs ++ op.requests) s'.active (s'.stash ++ s'.inbox) := by
  unfold Session.step at hstep
  split at hstep
  all_goals simp only [Op.cancels, Op.requests, append_nil] at hrs ⊢
  · cases hstep
    simp only [Session.keeps, Bool.and_eq_true, Bool.or_eq_true, decide_eq_true_eq] at hop
    simpa using h.first hop.1 hop.2
  · cases hstep
    simpa using h.request (by grind [nodup_append])
  · have htake (e : Envelope) (q : List Envelope) (hq : s.stash ++ s.inbox = e :: q) :
        Tracked cs rs (s.served e) q := by
      rw [hq] at h
      cases e with
      | cancel k => exact again (q := []) h
      | request k => exact h.begin
    split at hstep <;> cases hstep <;> exact htake _ _ (by simp [*])
  · split at hstep <;> cases hstep <;> simp only [*] at h
    · exact h.again
    · simpa using h
  · cases hstep
    exact { h with current := by simp [ActiveCancellation.finish] }

end Tracked

namespace Session
variable {s : Session} {tr : List (Op × Unit)}

/-- While the list of early Cancels has room for each one that is read, the current request is
cancelled exactly when a Cancel for it was read. -/
theorem cancelled_iff_read (h : ExecWhen step (keeps · · = true) {} tr s)
    (hunique : (tr.flatMap (·.1.requests)).Nodup) {key : CancellationKey}
    (hcurrent : s.active.current = some key) :
    s.active.cancelled = true ↔ key ∈ tr.flatMap (·.1.cancels) := by
  have htracked := ExecWhen.invariant (fun tr s => (tr.flatMap (·.1.requests)).Nodup →
    Tracked (tr.flatMap (·.1.cancels)) (tr.flatMap (·.1.requests)) s.active (s.stash ++ s.inbox))
    (fun _ => by constructor <;> simp) (fun tr s op s' out ih hop hstep hnodup => by
      simp only [flatMap_append, flatMap_cons, flatMap_nil, append_nil] at hnodup ⊢
      exact (ih (nodup_append.mp hnodup).1).step hop hnodup hstep) h hunique
  exact (htracked.current key hcurrent).1

/-- A request that is cancelled while it is current. -/
def call (n : Nat) : List Op :=
  [.read (.request ⟨n, 1⟩), .serve, .read (.cancel ⟨n, 1⟩), .finish, .serve]

theorem cancelled_iff_read_once : ∃ tr s, ExecWhen step (keeps · · = true) {} tr s ∧
    (s.active.cancelled = true ↔ ⟨1, 1⟩ ∈ tr.flatMap (·.1.cancels)) := by
  have h : ExecWhen step (keeps · · = true) {} _ _ :=
    .next (.next (.next .start rfl (i := .read (.request ⟨1, 1⟩)) rfl) rfl (i := .serve) rfl)
      rfl (i := .read (.cancel ⟨1, 1⟩)) rfl
  exact ⟨_, _, h, cancelled_iff_read h (by decide +kernel) rfl⟩

def session : List Op := (range 256).flatMap (fun n => call (n + 1)) ++
  [.read (.request ⟨257, 1⟩), .read (.cancel ⟨257, 1⟩), .serve]

/-- A Cancel that comes up after its request ended stays in the list. With 256 of them there is
no room for the Cancel of a request that has not begun. -/
theorem early_cancel_lost : ∃ s tr, run step {} session = some (s, tr) ∧
    s.active.current = some ⟨257, 1⟩ ∧ s.active.cancelled = false :=
  run_of_eval _ _ _ _ (by decide +kernel)

end Session
end CriKey.Sdk
