import CriKey.Supervisor.Memory

/-! The circuit breaker along runs: when a plugin is suspended, how it gets out, and what
its failure streak counts. -/
namespace CriKey.Supervisor
open CriKey.Base CriKey.Core Table Option MemorySupervisor

/-- What an accepted event does to the worker state and the circuit. -/
inductive Change (r r' : PluginRecord) : Event → Prop
  | opened {failure : FailureKind} {at_ retryAt : Nat} (before : r.state ≠ .suspended)
      (state : r'.state = .suspended)
      (circuit : r'.circuit =
        ⟨satAdd32 r.circuit.failureStreak 1, some failure, some at_, some retryAt⟩) :
      Change r r' (.recordFailure failure at_)
  | failed {failure : FailureKind} {at_ : Nat} (before : r.state ≠ .suspended)
      (state : r'.state = .failed)
      (circuit : r'.circuit = ⟨satAdd32 r.circuit.failureStreak 1, some failure, some at_, none⟩) :
      Change r r' (.recordFailure failure at_)
  | succeeded (before : r.state ≠ .suspended) (state : r'.state = r.state)
      (circuit : r'.circuit = { r.circuit with failureStreak := 0, retryAt := none }) :
      Change r r' .recordSuccess
  | resumed {now retryAt : Nat} (due : r.circuit.retryAt = some retryAt) (elapsed : retryAt ≤ now)
      (state : r'.state = .restarting) (circuit : r'.circuit = { r.circuit with retryAt := none }) :
      Change r r' (.resumeIfReady now)
  | stopped (before : r.state ≠ .suspended) (state : r'.state = .notStarted)
      (circuit : r'.circuit = { r.circuit with retryAt := none }) : Change r r' .stop
  | moved {event : Event} (before : r.state ≠ .suspended) (after : r'.state ≠ .suspended)
      (circuit : r'.circuit = r.circuit) (fails : ∀ failure at_, event ≠ .recordFailure failure at_)
      (succeeds : event ≠ .recordSuccess) : Change r r' event
  | same {event : Event} (state : r'.state = r.state) (circuit : r'.circuit = r.circuit)
      (fails : ∀ failure at_, event ≠ .recordFailure failure at_)
      (succeeds : event ≠ .recordSuccess) : Change r r' event

namespace PluginRecord
variable {config : CircuitBreakerConfig} {p : PluginId} {r r' : PluginRecord}

lemma failureAllowed_not_suspended {failure : FailureKind}
    (h : failureAllowed r.state failure = true) : r.state ≠ .suspended := by
  intro hs
  rw [hs] at h
  cases failure <;> simp [failureAllowed] at h

lemma recordFailure_change {failure : FailureKind} {at_ : Nat}
    (h : r.recordFailure p config failure at_ = .ok r') :
    Change r r' (.recordFailure failure at_) := by
  unfold recordFailure at h
  cases hallowed : failureAllowed r.state failure with
  | false => simp [hallowed, illegalTransition] at h
  | true =>
    have hbefore := failureAllowed_not_suspended hallowed
    rw [hallowed, Bool.not_true, if_neg Bool.false_ne_true] at h
    cases htime : r.validateEventTimestamp p at_ with
    | error e => simp [htime, bind, Except.bind] at h
    | ok u =>
      simp only [htime, bind, Except.bind, pure, Except.pure] at h
      by_cases hopen : (config.failureThreshold != 0 &&
          decide (config.failureThreshold ≤ satAdd32 r.circuit.failureStreak 1)) = true
      · cases hadd : durationAdd at_ config.cooldown with
        | none => simp [hopen, hadd] at h
        | some retryAt =>
          simp only [hopen, hadd, if_true, Except.ok.injEq] at h
          subst h
          exact .opened hbefore rfl rfl
      · simp only [hopen, Bool.false_eq_true, if_false, Except.ok.injEq] at h
        subst h
        exact .failed hbefore rfl rfl

lemma resumeIfReady_change {now : Nat} (h : r.resumeIfReady p now = .ok r') :
    Change r r' (.resumeIfReady now) := by
  unfold resumeIfReady at h
  by_cases hs : r.state = .suspended
  · rw [if_neg (not_not.mpr hs)] at h
    cases hretry : r.circuit.retryAt with
    | none => simp [hretry] at h
    | some retryAt =>
      cases htime : r.validateEventTimestamp p now with
      | error e => simp [hretry, htime] at h
      | ok u =>
        simp only [hretry, htime, bind, Except.bind, pure, Except.pure, Except.ok.injEq] at h
        by_cases hdue : retryAt ≤ now
        · rw [if_pos hdue] at h
          subst h
          exact .resumed hretry hdue rfl rfl
        · rw [if_neg hdue] at h
          subst h
          exact .same rfl rfl (by simp) (by simp)
  · simp [hs, illegalTransition] at h

lemma recordLatency_change {latency : Nat} (h : r.recordLatency p latency = .ok r') :
    Change r r' (.recordLatency latency) := by
  have hsame : (r.sampleLatency latency).state = r.state ∧
      (r.sampleLatency latency).circuit = r.circuit := by
    unfold sampleLatency
    dsimp only
    split_ifs <;> exact ⟨rfl, rfl⟩
  unfold recordLatency at h
  by_cases hbusy : r.state = .busy
  · rw [if_neg (not_not.mpr hbusy), Except.ok.injEq] at h
    subst h
    exact .same hsame.1 hsame.2 (by simp) (by simp)
  · simp [hbusy, illegalTransition] at h

lemma apply_change {event : Event} (h : r.apply config p event = .ok r') : Change r r' event := by
  cases event with
  | start | markBusy =>
    simp only [apply, start, markBusy, illegalTransition] at h
    split_ifs at h with hs
    cases h
    exact .moved (by rw [not_not.mp hs]; decide) (by simp) rfl (by simp) (by simp)
  | stop =>
    simp only [apply, stop, illegalTransition] at h
    split_ifs at h with hs
    cases h
    exact .stopped (fun he => hs (.inr he)) rfl rfl
  | restart | markReady =>
    simp only [apply, restart, markReady, illegalTransition] at h
    split_ifs at h with hs
    cases h
    refine .moved (fun he => ?_) (by simp) rfl (by simp) (by simp)
    simp [he] at hs
  | recordFailure failure at_ => exact recordFailure_change h
  | recordSoftTimeout =>
    simp only [apply, recordSoftTimeout, illegalTransition] at h
    split_ifs at h with hs
    cases h
    exact .same rfl rfl (by simp) (by simp)
  | recordSuccess =>
    simp only [apply, recordSuccess, illegalTransition] at h
    split_ifs at h with hs
    cases h
    refine .succeeded (fun he => ?_) rfl rfl
    simp [he] at hs
  | resumeIfReady now => exact resumeIfReady_change h
  | recordLatency latency => exact recordLatency_change h
  | recordCancellation honoured delta =>
    cases h
    cases honoured <;> exact .same rfl rfl (by simp) (by simp)
  | recordQueueDepth | recordStaleResultRejected | recordObsoleteRequestDropped
  | recordConcurrencyRefusal =>
    cases h
    exact .same rfl rfl (by simp) (by simp)

end PluginRecord

/-- The count of failures in a row after one more call on the supervisor. -/
def countFailures (p : PluginId) (n : Nat) : Op × Output → Nat
  | (.record a (.recordFailure _ _), .result (.ok _)) => if a = p then n + 1 else n
  | (.record a .recordSuccess, .result (.ok _)) => if a = p then 0 else n
  | (.register a, .result (.ok _)) => if a = p then 0 else n
  | _ => n

/-- The failures recorded for the plugin since its last success or its registration. -/
def failuresInARow (p : PluginId) (tr : List (Op × Output)) : Nat :=
  tr.foldl (countFailures p) 0

lemma failuresInARow_snoc (p : PluginId) (tr : List (Op × Output)) (io : Op × Output) :
    failuresInARow p (tr ++ [io]) = countFailures p (failuresInARow p tr) io := by
  simp [failuresInARow]

/-- The record of a plugin agrees with the calls made for it. -/
structure Accurate (p : PluginId) (tr : List (Op × Output)) (r : PluginRecord) : Prop where
  suspended : r.state = .suspended ↔ r.circuit.retryAt.isSome
  streak : r.circuit.failureStreak = min (failuresInARow p tr) u32Max

lemma Accurate.kept {p : PluginId} {tr : List (Op × Output)} {io : Op × Output} {r : PluginRecord}
    (h : Accurate p tr r) (hio : countFailures p (failuresInARow p tr) io = failuresInARow p tr) :
    Accurate p (tr ++ [io]) r :=
  ⟨h.suspended, by rw [failuresInARow_snoc, hio]; exact h.streak⟩

lemma satAdd32_min (n : Nat) : satAdd32 (min n u32Max) 1 = min (n + 1) u32Max := by
  unfold satAdd32
  omega

variable {p : PluginId} {tr : List (Op × Output)} {r : PluginRecord}

lemma Change.accurate {r' : PluginRecord} {event : Event} (h : Change r r' event)
    (ha : Accurate p tr r) : Accurate p (tr ++ [(.record p event, .result (.ok ()))]) r' := by
  have hquiet : ∀ hf : (∀ failure at_, event ≠ .recordFailure failure at_), event ≠ .recordSuccess →
      failuresInARow p (tr ++ [(.record p event, .result (.ok ()))]) = failuresInARow p tr := by
    intro hf hs
    rw [failuresInARow_snoc]
    cases event with
    | recordFailure failure at_ => exact absurd rfl (hf failure at_)
    | recordSuccess => exact absurd rfl hs
    | _ => rfl
  cases h with
  | opened before state circuit | failed before state circuit =>
    refine ⟨by simp [state, circuit], ?_⟩
    rw [circuit, failuresInARow_snoc, countFailures, if_pos rfl, ha.streak]
    exact satAdd32_min _
  | succeeded before state circuit =>
    refine ⟨by simp [state, circuit, before], ?_⟩
    rw [circuit, failuresInARow_snoc, countFailures, if_pos rfl, Nat.zero_min]
  | resumed due elapsed state circuit | stopped before state circuit =>
    refine ⟨by simp [state, circuit], ?_⟩
    rw [circuit, hquiet (by simp) (by simp)]
    exact ha.streak
  | moved before after circuit fails succeeds =>
    have hnone := (not_congr ha.suspended).mp before
    refine ⟨by simp [after, circuit, hnone], ?_⟩
    rw [circuit, hquiet fails succeeds]
    exact ha.streak
  | same state circuit fails succeeds =>
    refine ⟨by rw [state, circuit]; exact ha.suspended, ?_⟩
    rw [circuit, hquiet fails succeeds]
    exact ha.streak

/-- Every record agrees with the calls so far. -/
def AllAccurate (tr : List (Op × Output)) (s : MemorySupervisor) : Prop :=
  ∀ p r, s.plugins.get? p = some r → Accurate p tr r

/-- A call with what is known of its outcome. -/
inductive Answered (s : MemorySupervisor) : Op → MemorySupervisor → Output → Prop
  | failed (op : Op) (e : SupervisorError) : Answered s op s (.result (.error e))
  | registered {p : PluginId} (absent : s.plugins.get? p = none) :
      Answered s (.register p) { s with plugins := s.plugins.insert p {} } (.result (.ok ()))
  | unregistered (p : PluginId) :
      Answered s (.unregister p) (s.unregister p).1 (.removed (s.unregister p).2)
  | recorded {p : PluginId} {event : Event} {r r' : PluginRecord}
      (present : s.plugins.get? p = some r) (change : Change r r' event) :
      Answered s (.record p event) { s with plugins := s.plugins.modify p fun _ => r' }
        (.result (.ok ()))

variable {s s' : MemorySupervisor} {op : Op} {o : Output}

lemma step_answered (h : step s op = some (s', o)) : Answered s op s' o := by
  cases op with
  | register p =>
    simp only [step, register, contains] at h
    cases hp : s.plugins.get? p with
    | some r =>
      simp only [hp] at h
      obtain ⟨rfl, rfl⟩ := h
      exact .failed _ _
    | none =>
      simp only [hp] at h
      obtain ⟨rfl, rfl⟩ := h
      exact .registered hp
  | unregister p =>
    cases h
    exact .unregistered p
  | record p event =>
    simp only [step, record] at h
    cases hp : s.plugins.get? p with
    | none =>
      simp only [hp] at h
      obtain ⟨rfl, rfl⟩ := h
      exact .failed _ _
    | some r =>
      cases happly : r.apply s.circuitBreaker p event with
      | error e =>
        simp only [hp, happly] at h
        obtain ⟨rfl, rfl⟩ := h
        exact .failed _ _
      | ok r' =>
        simp only [hp, happly, settle] at h
        obtain ⟨rfl, rfl⟩ := h
        exact .recorded hp (PluginRecord.apply_change happly)

lemma countFailures_error (n : Nat) (op : Op) (e : SupervisorError) :
    countFailures p n (op, .result (.error e)) = n := by
  rcases op with a | a | ⟨a, event⟩
  · rfl
  · rfl
  · cases event <;> rfl

lemma countFailures_other {a : PluginId} (hne : a ≠ p) (n : Nat) (event : Event) (o : Output) :
    countFailures p n (.record a event, o) = n := by
  rcases o with result | found
  · cases result <;> cases event <;> simp [countFailures, hne]
  · cases event <;> rfl

lemma accurate_step (h : AllAccurate tr s) (hstep : step s op = some (s', o)) :
    AllAccurate (tr ++ [(op, o)]) s' := by
  intro p r hr
  cases step_answered hstep with
  | failed op e => exact (h p r hr).kept (countFailures_error _ op e)
  | @registered a absent =>
    rw [get?_insert] at hr
    by_cases hp : p = a
    · subst hp
      rw [if_pos rfl, some.injEq] at hr
      subst hr
      refine ⟨by simp, ?_⟩
      rw [failuresInARow_snoc, countFailures, if_pos rfl, Nat.zero_min]
    · rw [if_neg hp] at hr
      exact (h p r hr).kept (if_neg (Ne.symm hp))
  | unregistered a =>
    have hold : s.plugins.get? p = some r := by
      rw [unregister, get?_erase] at hr
      by_cases hp : p = a
      · simp [hp] at hr
      · rwa [if_neg hp] at hr
    exact (h p r hold).kept rfl
  | @recorded a event r₀ r' present change =>
    by_cases hp : p = a
    · subst hp
      rw [get?_modify_self, present, map_some, some.injEq] at hr
      subst hr
      exact change.accurate (h p r₀ present)
    · rw [get?_modify_ne _ _ hp] at hr
      exact (h p r hr).kept (countFailures_other (Ne.symm hp) _ _ _)

/-- The error of a suspended plugin without a retry timestamp. -/
def missingRetry : SupervisorError := .invalidConfig noRetryTimestamp

lemma PluginRecord.validateEventTimestamp_error {now : Nat} :
    r.validateEventTimestamp p now ≠ .error missingRetry := by
  unfold validateEventTimestamp
  cases r.lastEventAt with
  | none => simp
  | some previous =>
    by_cases hlt : now < previous <;> simp [hlt, missingRetry]

variable {config : CircuitBreakerConfig}

lemma PluginRecord.apply_missingRetry {event : Event}
    (h : r.apply config p event = .error missingRetry) :
    r.state = .suspended ∧ r.circuit.retryAt = none := by
  have htexts : cooldownOverflow ≠ noRetryTimestamp := by decide
  cases event with
  | recordFailure failure at_ =>
    simp only [apply, recordFailure, illegalTransition] at h
    cases hallowed : failureAllowed r.state failure with
    | false => simp [hallowed, missingRetry] at h
    | true =>
      rw [hallowed, Bool.not_true, if_neg Bool.false_ne_true] at h
      cases htime : r.validateEventTimestamp p at_ with
      | error e =>
        simp only [htime, bind, Except.bind, Except.error.injEq] at h
        exact absurd (h ▸ htime) validateEventTimestamp_error
      | ok u =>
        simp only [htime, bind, Except.bind, pure, Except.pure] at h
        split_ifs at h
        cases hadd : durationAdd at_ config.cooldown with
        | none => simp [hadd, missingRetry, htexts] at h
        | some retryAt => simp [hadd] at h
  | resumeIfReady now =>
    simp only [apply, resumeIfReady, illegalTransition] at h
    by_cases hs : r.state = .suspended
    · rw [if_neg (not_not.mpr hs)] at h
      cases hretry : r.circuit.retryAt with
      | none => exact ⟨hs, rfl⟩
      | some retryAt =>
        cases htime : r.validateEventTimestamp p now with
        | error e =>
          simp only [hretry, htime, bind, Except.bind, Except.error.injEq] at h
          exact absurd (h ▸ htime) validateEventTimestamp_error
        | ok u => simp [hretry, htime, bind, Except.bind, pure, Except.pure] at h
    · simp [hs, missingRetry] at h
  | recordQueueDepth | recordCancellation | recordStaleResultRejected
  | recordObsoleteRequestDropped | recordConcurrencyRefusal => cases h
  | start | stop | restart | markReady | markBusy | recordSoftTimeout | recordSuccess
  | recordLatency =>
    simp only [apply, start, stop, restart, markReady, markBusy, recordSoftTimeout, recordSuccess,
      recordLatency] at h
    split_ifs at h
    cases h

lemma step_retry (h : AllAccurate tr s) : step s op ≠ some (s', .result (.error missingRetry)) := by
  intro hstep
  cases op with
  | register p =>
    simp only [step, register] at hstep
    split_ifs at hstep <;> simp [settle, missingRetry] at hstep
  | unregister p => simp [step] at hstep
  | record p event =>
    simp only [step, record] at hstep
    cases hp : s.plugins.get? p with
    | none => simp [hp, settle, missingRetry] at hstep
    | some r =>
      cases happly : r.apply s.circuitBreaker p event with
      | ok r' => simp [hp, happly, settle] at hstep
      | error e =>
        simp only [hp, happly, settle, some.injEq, Prod.mk.injEq, Output.result.injEq,
          Except.error.injEq] at hstep
        rw [hstep.2] at happly
        obtain ⟨hsuspended, hnone⟩ := PluginRecord.apply_missingRetry happly
        have hsome := (h p r hp).suspended.mp hsuspended
        rw [hnone] at hsome
        cases hsome

lemma suspended_step (hr : s.plugins.get? p = some r) (hs : r.state = .suspended)
    (hstep : step s op = some (s', o)) :
    (∃ r', s'.plugins.get? p = some r' ∧ r'.state = .suspended) ∨ op = .unregister p ∨
      ∃ now retryAt, op = .record p (.resumeIfReady now) ∧ r.circuit.retryAt = some retryAt ∧
        retryAt ≤ now := by
  cases step_answered hstep with
  | failed op e => exact .inl ⟨r, hr, hs⟩
  | @registered a absent =>
    have hp : p ≠ a := by
      rintro rfl
      rw [absent] at hr
      cases hr
    exact .inl ⟨r, by rw [get?_insert, if_neg hp]; exact hr, hs⟩
  | unregistered a =>
    by_cases hp : p = a
    · exact .inr (.inl (by rw [hp]))
    · refine .inl ⟨r, ?_, hs⟩
      rw [unregister, get?_erase, if_neg hp]
      exact hr
  | @recorded a event r₀ r' present change =>
    by_cases hp : p = a
    · subst hp
      obtain rfl : r = r₀ := some.inj (hr.symm.trans present)
      have hget : (s.plugins.modify p fun _ => r').get? p = some r' := by
        rw [get?_modify_self, present, map_some]
      cases change with
      | resumed due elapsed state circuit => exact .inr (.inr ⟨_, _, rfl, due, elapsed⟩)
      | same state circuit fails succeeds => exact .inl ⟨r', hget, state.trans hs⟩
      | opened before | failed before | succeeded before | stopped before | moved before =>
        exact absurd hs before
    · exact .inl ⟨r, by rw [get?_modify_ne _ _ hp]; exact hr, hs⟩

lemma error_step {e : SupervisorError} (hstep : step s op = some (s', .result (.error e))) :
    s' = s := by
  generalize ho : (Output.result (.error e) : Output) = o at hstep
  cases step_answered hstep with
  | failed => rfl
  | registered | unregistered | recorded => cases ho

lemma accurate_exec {t : MemorySupervisor} (h : Exec step (.new config) tr t) :
    AllAccurate tr t ∧ ∀ io ∈ tr, io.2 ≠ .result (.error missingRetry) := by
  refine Exec.invariant
    (fun tr t => AllAccurate tr t ∧ ∀ io ∈ tr, io.2 ≠ .result (.error missingRetry)) ?_ ?_ h
  · exact ⟨fun p r hr => (by cases hr), fun io hio => absurd hio List.not_mem_nil⟩
  · intro tr t op t' o _ ih hstep
    refine ⟨accurate_step ih.1 hstep, ?_⟩
    intro io hio
    rw [List.mem_append, List.mem_singleton] at hio
    cases hio with
    | inl hold => exact ih.2 io hold
    | inr hnew =>
      subst hnew
      rintro rfl
      exact step_retry ih.1 hstep

lemma run_returns (s : MemorySupervisor) (ops : List Op) :
    ∃ t tr, run step s ops = some (t, tr) := by
  refine run_total (fun _ _ => True) trivial ?_
  intro op ops t _
  cases op <;> exact ⟨_, _, rfl, trivial⟩

/-- After every sequence of calls a plugin is suspended exactly when it has a retry timestamp,
and its streak counts, up to the top of 32 bits, the failures recorded since its last success
or its registration; no call reported the missing timestamp. A suspended plugin leaves that
state only by `resumeIfReady` at or after the timestamp or by unregistration, and a call that
fails changes nothing. -/
theorem circuit_breaker (config : CircuitBreakerConfig) (ops : List Op) :
    ∃ t tr, run step (.new config) ops = some (t, tr) ∧ (∀ p r, t.plugins.get? p = some r →
        (r.state = .suspended ↔ r.circuit.retryAt.isSome) ∧
          r.circuit.failureStreak = min (failuresInARow p tr) u32Max) ∧
      (∀ io ∈ tr, io.2 ≠ .result (.error (.invalidConfig noRetryTimestamp))) ∧
      ∀ op t' o, step t op = some (t', o) →
        (∀ p r, t.plugins.get? p = some r → r.state = .suspended →
          (∃ r', t'.plugins.get? p = some r' ∧ r'.state = .suspended) ∨ op = .unregister p ∨
            ∃ now retryAt, op = .record p (.resumeIfReady now) ∧
              r.circuit.retryAt = some retryAt ∧ retryAt ≤ now) ∧
          ∀ e, o = .result (.error e) → t' = t := by
  obtain ⟨t, tr, hrun⟩ := run_returns (.new config) ops
  obtain ⟨haccurate, hretry⟩ := accurate_exec (exec_of_run hrun).1
  refine ⟨t, tr, hrun, ?_, hretry, ?_⟩
  · intro p r hr
    exact ⟨(haccurate p r hr).suspended, (haccurate p r hr).streak⟩
  · intro op t' o hstep
    refine ⟨fun p r hr hs => suspended_step hr hs hstep, ?_⟩
    rintro e rfl
    exact error_step hstep

/-- One failure suspends at once, with no cooldown. -/
def hairTrigger : CircuitBreakerConfig := ⟨1, 0⟩

def failAndResume : List Op :=
  [.register ⟨"files"⟩, .record ⟨"files"⟩ .start,
    .record ⟨"files"⟩ (.recordFailure .startup 0), .record ⟨"files"⟩ (.resumeIfReady 0)]

/-- A resumption keeps the streak: the calls after it recorded no failure, and it still
reads one. -/
theorem resumption_keeps_streak :
    ∃ s t tr later r r', run step (.new hairTrigger) (failAndResume.take 3) = some (s, tr) ∧
      run step (.new hairTrigger) failAndResume = some (t,
        tr ++ (.record ⟨"files"⟩ (.resumeIfReady 0), .result (.ok ())) :: later) ∧
      s.plugins.get? ⟨"files"⟩ = some r ∧ r.state = .suspended ∧
      t.plugins.get? ⟨"files"⟩ = some r' ∧ r'.state = .restarting ∧
      failuresInARow ⟨"files"⟩ later = 0 ∧ r'.circuit.failureStreak = 1 :=
  ⟨_, _, _, [], _, _, rfl, rfl, rfl, rfl, rfl, rfl, rfl, rfl⟩

end CriKey.Supervisor
