import CriKey.Supervisor.Memory

/-! The running mean of a plugin's latencies. Mean and remainder together carry the exact sum, and
the 128-bit arithmetic behind them never leaves its range. -/
namespace CriKey.Supervisor
open CriKey.Base CriKey.Core PluginRecord List

/-- The calls made for one plugin; a refused one leaves the record as it was. -/
def recordStep (config : CircuitBreakerConfig) (plugin : PluginId) (record : PluginRecord)
    (event : Event) : Option (PluginRecord × Bool) :=
  match record.apply config plugin event with
  | .ok record' => some (record', true)
  | .error _ => some (record, false)

/-- The latencies that were taken, in nanoseconds. -/
def samples (tr : List (Event × Bool)) : List Nat :=
  tr.filterMap fun
    | (.recordLatency latency, true) => some latency
    | _ => none

def add128 (a b : Nat) : Option Nat := if a + b < 2 ^ 128 then some (a + b) else none

def mul128 (a b : Nat) : Option Nat := if a * b < 2 ^ 128 then some (a * b) else none

/-- The step from one mean to the next, with every 128-bit operation checked. -/
def checkedMean (denominator mean remainder sampleNs : Nat) : Option (Nat × Nat) := do
  let adjustedSample ← add128 remainder sampleNs
  if mean ≤ adjustedSample then
    let excess ← checkedSub adjustedSample mean
    return (← add128 mean (excess / denominator), excess % denominator)
  else
    let deficit ← checkedSub mean adjustedSample
    let decrement ← add128 ((← checkedSub deficit 1) / denominator) 1
    let remainder ← checkedSub (← mul128 decrement denominator) deficit
    return (← checkedSub mean decrement, remainder)

/-- No operation leaves its range, and the new pair carries the new sum. -/
lemma checkedMean_spec {m n r x S : Nat} (hsum : m * n + r = S) (hr : r < n) (hn : n < u64Max)
    (hm : m ≤ durationMax) (hx : x ≤ durationMax) :
    ∃ m' r', checkedMean (n + 1) m r x = some (m', r') ∧ m' * (n + 1) + r' = S + x ∧
      r' < n + 1 := by
  have hmax : durationMax = 18446744073709551615999999999 := rfl
  have hmax' : u64Max = 18446744073709551615 := rfl
  have hadjusted : add128 r x = some (r + x) := if_pos (by omega)
  by_cases hle : m ≤ r + x
  · have hdiv := Nat.div_add_mod (r + x - m) (n + 1)
    have hless : (r + x - m) / (n + 1) ≤ r + x - m := Nat.div_le_self _ _
    have hnew : add128 m ((r + x - m) / (n + 1)) = some _ := if_pos (by omega)
    refine ⟨_, _, by
      simp [checkedMean, hadjusted, hle, checkedSub_of_le hle, hnew]
      exact ⟨rfl, rfl⟩, ?_, Nat.mod_lt _ (Nat.succ_pos n)⟩
    have hback : r + x - m + m = r + x := by omega
    linarith
  · -- the mean falls by the deficit over the new count, rounded up
    obtain ⟨d, hd⟩ : ∃ d, m = r + x + (d + 1) := ⟨m - (r + x) - 1, by omega⟩
    have hdiv := Nat.div_add_mod d (n + 1)
    have hmod := Nat.mod_lt d (Nat.add_one_pos n)
    have hless : d / (n + 1) ≤ d := Nat.div_le_self _ _
    have hprod : (d / (n + 1) + 1) * (n + 1) = (n + 1) * (d / (n + 1)) + (n + 1) := by ring
    have hdeficit : checkedSub m (r + x) = some (d + 1) := by
      rw [checkedSub_of_le (by omega), hd, Nat.add_sub_cancel_left]
    have hdown : add128 (d / (n + 1)) 1 = some _ := if_pos (by omega)
    have htimes : mul128 (d / (n + 1) + 1) (n + 1) = some _ := if_pos (by omega)
    have hrest := checkedSub_of_le (a := (d / (n + 1) + 1) * (n + 1)) (b := d + 1) (by omega)
    have hmean := checkedSub_of_le (a := m) (b := d / (n + 1) + 1) (by omega)
    refine ⟨_, _, by simp [checkedMean, hadjusted, hle, hdeficit, checkedSub_of_le, hdown, htimes,
      hrest, hmean]; exact ⟨rfl, rfl⟩, ?_, by omega⟩
    have hsplit : m - (d / (n + 1) + 1) + (d / (n + 1) + 1) = m := by omega
    have hsplit' : (d / (n + 1) + 1) * (n + 1) - (d + 1) + (d + 1) =
        (d / (n + 1) + 1) * (n + 1) := by omega
    nlinarith

/-- Mean and remainder stand for the exact sum. -/
structure Averages (xs : List Nat) (r : PluginRecord) : Prop where
  count : r.health.latencySamples = xs.length
  sum : r.latencyMeanNs * xs.length + r.latencyRemainder = xs.sum
  remainder : r.latencyRemainder < max 1 xs.length
  average : r.health.averageLatencyMs = min (xs.sum / (xs.length * 1000000)) u64Max

variable {config : CircuitBreakerConfig} {p : PluginId} {r r' : PluginRecord} {xs : List Nat}
  {x : Nat}

lemma div_of_sum {m n c S : Nat} (h : m * n + c = S) (hc : c < n) : m = S / n := by
  rw [← h, Nat.add_comm, Nat.add_mul_div_right _ _ (by omega), Nat.div_eq_of_lt hc, Nat.zero_add]

lemma Averages.checked (h : Averages xs r) (hpos : xs ≠ []) (hn : xs.length < u64Max)
    (hlong : ∀ y ∈ xs, y ≤ durationMax) (hx : x ≤ durationMax) :
    checkedMean (xs.length + 1) r.latencyMeanNs r.latencyRemainder x =
        some ((r.sampleLatency x).latencyMeanNs, (r.sampleLatency x).latencyRemainder) ∧
      (r.sampleLatency x).latencyMeanNs * (xs.length + 1) + (r.sampleLatency x).latencyRemainder =
        xs.sum + x ∧ (r.sampleLatency x).latencyRemainder < xs.length + 1 := by
  have hcount := length_pos_iff.mpr hpos
  have hr : r.latencyRemainder < xs.length := by
    have := h.remainder
    omega
  have hm : r.latencyMeanNs ≤ durationMax := by
    rw [div_of_sum h.sum hr]
    have := sum_le_card_nsmul xs durationMax hlong
    exact Nat.div_le_of_le_mul (by simpa using this)
  obtain ⟨m', r', hstep, hsum, hrem⟩ := checkedMean_spec h.sum hr hn hm hx
  have hsame : (r.sampleLatency x).latencyMeanNs = m' ∧
      (r.sampleLatency x).latencyRemainder = r' := by
    simp only [sampleLatency, h.count, if_neg hcount.ne', if_pos hn.ne]
    simp only [checkedMean, add128, mul128, checkedSub, Option.bind_eq_bind,
      Option.pure_def] at hstep
    grind
  rw [hsame.1, hsame.2]
  exact ⟨hstep, hsum, hrem⟩

lemma Averages.take (h : Averages xs r) (hn : xs.length < u64Max)
    (hlong : ∀ y ∈ xs, y ≤ durationMax) (hx : x ≤ durationMax)
    (hok : r.recordLatency p x = .ok r') :
    Averages (xs ++ [x]) r' := by
  have hnew : (r.sampleLatency x).health.latencySamples = xs.length + 1 ∧
      (r.sampleLatency x).latencyMeanNs * (xs.length + 1) + (r.sampleLatency x).latencyRemainder =
        xs.sum + x ∧ (r.sampleLatency x).latencyRemainder < xs.length + 1 := by
    by_cases hpos : xs = []
    · simp [sampleLatency, h.count, hpos]
    · refine ⟨?_, (h.checked hpos hn hlong hx).2⟩
      grind [sampleLatency, h.count, length_pos_iff]
  obtain ⟨hcount, hsum, hrem⟩ := hnew
  have hmean := div_of_sum hsum hrem
  unfold recordLatency at hok
  split at hok
  · cases hok
  cases hok
  refine ⟨by simpa using hcount, by simpa using hsum, by simpa using hrem, ?_⟩
  simp [hmean, Nat.div_div_eq_div_mul]

/-- Only a latency that is taken moves the mean. -/
lemma Averages.keep {event : Event} (h : Averages xs r) (hok : r.apply config p event = .ok r')
    (hother : ∀ x, event ≠ .recordLatency x) : Averages xs r' := by
  obtain ⟨count, sum, remainder, average⟩ := h
  cases event with
  | recordLatency x => exact absurd rfl (hother x)
  | recordFailure failure =>
    simp only [apply, recordFailure, illegalTransition, bind, Except.bind, pure, Except.pure] at hok
    cases failure <;> grind [Averages, PluginHealth.countFailure]
  | resumeIfReady now =>
    simp only [apply, resumeIfReady, illegalTransition, bind, Except.bind, pure, Except.pure] at hok
    grind [Averages]
  | _ =>
    grind [Averages, apply, start, stop, restart, markReady, markBusy, recordSoftTimeout,
      recordSuccess, illegalTransition, recordQueueDepth, recordCancellation,
      recordStaleResultRejected, recordObsoleteRequestDropped, recordConcurrencyRefusal]

variable {tr : List (Event × Bool)}

lemma averages_exec (h : Exec (recordStep config p) {} tr r) :
    (samples tr).length < 2 ^ 64 → (∀ x ∈ samples tr, x ≤ durationMax) →
      Averages (samples tr) r := by
  refine Exec.invariant (fun tr r => (samples tr).length < 2 ^ 64 →
    (∀ x ∈ samples tr, x ≤ durationMax) → Averages (samples tr) r)
    (fun _ _ => ⟨rfl, rfl, by decide, rfl⟩) ?_ h
  intro tr r event r' taken _ ih hstep hmany hlong
  have happ : samples (tr ++ [(event, taken)]) = samples tr ++ samples [(event, taken)] := by
    simp [samples]
  rw [happ] at hmany hlong ⊢
  rw [length_append] at hmany
  have hold := ih (by omega) fun x hx => hlong x (mem_append_left _ hx)
  unfold recordStep at hstep
  split at hstep <;> cases hstep
  case h_2 =>
    have hnone : samples [(event, false)] = [] := by cases event <;> rfl
    rwa [hnone, append_nil]
  case h_1 hok =>
    cases event with
    | recordLatency x =>
      have hone : samples [(Event.recordLatency x, true)] = [x] := rfl
      rw [hone] at hmany hlong ⊢
      have hn : (samples tr).length < u64Max := by
        rw [length_singleton] at hmany
        rw [u64Max]
        omega
      exact hold.take hn (fun y hy => hlong y (mem_append_left _ hy)) (hlong x (by simp)) hok
    | _ =>
      exact (append_nil (samples tr)).symm ▸ hold.keep hok (by simp)

/-- After every sequence of calls for a plugin that took fewer than `2 ^ 64` latencies, mean and
remainder carry their exact sum, the reported average is its whole milliseconds up to the top of 64
bits, and no operation on the next latency leaves the range of 128 bits. -/
theorem latency_mean_exact (config : CircuitBreakerConfig) (plugin : PluginId)
    (h : Exec (recordStep config plugin) {} tr r) (hmany : (samples tr).length < 2 ^ 64)
    (hlong : ∀ x ∈ samples tr, x ≤ durationMax) :
    r.latencyMeanNs * (samples tr).length + r.latencyRemainder = (samples tr).sum ∧
      (samples tr ≠ [] → r.latencyRemainder < (samples tr).length) ∧
      r.health.averageLatencyMs = min ((samples tr).sum / ((samples tr).length * 1000000)) u64Max ∧
      ∀ x ≤ durationMax, samples tr ≠ [] → (samples tr).length + 1 < 2 ^ 64 →
        checkedMean ((samples tr).length + 1) r.latencyMeanNs r.latencyRemainder x =
          some ((r.sampleLatency x).latencyMeanNs, (r.sampleLatency x).latencyRemainder) := by
  have haverages := averages_exec h hmany hlong
  refine ⟨haverages.sum, fun hne => ?_, haverages.average, fun x hx hne hnext => ?_⟩
  · have := length_pos_iff.mpr hne
    have := haverages.remainder
    omega
  · have hn : (samples tr).length < u64Max := by
      rw [u64Max]
      omega
    exact (haverages.checked hne hn hlong hx).1

/-- A plugin that answers twice. -/
theorem latency_mean_two_answers : ∃ r tr, run (recordStep ⟨3, 0⟩ ⟨"files"⟩) {}
      [.start, .markReady, .markBusy, .recordLatency 5000000, .recordLatency 2000001] =
        some (r, tr) ∧
      r.latencyMeanNs * 2 + r.latencyRemainder = 7000001 ∧ r.health.averageLatencyMs = 3 := by
  have hrun : run (recordStep ⟨3, 0⟩ ⟨"files"⟩) {} [.start, .markReady, .markBusy,
    .recordLatency 5000000, .recordLatency 2000001] = some _ := rfl
  have hmean := latency_mean_exact ⟨3, 0⟩ ⟨"files"⟩ (exec_of_run hrun).1 (by decide) (by decide)
  exact ⟨_, _, hrun, hmean.1, hmean.2.2.1⟩

/-- The longest latency there is has more milliseconds than 64 bits hold. -/
theorem average_saturates : ∃ r tr,
    run (recordStep ⟨3, 0⟩ ⟨"files"⟩) {}
      [.start, .markReady, .markBusy, .recordLatency durationMax] =
      some (r, tr) ∧ samples tr = [durationMax] ∧
      r.health.averageLatencyMs < durationMax / (1 * 1000000) :=
  ⟨_, _, rfl, rfl, by decide⟩

end CriKey.Supervisor
