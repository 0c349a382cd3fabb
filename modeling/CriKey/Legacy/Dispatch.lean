import CriKey.Legacy.Steps

/-! Serial dispatch: an instance is handed one callback at a time, `on_start` first and once. -/
namespace CriKey.Legacy
open CriKey.Base CriKey.Core CriKey.Scheduler LegacyRuntime List Option WorkKind Instance

variable (past : List Event)

/-- The callback an instance has in hand after these events: the last one that crossed the
boundary, until it is answered. -/
def holding (id : InstanceId) : Option (Generation × LegacyCallback) :=
  past.foldl (fun held e =>
    match e with
    | .offered request true =>
      if request.inst = id then some (request.generation, request.callback) else held
    | .answered response => if response.inst = id then none else held
    | _ => held) none

/-- No `on_start` went to this instance yet. -/
def NoStart (id : InstanceId) : Prop :=
  ∀ request accepted, .offered request accepted ∈ past → request.inst = id →
    request.callback ≠ .onStart

/-- The instance answered its `on_start` without failure. -/
def StartAnswered (id : InstanceId) : Prop :=
  ∃ response, .answered response ∈ past ∧ response.inst = id ∧ response.callback = .onStart ∧
    response.outcome ≠ .failed

/-- When a callback is offered, its instance has none in hand, has answered its `on_start` unless
this is the first offer of it, and the runtime has not shut down. -/
def Proper : Event → Prop
  | .offered request _ =>
    holding past request.inst = none ∧ (request.callback = .onStart → NoStart past request.inst) ∧
      (request.callback ≠ .onStart → StartAnswered past request.inst) ∧ .stopped ∉ past
  | _ => True

def Event.subject : Event → Option InstanceId
  | .offered request _ => some request.inst
  | .answered response => some response.inst
  | _ => none

section Past
variable {past es : List Event} {id : InstanceId}

lemma holding_append (past es : List Event) (id : InstanceId) :
    holding (past ++ es) id = es.foldl (fun held e =>
      match e with
      | .offered request true =>
        if request.inst = id then some (request.generation, request.callback) else held
      | .answered response => if response.inst = id then none else held
      | _ => held) (holding past id) :=
  foldl_append

lemma holding_append_of_ne (h : ∀ e ∈ es, e.subject ≠ some id) :
    holding (past ++ es) id = holding past id := by
  rw [holding_append]
  induction es with
  | nil => rfl
  | cons e es ih =>
    have hrest := ih fun x hx => h x (mem_cons_of_mem e hx)
    have he := h e mem_cons_self
    cases e with
    | offered request accepted =>
      have hne : request.inst ≠ id := fun heq => he (congrArg some heq)
      cases accepted <;> simpa [hne] using hrest
    | answered response =>
      have hne : response.inst ≠ id := fun heq => he (congrArg some heq)
      simpa [hne] using hrest
    | _ => exact hrest

lemma holding_of_ne (h : ∀ e ∈ past, e.subject ≠ some id) : holding past id = none := by
  rw [← nil_append past, holding_append_of_ne h]
  rfl

lemma NoStart.append (h : NoStart past id) (hes : ∀ e ∈ es, e.subject ≠ some id) :
    NoStart (past ++ es) id := by
  intro request accepted hmem hid
  rcases mem_append.mp hmem with hold | hnew
  · exact h request accepted hold hid
  · exact absurd (congrArg some hid) (hes _ hnew)

lemma StartAnswered.append (h : StartAnswered past id) : StartAnswered (past ++ es) id := by
  obtain ⟨response, hmem, hrest⟩ := h
  exact ⟨response, mem_append_left _ hmem, hrest⟩

end Past

/-! ### The ledger -/

namespace Instance
variable {i : Instance}

/-- The callback the worker runs for this instance. -/
def inHand (i : Instance) : Option (Generation × LegacyCallback) :=
  i.running.bind fun w =>
    if w.dispatchedAtMs.isSome then some (w.generation, w.callback) else none

/-- `on_start` is still to be handed over. -/
def OwesStart (i : Instance) : Prop :=
  i.queuedStart = true ∨ ∃ w, i.running = some w ∧ w.callback = .onStart ∧ w.dispatchedAtMs = none

/-- What the state of an instance says about the past. -/
structure Booked (past : List Event) (i : Instance) : Prop where
  held : holding past i.id = i.inHand
  owes : i.OwesStart → NoStart past i.id
  begun : i.started = true → StartAnswered past i.id

lemma Booked.append {past es : List Event} (h : i.Booked past)
    (hes : ∀ e ∈ es, e.subject ≠ some i.id) : i.Booked (past ++ es) where
  held := by rw [holding_append_of_ne hes, h.held]
  owes := fun ho => (h.owes ho).append hes
  begun := fun hs => (h.begun hs).append

lemma Booked.same {past : List Event} {j : Instance} (h : i.Booked past) (hid : j.id = i.id)
    (hheld : j.inHand = i.inHand) (howes : j.OwesStart → i.OwesStart)
    (hstarted : j.started = true → i.started = true) : j.Booked past where
  held := by rw [hid, h.held, hheld]
  owes := fun ho => hid ▸ h.owes (howes ho)
  begun := fun hs => hid ▸ h.begun (hstarted hs)

lemma inHand_of_running_none (h : i.running = none) : i.inHand = none := by
  simp [inHand, h]

lemma inHand_of_undispatched {w : RunningWork} (hw : i.running = some w)
    (hd : w.dispatchedAtMs = none) : i.inHand = none := by
  simp [inHand, hw, hd]

variable {f : RunningWork → RunningWork}

lemma inHand_map (hf : Faithful f) : { i with running := i.running.map f }.inHand = i.inHand := by
  cases hw : i.running with
  | none => simp [inHand, hw]
  | some w => simp [inHand, hw, hf.dispatchedAtMs, hf.generation, hf.callback]

lemma owesStart_map (hf : Faithful f)
    (h : { i with running := i.running.map f }.OwesStart) : i.OwesStart := by
  rcases h with hq | ⟨w, hw, hc, hd⟩
  · exact .inl hq
  · obtain ⟨v, hv, rfl⟩ := map_eq_some_iff.mp hw
    exact .inr ⟨v, hv, by rw [← hf.callback, hc], by rw [← hf.dispatchedAtMs, hd]⟩

section Struck
variable {p : PluginId} {addressed : List PluginId} {g : Generation} {query : String}
  {selected : Option Item}

lemma running_none_of_idle (hd : i.disabled = false) (hb : i.busy = false) : i.running = none := by
  simp only [busy, hd, Bool.not_false, Bool.true_and, Bool.or_eq_false_iff,
    isSome_eq_false_iff, isNone_iff_eq_none] at hb
  exact hb.1

lemma struck_cases (i : Instance) (p : PluginId) (addressed : List PluginId) (g : Generation)
    (query : String) (selected : Option Item) :
    (i.struck p addressed g query selected).running = i.running.map RunningWork.superseded ∨
      i.running = none ∧ (i.struck p addressed g query selected).running =
        some ((WorkKind.suggest query selected).decided g) := by
  unfold struck
  split
  case isFalse => exact .inl rfl
  case isTrue hp =>
    unfold asked put
    split
    · exact .inl rfl
    split
    · exact .inl rfl
    case isFalse hidle =>
      refine .inr ⟨running_none_of_idle hp.2 ?_, rfl⟩
      rw [begin_busy] at hidle
      simpa using hidle

lemma struck_inHand : (i.struck p addressed g query selected).inHand = i.inHand := by
  rcases struck_cases i p addressed g query selected with hsame | ⟨hnone, hnew⟩
  · have hmap := inHand_map (i := i) faithful_superseded
    rw [← hmap, inHand, hsame, inHand]
  · rw [inHand_of_running_none hnone]
    exact inHand_of_undispatched hnew rfl

lemma struck_owes (h : (i.struck p addressed g query selected).OwesStart) : i.OwesStart := by
  rcases h with hq | ⟨w, hw, hc, hd⟩
  · exact .inl (struck_frame.2.2.1 ▸ hq)
  rcases struck_cases i p addressed g query selected with hsame | ⟨-, hnew⟩
  · exact owesStart_map faithful_superseded (.inr ⟨w, hsame ▸ hw, hc, hd⟩)
  · rw [hnew] at hw
    cases hw
    simp [decided, callback] at hc

end Struck

section Retired
variable {w : RunningWork} {now : Generation}

lemma retire_started_failed : (i.retire w .failed).started = i.started := by
  unfold retire
  split
  · rfl
  · rfl

lemma not_owesStart_retire (h : i.Fits now) (hw : i.running = some w) (outcome : LegacyOutcome) :
    ¬ (i.retire w outcome).OwesStart := by
  rintro (hq | ⟨v, hv, -⟩)
  · rw [(retire_frame outcome).2.1, (h.of_running hw).2] at hq
    simp at hq
  · simp at hv

lemma not_owesStart_settle (h : i.Fits now) (hw : i.running = some w) (response : LegacyResponse) :
    ¬ (i.settle w response now).OwesStart := by
  rintro (hq | ⟨v, hv, -⟩)
  · rw [(settle_frame response).2.1, (h.of_running hw).2] at hq
    simp at hq
  · simp at hv

lemma started_of_settle {response : LegacyResponse} (h : (i.settle w response now).started = true) :
    i.started = true ∨ w.callback = .onStart ∧ response.outcome ≠ .failed := by
  rw [(settle_frame response).2.2.2.2] at h
  unfold retire at h
  split at h
  case isTrue hstart =>
    split at h
    · exact .inl h
    case isFalse hok => exact .inr ⟨hstart, hok⟩
  case isFalse => exact .inl h

end Retired

end Instance

structure Ledger (past : List Event) (rt : LegacyRuntime) : Prop where
  proper : EachAfter Proper past
  booked : ∀ p i, rt.inst? p = some i → i.Booked past
  known : ∀ e ∈ past, ∀ id, e.subject = some id → id.get ≤ rt.nextInstance
  stopped : .stopped ∈ past → rt.shutDown = true

lemma ledger_new (deadlines : LegacyDeadlines) : Ledger [] (.new deadlines) where
  proper := eachAfter_nil
  booked := fun p i h => absurd h (by simp [inst?, LegacyRuntime.new])
  known := fun e h => absurd h (by simp)
  stopped := fun h => absurd h (by simp)

namespace Ledger
variable {past es : List Event} {rt rt' : LegacyRuntime}

lemma quiet (h : Ledger past rt) (hes : ∀ e ∈ es, e.subject = none)
    (hbooked : ∀ p i, rt'.inst? p = some i → i.Booked past)
    (hnext : rt.nextInstance ≤ rt'.nextInstance)
    (hstop : .stopped ∈ past ++ es → rt'.shutDown = true) : Ledger (past ++ es) rt' where
  proper := by
    refine h.proper.append fun e he a => ?_
    have hnone := hes e he
    cases e with
    | offered request accepted => simp [Event.subject] at hnone
    | _ => trivial
  booked := fun p i hi => (hbooked p i hi).append fun e he => by simp [hes e he]
  known := by
    intro e he id hid
    rcases mem_append.mp he with hold | hnew
    · exact (h.known e hold id hid).trans hnext
    · simp [hes e hnew] at hid
  stopped := hstop

lemma silent {p : PluginId} {i j : Instance} (h : Ledger past rt) (hp : rt.inst? p = some i)
    (hview : Replaces rt p j rt') (hnext : rt'.nextInstance = rt.nextInstance)
    (hshut : rt'.shutDown = rt.shutDown)
    (hid : j.id = i.id) (hheld : j.inHand = i.inHand) (howes : j.OwesStart → i.OwesStart)
    (hstarted : j.started = true → i.started = true) : Ledger (past ++ []) rt' := by
  refine h.quiet (fun e he => absurd he (by simp)) ?_ hnext.ge ?_
  · intro q k hk
    rw [hview] at hk
    split at hk
    · cases hk
      exact (h.booked p i hp).same hid hheld howes hstarted
    · exact h.booked q k hk
  · rw [append_nil, hshut]
    exact h.stopped

lemma loud {p : PluginId} {i j : Instance} {e : Event} (h : Ledger past rt) (hs : Serial rt)
    (hp : rt.inst? p = some i) (hview : Replaces rt p j rt')
    (hnext : rt'.nextInstance = rt.nextInstance) (hshut : rt'.shutDown = rt.shutDown)
    (hsubject : e.subject = some i.id) (hproper : Proper past e) (hj : j.Booked (past ++ [e])) :
    Ledger (past ++ [e]) rt' where
  proper := h.proper.concat hproper
  booked := by
    intro q k hk
    rw [hview] at hk
    split at hk
    · cases hk
      exact hj
    case isFalse hq =>
      refine (h.booked q k hk).append fun x hx => ?_
      rw [mem_singleton.mp hx, hsubject]
      exact fun heq => hq (hs.apart q p k i hk hp (some_inj.mp heq).symm)
  known := by
    intro x hx id hid
    rw [hnext]
    rcases mem_append.mp hx with hold | hnew
    · exact h.known x hold id hid
    · rw [mem_singleton.mp hnew, hsubject, some_inj] at hid
      exact hid ▸ hs.minted p i hp
  stopped := by
    intro hmem
    rw [hshut]
    rcases mem_append.mp hmem with hold | hnew
    · exact h.stopped hold
    · rw [← mem_singleton.mp hnew] at hsubject
      simp [Event.subject] at hsubject

end Ledger

variable {past : List Event} {request : LegacyRequest}

lemma holding_concat_offered : holding (past ++ [.offered request true]) request.inst =
      some (request.generation, request.callback) := by
  simp [holding_append]

lemma holding_concat_refused (id : InstanceId) :
    holding (past ++ [.offered request false]) id = holding past id := by
  simp [holding_append]

variable {response : LegacyResponse}

lemma holding_concat_answered : holding (past ++ [.answered response]) response.inst = none := by
  simp [holding_append]

lemma RunningWork.answeredBy_iff {w : RunningWork} :
    w.answeredBy response = true ↔ w.generation = response.generation ∧
      w.callback = response.callback := by
  simp [answeredBy]

variable {rt : LegacyRuntime}

lemma Ledger.offer {outbox : List LegacyRequest} {i : Instance} {w : RunningWork}
    (h : Ledger past rt) (hs : Serial rt) (hout : rt.outbox = request :: outbox)
    (hi : rt.inst? request.plugin = some i) (hid : i.id = request.inst) (hw : i.running = some w)
    (ha : w.Awaits request) (accepted : Bool) : Proper past (.offered request accepted) := by
  have hbooked := h.booked _ i hi
  have hfirst := (hs.fits _ i hi).first w hw
  refine ⟨?_, ?_, ?_, ?_⟩
  · rw [← hid, hbooked.held]
    exact inHand_of_undispatched hw ha.undispatched
  · intro hstart
    rw [← hid]
    exact hbooked.owes (.inr ⟨w, hw, ha.callback.trans hstart, ha.undispatched⟩)
  · intro hother
    rw [← hid]
    refine hbooked.begun ?_
    have hns : ¬ i.started = false := fun hf => hother (ha.callback ▸ hfirst.mpr hf)
    simpa using hns
  · intro hstop
    have := hs.stopped (h.stopped hstop)
    simp [hout] at this

lemma questionEvents_subject {g : Generation} {query : String} {selected : Option Item}
    {addressed : List PluginId} {e : Event}
    (he : e ∈ questionEvents g query selected addressed rt) :
    e.subject = none ∧ e ≠ .stopped := by
  rcases mem_cons.mp he with rfl | hmem
  · exact ⟨rfl, by simp⟩
  obtain ⟨p, -, hp⟩ := mem_filterMap.mp hmem
  obtain ⟨i, -, hi⟩ := bind_eq_some_iff.mp hp
  unfold verdict at hi
  split at hi
  · exact absurd hi (by simp)
  · cases hi
    exact ⟨rfl, by simp⟩

lemma Move.ledger {es : List Event} {rt' : LegacyRuntime} (hmove : Move rt es rt')
    (hs : Serial rt) (h : Ledger past rt) : Ledger (past ++ es) rt' := by
  have hstill : .stopped ∈ past ++ [] → rt.shutDown = true := by simpa using h.stopped
  cases hmove with
  | free => exact h.quiet (fun e he => absurd he (by simp)) h.booked le_rfl hstill
  | flags hf =>
    refine h.quiet (fun e he => absurd he (by simp)) ?_ le_rfl hstill
    intro p i hi
    rw [inst?_mapRunning] at hi
    obtain ⟨j, hj, rfl⟩ := map_eq_some_iff.mp hi
    exact (h.booked p j hj).same rfl (inHand_map hf) (owesStart_map hf) id
  | stop report => exact h.quiet (by simp [Event.subject]) h.booked le_rfl (fun _ => rfl)
  | instantiate selected profile compatibility hnew =>
    rename_i p fresh visible hvisible
    refine h.quiet (by simp [Event.subject]) ?_ (by show rt.nextInstance ≤ fresh.get; omega) ?_
    · intro q i hi
      rw [inst?_supersede] at hi
      split at hi
      · cases hi
        -- nothing in the past is about an instance that was not minted yet
        have hunseen : ∀ e ∈ past, e.subject ≠ some fresh := by
          intro e he hsub
          have := h.known e he fresh hsub
          omega
        refine ⟨holding_of_ne hunseen, fun _ => ?_, fun hst => absurd hst (by simp [Instance.new])⟩
        intro request accepted hmem hreq
        exact absurd (congrArg some hreq) (hunseen _ hmem)
      · exact h.booked q i hi
    · simpa [supersede] using h.stopped
  | ask hk =>
    refine h.quiet (fun e he => (questionEvents_subject he).1) ?_ hk.nextInstance.ge ?_
    · intro p i hi
      rw [hk.inst] at hi
      obtain ⟨j, hj, rfl⟩ := map_eq_some_iff.mp hi
      exact (h.booked p j hj).same struck_frame.1 struck_inHand struck_owes
        (fun hst => struck_frame.2.1 ▸ hst)
    · intro hmem
      rcases mem_append.mp hmem with hold | hnew
      · exact absurd (h.stopped hold) (by simp [hk.live])
      · exact absurd rfl (questionEvents_subject hnew).2
  | hold hi hd =>
    exact h.silent hi (inst?_setInstance hi _) rfl rfl rfl rfl id id
  | build pendingCatalog hi hlive hd hrun hq =>
    refine h.silent hi (inst?_launch hi _ _ _) rfl rfl rfl ?_ ?_ id
    · rw [inHand_of_running_none hrun]
      exact inHand_of_undispatched rfl rfl
    · rintro (howed | ⟨w, hw, hc, -⟩)
      · exact .inl howed
      · cases hw
        simp [decided, callback] at hc
  | promote hi hlive hd hrun hq hpend =>
    rename_i p i v
    refine h.silent hi (inst?_launch hi _ _ _) rfl rfl rfl ?_ ?_ id
    · rw [inHand_of_running_none hrun]
      exact inHand_of_undispatched rfl rfl
    · rintro (howed | ⟨w, hw, hc, -⟩)
      · exact .inl howed
      · cases hw
        simp [decided, ((hs.fits p i hi).held v hpend).2] at hc
  | start hi hlive hd hrun hq =>
    refine h.silent hi (inst?_setInstance hi _) rfl rfl rfl ?_ (fun _ => .inl hq) id
    rw [inHand_of_running_none hrun]
    exact inHand_of_undispatched rfl rfl
  | handOver now hout hi hid hw ha =>
    rename_i request outbox i w
    refine h.loud hs hi (inst?_popped hi) rfl rfl
      (by rw [hid]; rfl) (h.offer hs hout hi hid hw ha true) ⟨?_, ?_, ?_⟩
    · show holding _ i.id = _
      rw [hid, holding_concat_offered, inHand]
      simp [ha.generation, ha.callback]
    · rintro (howed | ⟨v, hv, -, hd⟩)
      · exact absurd howed (by simp [((hs.fits _ i hi).of_running hw).2])
      · cases hv
        simp at hd
    · exact fun hst => ((h.booked _ i hi).begun hst).append
  | drop hout hi hid hw ha =>
    rename_i request outbox i w
    rw [dropRunning_eq hi ha]
    refine h.loud hs hi (inst?_popped hi) rfl rfl
      (by rw [hid]; rfl) (h.offer hs hout hi hid hw ha false) ⟨?_, ?_, ?_⟩
    · rw [(retire_frame _).1, holding_concat_refused, (h.booked _ i hi).held,
        inHand_of_undispatched hw ha.undispatched, inHand_of_running_none (by simp)]
    · exact fun ho => absurd ho (not_owesStart_retire (hs.fits _ i hi) hw _)
    · intro hst
      rw [retire_started_failed] at hst
      rw [(retire_frame _).1]
      exact ((h.booked _ i hi).begun hst).append
  | answer hlive hget hinst hw hb hd =>
    rename_i response record w
    obtain ⟨-, hnext, -, -, hshut⟩ :=
      accept_rest rt record w response
    have hi := inst?_of_get? hget
    have hfits := hs.fits _ _ hi
    refine h.loud hs hi (inst?_accept hget) hnext hshut (by rw [← hinst]; rfl) trivial ⟨?_, ?_, ?_⟩
    · rw [(settle_frame response).1, ← hinst, holding_concat_answered,
        inHand_of_running_none (by simp)]
    · exact fun ho => absurd ho (not_owesStart_settle hfits hw response)
    · intro hst
      rw [(settle_frame response).1]
      rcases started_of_settle hst with hold | ⟨hstart, hok⟩
      · exact ((h.booked _ _ hi).begun hold).append
      · refine ⟨response, by simp, hinst, ?_, hok⟩
        rw [← (RunningWork.answeredBy_iff.mp hb).2, hstart]

/-! ### Runs -/

/-- In every run whose answers never retire a callback that was not handed over: the outbox holds,
one request an instance, exactly the running work of live instances that has not crossed the
boundary; and whenever a tick offers a callback to the worker, the instance has none in hand, gets
`on_start` for the first time or has answered it without failure, and the runtime is not shut
down. -/
theorem serial_dispatch {deadlines : LegacyDeadlines} {tr : List (Op × Reply × List Event)}
    {rt : LegacyRuntime} (h : ExecWhen step Prompt (.new deadlines) tr rt) :
    (∀ request ∈ rt.outbox, rt.Waits request) ∧ (rt.outbox.map (·.inst)).Nodup ∧
      EachAfter Proper (log tr) := by
  obtain ⟨hserial, hledger⟩ := PromptRun.invariant h (ledger_new deadlines)
    fun past rt es rt' hs hl hmove => hmove.ledger hs hl
  exact ⟨hserial.waits, hserial.nodup_inst, hledger.proper⟩

/-- A plugin with one rebuild in hand, a second one retained and a query behind it. -/
def rebuildTwice : List Op :=
  let apps : PluginId := ⟨"apps"⟩
  [.registerWith apps .legacyStrict ⟨false⟩, .tick 0 [],
    .deliver ⟨apps, ⟨1⟩, .zero, .onStart, .acknowledged⟩, .catalogRebuild apps, .tick 1 [],
    .catalogRebuild apps, .submitQuery "a",
    .deliver ⟨apps, ⟨1⟩, .zero, .onCatalog, .acknowledged⟩]

theorem serial_dispatch_rebuild : ∃ tr rt,
    ExecWhen step Prompt (.new ⟨5000, 120000, 2000⟩) tr rt ∧ rt.outbox.length = 1 ∧
      EachAfter Proper (log tr) := by
  obtain ⟨tr, rt, hexec, hlen⟩ := execWhen_of_eval step Prompt (.new ⟨5000, 120000, 2000⟩)
    rebuildTwice (·.outbox.length = 1) (by decide +kernel)
  exact ⟨tr, rt, hexec, hlen, (serial_dispatch hexec).2.2⟩

/-- The same answer once more retires the retained rebuild, which still waits in the outbox: the
next tick hands over the rebuild and, before it is answered, the query. -/
theorem repeated_answer_doubles : ∃ tr rt,
    Exec step (.new ⟨5000, 120000, 2000⟩) tr rt ∧ ¬ EachAfter Proper (log tr) := by
  let apps : PluginId := ⟨"apps"⟩
  obtain ⟨rt, tr, hrun, hlog⟩ := run_of_eval step (.new ⟨5000, 120000, 2000⟩)
    (rebuildTwice ++ [.deliver ⟨apps, ⟨1⟩, .zero, .onCatalog, .acknowledged⟩, .tick 2 []])
    (fun _ tr => (log tr).getLast? = some (.offered ⟨apps, ⟨1⟩, ⟨1⟩, .initialSuggest "a"⟩ true) ∧
      holding (log tr).dropLast ⟨1⟩ = some (.zero, .onCatalog)) (by decide +kernel)
  obtain ⟨hlast, hheld⟩ := hlog
  refine ⟨tr, rt, (exec_of_run hrun).1, fun hproper => ?_⟩
  have hsplit := (dropLast_append_getLast? _ hlast).symm
  have hnone := (hproper _ _ [] hsplit).1
  exact absurd (hheld.symm.trans hnone) (by simp)

end CriKey.Legacy
