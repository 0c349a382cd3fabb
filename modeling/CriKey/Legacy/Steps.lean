import CriKey.Legacy.Moves

/-! Every move keeps the serial discipline, and every call is a sequence of moves as long as no
answer retires a callback that was not handed over. -/
namespace CriKey.Legacy
open CriKey.Base CriKey.Core CriKey.Scheduler WorkKind List Option Moves Instance LegacyRuntime

/-! ### Instances -/

namespace Instance
variable {i : Instance} {now g : Generation} {query : String} {selected : Option Item}

lemma fits_new (id : InstanceId) (profile : SchedulingProfile)
    (compatibility : LegacyCompatibility) : (new id profile compatibility).Fits now := by
  constructor <;> simp [new]

variable {w : RunningWork}

lemma fits_of_running (hw : i.running = some w) (hd : i.disabled = false)
    (hq : i.queuedStart = false) (hfirst : w.callback = .onStart ↔ i.started = false)
    (hbound : w.generation ≤ now)
    (hheld : ∀ v, i.pending = some v → v.generation = now ∧ v.work.callback = .onSuggest)
    (hclear : w.callback = .onSuggest → w.generation = now → i.pending = none) : i.Fits now := by
  refine ⟨?_, ?_, ?_, ?_, ?_, hheld, ?_⟩ <;> simp [hw, hd, hq, hfirst, hbound]
  exact hclear

lemma Fits.of_running (h : i.Fits now) (hw : i.running = some w) :
    i.disabled = false ∧ i.queuedStart = false := by
  constructor
  · by_contra hd
    have := (h.off (by simpa using hd)).1
    simp [hw] at this
  · by_contra hq
    have := (h.owed (by simpa using hq)).1
    simp [hw] at this

lemma Fits.mapRunning {f : RunningWork → RunningWork} (h : i.Fits now) (hf : Faithful f) :
    { i with running := i.running.map f }.Fits now where
  off := fun hd => by simpa using h.off hd
  owed := fun hq => by simpa using h.owed hq
  first := by
    intro w hw
    obtain ⟨v, hv, rfl⟩ := map_eq_some_iff.mp hw
    rw [hf.callback]
    exact h.first v hv
  init := fun hd hq hr => h.init hd hq (by simpa using hr)
  bound := by
    intro w hw
    obtain ⟨v, hv, rfl⟩ := map_eq_some_iff.mp hw
    rw [hf.generation]
    exact h.bound v hv
  held := h.held
  clear := by
    intro w hw
    obtain ⟨v, hv, rfl⟩ := map_eq_some_iff.mp hw
    rw [hf.callback, hf.generation]
    exact h.clear v hv

lemma Fits.begin (h : i.Fits now) (hlt : now < g) : i.begin.Fits g where
  off := fun hd => by simpa [Instance.begin] using ⟨(h.off hd).1, (h.off hd).2.1, (h.off hd).2.2.2⟩
  owed := fun hq => by simpa [Instance.begin] using h.owed hq
  first := (h.mapRunning faithful_superseded).first
  init := fun hd hq hr => h.init hd hq (by simpa [Instance.begin] using hr)
  bound := fun w hw => ((h.mapRunning faithful_superseded).bound w hw).trans hlt.le
  held := fun w hw => absurd hw (by simp [Instance.begin])
  clear := fun _ _ _ _ => rfl

@[simp] lemma begin_id : i.begin.id = i.id := rfl

@[simp] lemma begin_disabled : i.begin.disabled = i.disabled := rfl

lemma begin_busy : i.begin.busy = i.busy := by
  simp [busy, begin]

lemma begin_replay (key : CacheKey) : i.begin.replay key = i.replay key := rfl

lemma asked_running_of_busy (h : i.busy = true) :
    (i.asked g query selected).running = i.begin.running := by
  unfold asked put
  split
  · rfl
  · rw [begin_busy, if_pos h]
    rfl

lemma busy_of_running (hd : i.disabled = false) (hw : i.running = some w) : i.busy = true := by
  simp [busy, hd, hw]

lemma Fits.idle (h : i.Fits now) (hd : i.disabled = false) (hb : i.busy = false) :
    i.running = none ∧ i.queuedStart = false ∧ i.started = true := by
  simp only [busy, hd, Bool.not_false, Bool.true_and, Bool.or_eq_false_iff,
    isSome_eq_false_iff, isNone_iff_eq_none] at hb
  exact ⟨hb.1, hb.2, h.init hd hb.2 hb.1⟩

lemma immediate_eq_some {p : PluginId} {request : LegacyRequest}
    (h : i.immediate p g query selected = some request) : i.disabled = false ∧ i.busy = false ∧
      request = ⟨p, i.id, g, (WorkKind.suggest query selected).intoRequestKind⟩ ∧
      (i.asked g query selected).running = some ((WorkKind.suggest query selected).decided g) := by
  unfold immediate at h
  split at h
  · exact absurd h (by simp)
  case isFalse hd =>
    split at h
    · exact absurd h (by simp)
    case h_2 hserve =>
      split at h
      · exact absurd h (by simp)
      case isFalse hidle =>
        refine ⟨by simpa using hd, by simpa using hidle, (some_inj.mp h).symm, ?_⟩
        unfold asked put
        split
        case h_1 items heq => exact absurd heq (hserve items)
        case h_2 => rw [begin_busy, if_neg hidle]

section Struck
variable {p : PluginId} {addressed : List PluginId}

@[simp] lemma struck_frame : (i.struck p addressed g query selected).id = i.id ∧
    (i.struck p addressed g query selected).started = i.started ∧
    (i.struck p addressed g query selected).queuedStart = i.queuedStart ∧
    (i.struck p addressed g query selected).disabled = i.disabled ∧
    (i.struck p addressed g query selected).cachePolicy = i.cachePolicy ∧
    (i.struck p addressed g query selected).lastAnswer = i.lastAnswer := by
  unfold struck
  split
  · unfold asked put
    split
    · exact ⟨rfl, rfl, rfl, rfl, rfl, rfl⟩
    · split <;> exact ⟨rfl, rfl, rfl, rfl, rfl, rfl⟩
  · exact ⟨rfl, rfl, rfl, rfl, rfl, rfl⟩

lemma struck_running (hd : i.disabled = false) (hw : i.running = some w) :
    (i.struck p addressed g query selected).running = some w.superseded := by
  have hbegin : i.begin.running = some w.superseded := by simp [begin, hw]
  unfold struck
  split
  · rw [asked_running_of_busy (busy_of_running hd hw), hbegin]
  · exact hbegin

lemma struck_pending {v : PendingWork}
    (h : (i.struck p addressed g query selected).pending = some v) :
    p ∈ addressed ∧ v = ⟨g, .suggest query selected⟩ := by
  unfold struck at h
  split at h
  case isTrue hput =>
    unfold asked put at h
    split at h
    · cases h
    split at h
    · cases h
      exact ⟨hput.1, rfl⟩
    · cases h
  case isFalse => cases h

end Struck

lemma Fits.asked (h : i.Fits now) (hd : i.disabled = false) (hlt : now < g) :
    (i.asked g query selected).Fits g := by
  have hbegin := h.begin hlt
  unfold Instance.asked Instance.put
  split
  · exact hbegin
  split
  case isTrue hbusy =>
    refine ⟨?_, hbegin.owed, hbegin.first, hbegin.init, hbegin.bound, ?_, ?_⟩
    · exact fun hoff => absurd hd (by simpa [hold] using hoff)
    · intro w hw
      cases hw
      exact ⟨rfl, rfl⟩
    · -- the running work is of an older generation
      intro w hw _ hgen
      obtain ⟨v, hv, rfl⟩ := map_eq_some_iff.mp hw
      rw [faithful_superseded.generation] at hgen
      exact absurd (h.bound v hv) (not_le.mpr (hgen ▸ hlt))
  case isFalse hidle =>
    obtain ⟨-, hq, hs⟩ := h.idle hd (by simpa [begin_busy] using hidle)
    refine fits_of_running rfl hd hq ?_ le_rfl hbegin.held fun _ _ => rfl
    simp [Instance.begin, decided, callback, hs]

lemma Fits.struck {p : PluginId} {addressed : List PluginId} (h : i.Fits now) (hlt : now < g) :
    (i.struck p addressed g query selected).Fits g := by
  unfold Instance.struck
  split
  case isTrue hp => exact h.asked hp.2 hlt
  case isFalse hp => exact h.begin hlt

end Instance

lemma RunningWork.Awaits.map {f : RunningWork → RunningWork} {w : RunningWork}
    {request : LegacyRequest} (h : w.Awaits request) (hf : Faithful f) : (f w).Awaits request :=
  ⟨by rw [hf.dispatchedAtMs, h.undispatched], by rw [hf.generation, h.generation],
    by rw [hf.callback, h.callback], by rw [hf.key, h.key]⟩

lemma Keystroke.idOf {g : Generation} {query : String} {selected : Option Item}
    {addressed : List PluginId} {rt rt' : LegacyRuntime}
    (hk : Keystroke g query selected addressed rt rt') (q : PluginId) : rt'.idOf q = rt.idOf q := by
  rw [LegacyRuntime.idOf, hk.inst, Option.map_map, LegacyRuntime.idOf]
  congr 1
  funext i
  exact struck_frame.1

/-! ### Moves keep the discipline -/

namespace Serial
variable {rt rt' : LegacyRuntime}

lemma mapRunning {f : RunningWork → RunningWork} (h : Serial rt) (hf : Faithful f) :
    Serial (rt.mapRunning f) := by
  refine ⟨h.toNamed.congr (fun q => ?_) rfl, ?_, ?_, h.nodup, h.current, h.stopped⟩
  · rw [idOf, inst?_mapRunning, Option.map_map]
    rfl
  · intro p i hi
    rw [inst?_mapRunning] at hi
    obtain ⟨j, hj, rfl⟩ := map_eq_some_iff.mp hi
    exact (h.fits p j hj).mapRunning hf
  · intro request hmem
    obtain ⟨i, w, hi, hid, hw, ha⟩ := h.waits request hmem
    refine ⟨{ i with running := i.running.map f }, f w, ?_, hid, by simp [hw], ?_⟩
    · rw [inst?_mapRunning, hi]
      rfl
    · exact ha.map hf

variable {p : PluginId} {request : LegacyRequest}

lemma push {i j : Instance} {w : RunningWork} (h : Serial rt) (hp : rt.inst? p = some i)
    (hlive : rt.shutDown = false) (hrun : i.running = none) (hid : j.id = i.id)
    (hplugin : request.plugin = p) (hinst : j.id = request.inst) (hw : j.running = some w)
    (ha : w.Awaits request) (hfits : j.Fits rt.currentGeneration) :
    Serial { rt.setInstance p j with outbox := rt.outbox ++ [request] } := by
  have hnone : ∀ r ∈ rt.outbox, r.plugin ≠ p := by
    intro r hmem hq
    obtain ⟨k, v, hk, -, hv, -⟩ := h.waits r hmem
    rw [hq, hp, some_inj] at hk
    simp [← hk, hrun] at hv
  have hview : ∀ q, inst? { rt.setInstance p j with outbox := rt.outbox ++ [request] } q
      = if q = p then some j else rt.inst? q := inst?_setInstance hp j
  refine h.update hp hview rfl rfl rfl hid hfits ?_ ?_ ?_ ?_
  · intro r hmem hq
    rcases mem_append.mp hmem with hold | hnew
    · exact absurd hq (hnone r hold)
    · rw [mem_singleton.mp hnew]
      exact ⟨j, w, by rw [hview, if_pos hplugin], hinst, hw, ha⟩
  · intro r hmem hq
    rcases mem_append.mp hmem with hold | hnew
    · exact hold
    · rw [mem_singleton.mp hnew] at hq
      exact absurd hplugin hq
  · show ((rt.outbox ++ [request]).map _).Nodup
    rw [map_append, nodup_append]
    refine ⟨h.nodup, by simp, ?_⟩
    intro a ha' b hb hab
    obtain ⟨r, hmem, rfl⟩ := mem_map.mp ha'
    simp only [map_cons, map_nil, mem_singleton] at hb
    exact hnone r hmem (hab.trans (hb.trans hplugin))
  · exact fun hstop => absurd hlive (by simp [show rt.shutDown = true from hstop])

/-- Taking the request at the front off the outbox, with a change of its instance after which no
request of that plugin waits. -/
lemma pop {outbox : List LegacyRequest} {i j : Instance} (h : Serial rt)
    (hout : rt.outbox = request :: outbox) (hp : rt.inst? request.plugin = some i)
    (hid : j.id = i.id) (hfits : j.Fits rt.currentGeneration) :
    Serial ({ rt with outbox }.setInstance request.plugin j) := by
  have hnodup := h.nodup
  rw [hout, map_cons, nodup_cons] at hnodup
  refine h.update hp (inst?_popped hp) rfl rfl rfl hid hfits ?_ ?_ hnodup.2 ?_
  · intro r hmem hq
    exact absurd (mem_map.mpr ⟨r, hmem, hq⟩) hnodup.1
  · intro r hmem _
    rw [hout]
    exact mem_cons_of_mem _ hmem
  · intro hstop
    have := h.stopped hstop
    simp [hout] at this

lemma supersede {id : InstanceId} {visible : List Item} {selected : Option (PluginId × Item)}
    (h : Serial rt) (hid : id.get = rt.nextInstance + 1) (profile : SchedulingProfile)
    (compatibility : LegacyCompatibility) :
    Serial ({ rt with nextInstance := id.get, visible, selected }.supersede p id profile
      compatibility) := by
  generalize hmid : { rt with nextInstance := id.get, visible, selected } = mid
  have hinst : ∀ q, mid.inst? q = rt.inst? q := fun q => hmid ▸ rfl
  have hlive : mid.Live := hmid ▸ h.live
  have hview : Replaces rt p (.new id profile compatibility)
      (mid.supersede p id profile compatibility) :=
    fun q => (inst?_supersede id profile compatibility q).trans (by rw [hinst])
  have hout : mid.outbox = rt.outbox := hmid ▸ rfl
  refine ⟨h.toNamed.replace hview hid (hmid ▸ rfl), ?_, ?_, ?_, hmid ▸ h.current, ?_⟩
  · intro q i hi
    rw [hview] at hi
    have hfits : i.Fits rt.currentGeneration := by
      split at hi
      · cases hi
        exact fits_new id profile compatibility
      · exact h.fits q i hi
    exact hmid ▸ hfits
  · intro request hmem
    obtain ⟨hold, hne⟩ := supersede_outbox hlive hmem
    obtain ⟨i, w, hi, hrest⟩ := h.waits request (hout ▸ hold)
    exact ⟨i, w, by rw [hview, if_neg hne, hi], hrest⟩
  · exact (filter_sublist.map _).nodup (hout ▸ h.nodup)
  · intro hstop
    have hnil : rt.outbox = [] := h.stopped (by rw [← hstop, ← hmid]; rfl)
    simp [LegacyRuntime.supersede, hout, hnil]

variable {addressed : List PluginId}

/-- The requests a keystroke adds: of addressed plugins that had nothing in the outbox. -/
lemma immediate_waits {g : Generation} {query : String} {selected : Option Item}
    (h : Serial rt) (hk : Keystroke g query selected addressed rt rt')
    (hp : p ∈ addressed)
    (hnow : (rt.inst? p).bind (·.immediate p g query selected) = some request) :
    request.plugin = p ∧ rt'.Waits request ∧ ∀ r ∈ rt.outbox, r.plugin ≠ p := by
  obtain ⟨i, hi, hnow⟩ := bind_eq_some_iff.mp hnow
  obtain ⟨hd, hidle, rfl, hrun⟩ := immediate_eq_some hnow
  refine ⟨rfl, ⟨i.struck p addressed g query selected, _, by rw [hk.inst, hi]; rfl, struck_frame.1,
    ?_, (suggest query selected).awaits_decided p i.id g⟩, ?_⟩
  · rw [struck, if_pos ⟨hp, hd⟩]
    exact hrun
  · intro r hr hq
    obtain ⟨j, w, hj, -, hw, -⟩ := h.waits r hr
    rw [hq, hi, some_inj] at hj
    rw [← hj] at hw
    simp [busy_of_running hd hw] at hidle

lemma ask {g : Generation} {query : String} {selected : Option Item} (h : Serial rt)
    (hk : Keystroke g query selected addressed rt rt') : Serial rt' := by
  have hlt : rt.currentGeneration < g := by
    rw [Generation.lt_iff, h.current, hk.minted]
    omega
  refine ⟨h.toNamed.congr hk.idOf hk.nextInstance, ?_, ?_, ?_,
    by rw [hk.current, hk.nextGeneration], ?_⟩
  · intro p i hi
    rw [hk.inst] at hi
    obtain ⟨j, hj, rfl⟩ := map_eq_some_iff.mp hi
    rw [hk.current]
    exact (h.fits p j hj).struck hlt
  · intro request hmem
    rw [hk.outbox] at hmem
    rcases mem_append.mp hmem with hold | hmem
    · obtain ⟨i, w, hi, hid, hw, ha⟩ := h.waits request hold
      have hoff := ((h.fits _ i hi).of_running hw).1
      exact ⟨_, w.superseded, by rw [hk.inst, hi]; rfl, struck_frame.1.trans hid,
        struck_running hoff hw, ha.map faithful_superseded⟩
    · obtain ⟨p, hp, hnow⟩ := mem_filterMap.mp hmem
      exact (h.immediate_waits hk hp hnow).2.1
  · rw [hk.outbox, map_append, nodup_append]
    refine ⟨h.nodup, ?_, ?_⟩
    · refine pairwise_map.mpr (pairwise_filterMap.mpr (hk.nodup.imp_of_mem ?_))
      intro p q hp hq hpq a ha b hb hab
      rw [(h.immediate_waits hk hp ha).1, (h.immediate_waits hk hq hb).1] at hab
      exact hpq hab
    · intro a ha b hb hab
      obtain ⟨r, hr, rfl⟩ := mem_map.mp ha
      obtain ⟨request, hmem, rfl⟩ := mem_map.mp hb
      obtain ⟨p, hp, hnow⟩ := mem_filterMap.mp hmem
      obtain ⟨hplugin, -, hother⟩ := h.immediate_waits hk hp hnow
      exact hother r hr (hab.trans hplugin)
  · exact fun hstop => absurd hk.live' (by simp [hstop])

end Serial

namespace Instance
variable {i : Instance} {now : Generation} {w : RunningWork}

lemma Fits.retire (h : i.Fits now) (hw : i.running = some w) (outcome : LegacyOutcome) :
    (i.retire w outcome).Fits now := by
  obtain ⟨hd, hq⟩ := h.of_running hw
  unfold Instance.retire
  split
  case isTrue hstart =>
    split
    case isTrue hfailed => constructor <;> simp [hq]
    case isFalse hok =>
      refine ⟨?_, ?_, ?_, ?_, ?_, h.held, ?_⟩ <;> simp [hd, hq]
  case isFalse hother =>
    have hs : i.started = true := by
      have := (h.first w hw).not.mp hother
      simpa using this
    refine ⟨?_, ?_, ?_, ?_, ?_, h.held, ?_⟩ <;> simp [hd, hq, hs]

/-- The instance once its running work `w` is answered under the current generation `now`. -/
def settle (i : Instance) (w : RunningWork) (response : LegacyResponse) (now : Generation) :
    Instance :=
  match response.outcome with
  | .suggestions items =>
    if response.generation = now then
      (i.retire w response.outcome).retain w.key (items.take maxItemsPerPublication)
    else i.retire w response.outcome
  | _ => i.retire w response.outcome

@[simp] lemma retire_frame (outcome : LegacyOutcome) : (i.retire w outcome).id = i.id ∧
    (i.retire w outcome).queuedStart = i.queuedStart ∧ (i.retire w outcome).running = none ∧
    (i.retire w outcome).cachePolicy = i.cachePolicy ∧
    (i.retire w outcome).lastAnswer = i.lastAnswer := by
  unfold retire
  split
  · split <;> exact ⟨rfl, rfl, rfl, rfl, rfl⟩
  · exact ⟨rfl, rfl, rfl, rfl, rfl⟩

lemma settle_eq (i : Instance) (w : RunningWork) (response : LegacyResponse) (now : Generation) :
    ∃ lastAnswer, i.settle w response now = { i.retire w response.outcome with lastAnswer } := by
  unfold settle
  split
  · split
    · cases w.key <;> exact ⟨_, rfl⟩
    · exact ⟨_, rfl⟩
  · exact ⟨_, rfl⟩

@[simp] lemma settle_frame (response : LegacyResponse) : (i.settle w response now).id = i.id ∧
    (i.settle w response now).queuedStart = i.queuedStart ∧
    (i.settle w response now).running = none ∧
    (i.settle w response now).cachePolicy = i.cachePolicy ∧
    (i.settle w response now).started = (i.retire w response.outcome).started := by
  obtain ⟨lastAnswer, heq⟩ := i.settle_eq w response now
  simp [heq]

lemma Fits.settle (h : i.Fits now) (hw : i.running = some w) (response : LegacyResponse) :
    (i.settle w response now).Fits now := by
  obtain ⟨lastAnswer, heq⟩ := i.settle_eq w response now
  rw [heq]
  exact { h.retire hw response.outcome with }

/-- A retained request is dropped only when the instance is excluded. -/
lemma retire_pending {outcome : LegacyOutcome} : (i.retire w outcome).pending = i.pending ∨
    (i.retire w outcome).disabled = true ∧ (i.retire w outcome).pending = none := by
  unfold retire
  split
  · split
    · exact .inr ⟨rfl, rfl⟩
    · exact .inl rfl
  · exact .inl rfl

lemma settle_pending {response : LegacyResponse} :
    (i.settle w response now).pending = i.pending ∨
      (i.settle w response now).disabled = true ∧ (i.settle w response now).pending = none := by
  obtain ⟨lastAnswer, heq⟩ := i.settle_eq w response now
  rw [heq]
  exact retire_pending

end Instance

namespace LegacyRuntime
variable {rt : LegacyRuntime} {record : PluginRecord} {w : RunningWork} {response : LegacyResponse}

lemma inst?_of_get? {p : PluginId} (h : rt.plugins.get? p = some record) :
    rt.inst? p = some record.inst := by
  rw [inst?, h]
  rfl

lemma inst?_accept (h : rt.plugins.get? response.plugin = some record) (q : PluginId) :
    (rt.accept record w response).1.inst? q =
      if q = response.plugin then some (record.inst.settle w response rt.currentGeneration)
      else rt.inst? q := by
  have hset : ∀ r : PluginRecord, (rt.setRecord response.plugin r).inst? q =
      if q = response.plugin then some r.inst else rt.inst? q :=
    fun r => inst?_setRecord (inst?_of_get? h) q
  cases hout : response.outcome with
  | suggestions items =>
    by_cases hg : response.generation = rt.currentGeneration
    · simp only [accept, settle, hout, hg]
      exact hset _
    · simp only [accept, settle, hout, hg]
      exact hset _
  | _ =>
    simp only [accept, settle, hout]
    exact hset _

lemma accept_rest (rt : LegacyRuntime) (record : PluginRecord) (w : RunningWork)
    (response : LegacyResponse) : (rt.accept record w response).1.outbox = rt.outbox ∧
    (rt.accept record w response).1.nextInstance = rt.nextInstance ∧
    (rt.accept record w response).1.currentGeneration = rt.currentGeneration ∧
    (rt.accept record w response).1.nextGeneration = rt.nextGeneration ∧
    (rt.accept record w response).1.shutDown = rt.shutDown := by
  unfold accept
  split
  · exact ⟨rfl, rfl, rfl, rfl, rfl⟩
  · exact ⟨rfl, rfl, rfl, rfl, rfl⟩
  · split <;> exact ⟨rfl, rfl, rfl, rfl, rfl⟩
  · exact ⟨rfl, rfl, rfl, rfl, rfl⟩

variable {request : LegacyRequest} {outbox : List LegacyRequest} {i : Instance}

lemma dropRunning_eq (hi : rt.inst? request.plugin = some i) (hw : w.Awaits request) :
    { rt with outbox }.dropRunning request =
      { rt with outbox }.setInstance request.plugin (i.retire w .failed) := by
  have hpop : { rt with outbox }.inst? request.plugin = some i := hi
  rw [dropRunning, hpop, retire, hw.callback, if_pos rfl]

end LegacyRuntime

variable {rt rt' : LegacyRuntime} {es : List Event}

lemma Move.serial (hmove : Move rt es rt') (h : Serial rt) : Serial rt' := by
  cases hmove with
  | free => exact { h with }
  | flags hf => exact h.mapRunning hf
  | stop report =>
    exact { h with
      waits := fun _ hmem => absurd hmem (by simp)
      nodup := nodup_nil
      stopped := fun _ => rfl }
  | instantiate selected profile compatibility hid => exact h.supersede hid profile compatibility
  | ask hk => exact h.ask hk
  | hold hi hd =>
    rename_i p i
    have hfits := h.fits p i hi
    refine h.update hi (inst?_setInstance hi _) rfl rfl rfl rfl ?_ ?_
      (fun _ hmem _ => hmem) h.nodup h.stopped
    · exact { hfits with
        off := fun hoff => absurd hd (by simp [show i.disabled = true from hoff]) }
    · intro request hmem hq
      obtain ⟨j, w, hj, hid, hw, ha⟩ := h.waits request hmem
      rw [hq, hi, some_inj] at hj
      subst hj
      exact ⟨{ i with pendingCatalog := true }, w,
        by rw [hq, inst?_setInstance hi, if_pos rfl], hid, hw, ha⟩
  | build pendingCatalog hi hlive hd hrun hq =>
    rename_i p i
    have hfits := h.fits p i hi
    have hs := hfits.init hd hq hrun
    refine h.push hi hlive hrun rfl rfl rfl rfl (awaits_decided _ p i.id _)
      (fits_of_running rfl hd hq ?_ (Nat.zero_le _) hfits.held nofun)
    simp [decided, callback, hs]
  | promote hi hlive hd hrun hq hpend =>
    rename_i p i v
    have hfits := h.fits p i hi
    have hs := hfits.init hd hq hrun
    obtain ⟨hgen, hcb⟩ := hfits.held v hpend
    refine h.push hi hlive hrun rfl rfl rfl rfl (awaits_decided _ p i.id _)
      (fits_of_running rfl hd hq ?_ hgen.le nofun fun _ _ => rfl)
    simp [decided, hcb, hs]
  | start hi hlive hd hrun hq =>
    rename_i p i
    have hfits := h.fits p i hi
    have hs := (hfits.owed hq).2
    exact h.push hi hlive hrun rfl rfl rfl rfl ⟨rfl, rfl, rfl, rfl⟩
      (fits_of_running rfl hd rfl (by simp [hs]) (Nat.zero_le _) hfits.held nofun)
  | handOver now hout hi hid hw ha =>
    rename_i request outbox i w
    have hfits := h.fits _ i hi
    obtain ⟨hd, hq⟩ := hfits.of_running hw
    exact h.pop hout hi rfl (fits_of_running rfl hd hq (hfits.first w hw)
      (hfits.bound w hw) hfits.held (hfits.clear w hw))
  | drop hout hi hid hw ha =>
    rename_i request outbox i w
    rw [dropRunning_eq hi ha]
    exact h.pop hout hi (retire_frame _).1 ((h.fits _ i hi).retire hw _)
  | answer hlive hget hinst hw hb hd =>
    rename_i response record w
    obtain ⟨hout, hnext, hcur, hgen, hshut⟩ :=
      accept_rest rt record w response
    have hi := inst?_of_get? hget
    have hnone : ∀ request ∈ rt.outbox, request.plugin ≠ response.plugin := by
      intro request hmem hq
      obtain ⟨j, v, hj, -, hv, ha⟩ := h.waits request hmem
      rw [hq, hi, some_inj] at hj
      rw [← hj, hw, some_inj] at hv
      rw [hv, ha.undispatched] at hd
      simp at hd
    refine h.update hi (inst?_accept hget) hnext hcur hgen
      (settle_frame response).1 ((h.fits _ _ hi).settle hw response) ?_ ?_ ?_ ?_
    · intro request hmem hq
      rw [hout] at hmem
      exact absurd hq (hnone request hmem)
    · intro request hmem _
      rwa [hout] at hmem
    · rw [hout]
      exact h.nodup
    · intro hstop
      rw [hshut, hlive] at hstop
      simp at hstop

lemma Moves.serial (hmoves : Moves rt es rt') (h : Serial rt) : Serial rt' := by
  induction hmoves with
  | refl => exact h
  | step _ hmove ih => exact hmove.serial ih

/-! ### Calls are sequences of moves -/

namespace LegacyRuntime
variable {rt : LegacyRuntime} {p : PluginId}

lemma finishCallback_shutDown : (rt.finishCallback p).shutDown = rt.shutDown := by
  unfold finishCallback
  split
  · rfl
  split
  · rfl
  split
  · rfl
  split
  · rfl
  split <;> rfl

lemma finishCallback_moves (h : Serial rt) (hlive : rt.shutDown = false)
    (hq : ∀ i, rt.inst? p = some i → i.queuedStart = false) :
    Moves rt [] (rt.finishCallback p) := by
  unfold finishCallback
  split
  · exact .refl
  case h_2 i hi =>
    have hfits := h.fits p i hi
    split
    · exact .refl
    case isFalse hrun =>
      have hnone : i.running = none := by simpa using hrun
      split
      case isTrue hoff =>
        -- an excluded instance has nothing retained
        obtain ⟨-, -, hpend, hcat⟩ := hfits.off hoff
        have hsame : { i with pending := none, pendingCatalog := false } = i := by
          rw [← hpend, ← hcat]
        rw [hsame, setInstance_self hi]
        exact .refl
      case isFalse hoff =>
        have hd : i.disabled = false := by simpa using hoff
        split
        · exact .one (.build false hi hlive hd hnone (hq i hi))
        split
        · exact .refl
        case h_2 g work hpend => exact .one (.promote hi hlive hd hnone (hq i hi) hpend)

lemma enqueue_catalog_moves (h : Serial rt) (hlive : rt.shutDown = false) {i : Instance}
    (hi : rt.inst? p = some i) (hd : i.disabled = false) :
    Moves rt [] (rt.enqueue p .zero .catalog) := by
  simp only [enqueue, hi]
  split
  · exact .one (.hold hi hd)
  case isFalse hidle =>
    obtain ⟨hrun, hq, -⟩ := (h.fits p i hi).idle hd (by simpa using hidle)
    exact .one (.build i.pendingCatalog hi hlive hd hrun hq)

lemma catalogRebuild_moves (h : Serial rt) : Moves rt [] (rt.catalogRebuild p).1 := by
  unfold catalogRebuild
  split
  · exact .refl
  case isFalse hno =>
    split
    · exact .refl
    case h_2 i hi =>
      split
      · exact .refl
      case isFalse hd =>
        exact enqueue_catalog_moves h (by simpa using hno) hi (by simpa using hd)

lemma startPlugin_moves (hlive : rt.shutDown = false) : Moves rt [] (rt.startPlugin p) := by
  unfold startPlugin
  split
  · exact .refl
  case h_2 i hi =>
    split
    · exact .refl
    case isFalse hno =>
      simp only [Bool.or_eq_true, Bool.not_eq_true', not_or, Bool.not_eq_true,
        Bool.not_eq_false, isSome_eq_false_iff, isNone_iff_eq_none] at hno
      exact .one (.start hi hlive hno.1.1 hno.2 hno.1.2)

lemma startPlugin_shutDown : (rt.startPlugin p).shutDown = rt.shutDown := by
  unfold startPlugin
  split
  · rfl
  split <;> rfl

lemma startAll_moves (hlive : rt.shutDown = false) :
    Moves rt [] rt.startAll ∧ rt.startAll.shutDown = false := by
  unfold startAll
  generalize rt.plugins.keys = ps
  induction ps generalizing rt with
  | nil => exact ⟨.refl, hlive⟩
  | cons p ps ih =>
    have hnext : (rt.startPlugin p).shutDown = false := by rw [startPlugin_shutDown, hlive]
    obtain ⟨hrest, hshut⟩ := ih hnext
    exact ⟨(startPlugin_moves hlive).trans hrest, hshut⟩

lemma markDispatched_eq {i : Instance} {w : RunningWork} (now : Nat) (hi : rt.inst? p = some i)
    (hw : i.running = some w) :
    rt.markDispatched now p =
      rt.setInstance p { i with running := some { w with dispatchedAtMs := some now } } := by
  simp only [markDispatched, hi, hw, map_some]

lemma drain_moves (now : Nat) (fuel : Nat) (accepts : List Bool) (h : Serial rt)
    (hlive : rt.shutDown = false) :
    Moves rt ((rt.drain now fuel accepts).2.map fun o => .offered o.1 o.2)
      (rt.drain now fuel accepts).1 := by
  induction fuel generalizing rt accepts with
  | zero => exact .refl
  | succ fuel ih =>
    rw [drain]
    split
    · exact .refl
    case h_2 request outbox hout =>
      obtain ⟨i, w, hi, hid, hw, ha⟩ := h.waits request (hout ▸ mem_cons_self)
      cases hverdict : accepts.headD true with
      | true =>
        have hmove := Move.handOver now hout hi hid hw ha
        have hrest := ih accepts.tail (hmove.serial h) hlive
        simp only [@markDispatched_eq { rt with outbox } _ _ _ now hi hw]
        exact (one hmove).trans hrest
      | false =>
        have hmove := Move.drop hout hi hid hw ha
        have hserial := hmove.serial h
        have hdrop : ({ rt with outbox }.dropRunning request).shutDown = false := by
          rw [dropRunning_eq hi ha]
          exact hlive
        have hqueued : ∀ j, ({ rt with outbox }.dropRunning request).inst? request.plugin = some j →
            j.queuedStart = false := by
          intro j hj
          rw [dropRunning_eq hi ha, inst?_popped hi, if_pos rfl] at hj
          cases hj
          rw [(retire_frame _).2.1]
          exact ((h.fits _ i hi).of_running hw).2
        have hfinish := finishCallback_moves hserial hdrop hqueued
        have hrest := ih accepts.tail (hfinish.serial hserial)
          (by rw [finishCallback_shutDown, hdrop])
        exact ((one hmove).trans hfinish).trans hrest

lemma tick_moves (h : Serial rt) (now : Nat) (accepts : List Bool) :
    Moves rt (rt.tick now accepts).2.2.2 (rt.tick now accepts).1 := by
  unfold tick
  split
  · exact .refl
  case isFalse hno =>
    obtain ⟨hstart, hlive⟩ := startAll_moves (by simpa using hno)
    have hdrain := drain_moves now rt.startAll.backlog accepts (hstart.serial h) hlive
    have hjudge :=
      faithful_judge (rt.startAll.drain now rt.startAll.backlog accepts).1.deadlines now
    have hall := Moves.step (hstart.trans hdrain) (Move.flags hjudge)
    rw [append_nil] at hall
    exact hall

end LegacyRuntime

/-! A keystroke. -/

/-- What putting one question to a list of plugins does. -/
structure Intake (g : Generation) (query : String) (selected : Option Item) (ps : List PluginId)
    (rt : LegacyRuntime) (rt' : LegacyRuntime) : Prop where
  inst : ∀ q, rt'.inst? q = (rt.inst? q).map fun i =>
    if q ∈ ps ∧ i.disabled = false then i.put g query selected else i
  outbox : rt'.outbox = rt.outbox ++
    ps.filterMap fun p => (rt.inst? p).bind (·.immediate p g query selected)
  visible : ∀ item ∈ rt'.visible, item ∈ rt.visible ∨ ∃ p ∈ ps, ∃ i items, rt.inst? p = some i ∧
    i.disabled = false ∧ i.replay ⟨query, selected.map (·.stableId)⟩ = .serve items ∧ item ∈ items
  same : rt'.shutDown = rt.shutDown ∧ rt'.currentGeneration = rt.currentGeneration ∧
    rt'.nextGeneration = rt.nextGeneration ∧ rt'.nextInstance = rt.nextInstance

namespace LegacyRuntime
variable {g : Generation} {query : String} {selected : Option Item} {rt : LegacyRuntime}
variable {p : PluginId}

lemma enqueue_suggest_eq {i : Instance} (hi : rt.inst? p = some i)
    (hserve : ∀ items, i.replay ⟨query, selected.map (·.stableId)⟩ ≠ .serve items) :
    rt.enqueue p g (.suggest query selected) = { rt.setInstance p (i.put g query selected) with
        outbox := rt.outbox ++
          if i.busy then []
          else [⟨p, i.id, g, (WorkKind.suggest query selected).intoRequestKind⟩] } := by
  have hput : i.put g query selected = if i.busy then i.hold g (.suggest query selected)
      else { i with running := some ((suggest query selected).decided g) } := by
    unfold put
    split
    case h_1 items heq => exact absurd heq (hserve items)
    case h_2 => rfl
  rw [enqueue, hi, hput]
  by_cases hb : i.busy = true
  · simp only [hb, if_true, append_nil]
    rfl
  · simp only [hb]
    rfl

variable {rt' : LegacyRuntime}

lemma put_one (hp : rt'.inst? p = (rt.inst? p).map fun i =>
      if i.disabled = false then i.put g query selected else i)
    (hother : ∀ q ≠ p, rt'.inst? q = rt.inst? q) (q : PluginId) :
    rt'.inst? q = (rt.inst? q).map fun i =>
      if q ∈ [p] ∧ i.disabled = false then i.put g query selected else i := by
  by_cases hq : q = p
  · simp [hq, hp]
  · simp [hq, hother]

section
variable (rt : LegacyRuntime)

lemma intakeSuggest_spec (g : Generation) (query : String) (selected : Option Item) (p : PluginId) :
    Intake g query selected [p] rt (rt.intakeSuggest g query selected p).1 ∧
      (rt.intakeSuggest g query selected p).2 =
        [p].filterMap fun p => (rt.inst? p).bind (·.verdict p g query selected) := by
  cases hi : rt.inst? p with
  | none =>
    have hsame : rt.intakeSuggest g query selected p = (rt, []) := by simp only [intakeSuggest, hi]
    rw [hsame]
    exact ⟨⟨put_one (by simp [hi]) fun _ _ => rfl, by simp [hi],
      fun item hmem => .inl hmem, rfl, rfl,
      rfl, rfl⟩, by simp [hi]⟩
  | some i =>
    by_cases hd : i.disabled = true
    · have hsame : rt.intakeSuggest g query selected p = (rt, []) := by
        simp only [intakeSuggest, hi, hd, if_true]
      rw [hsame]
      refine ⟨⟨put_one ?_ fun _ _ => rfl, ?_, fun item hmem => .inl hmem, rfl, rfl, rfl, rfl⟩, ?_⟩
      · simp [hi, hd]
      · simp [hi, immediate, hd]
      · simp [hi, verdict, hd]
    · have hon : i.disabled = false := by simpa using hd
      have hevents : (rt.intakeSuggest g query selected p).2 =
          [p].filterMap fun p => (rt.inst? p).bind (·.verdict p g query selected) := by
        simp [intakeSuggest, hi, hon, verdict]
      refine ⟨?_, hevents⟩
      by_cases hserve : ∃ items, i.replay ⟨query, selected.map (·.stableId)⟩ = .serve items
      · obtain ⟨items, hitems⟩ := hserve
        have heq : (rt.intakeSuggest g query selected p).1 = rt.replaceVisible p items := by
          simp only [intakeSuggest, hi, hon, hitems, Bool.false_eq_true, if_false]
        rw [heq]
        refine ⟨put_one ?_ fun _ _ => rfl, ?_, ?_, rfl, rfl, rfl, rfl⟩
        · rw [hi, map_some, if_pos hon, put, hitems]
          exact hi
        · simp [hi, immediate, hitems, replaceVisible]
        · intro item hmem
          rcases mem_append.mp hmem with hold | hnew
          · exact .inl (mem_filter.mp hold).1
          · exact .inr ⟨p, mem_singleton_self p, i, items, hi, hon, hitems, hnew⟩
      · have hnot : ∀ items, i.replay ⟨query, selected.map (·.stableId)⟩ ≠ .serve items :=
          fun items heq => hserve ⟨items, heq⟩
        have heq : (rt.intakeSuggest g query selected p).1 =
            rt.enqueue p g (.suggest query selected) := by
          simp only [intakeSuggest, hi, hon, Bool.false_eq_true, if_false]
          split
          case h_1 items hitems => exact absurd hitems (hnot items)
          case h_2 => rfl
          case h_3 => rfl
        rw [heq, enqueue_suggest_eq hi hnot]
        have hset := inst?_setInstance hi (i.put g query selected)
        refine ⟨put_one ?_ fun q hq => ?_, ?_, fun item hmem => .inl hmem, rfl, rfl, rfl, rfl⟩
        · rw [hi, map_some, if_pos hon]
          exact (hset p).trans (if_pos rfl)
        · exact (hset q).trans (if_neg hq)
        · have himm : i.immediate p g query selected = if i.busy then none
              else some ⟨p, i.id, g, (suggest query selected).intoRequestKind⟩ := by
            unfold immediate
            rw [if_neg (by simp [hon])]
            split
            case h_1 items hitems => exact absurd hitems (hnot items)
            case h_2 => rfl
          by_cases hb : i.busy = true
          · simp [hi, himm, hb]
          · simp [hi, himm, hb]

lemma intakeAll_spec (g : Generation) (query : String)
    (selected : Option Item) (ps : List PluginId) (hn : ps.Nodup) :
    Intake g query selected ps rt (rt.intakeAll g query selected ps).1 ∧
      (rt.intakeAll g query selected ps).2 =
        ps.filterMap fun p => (rt.inst? p).bind (·.verdict p g query selected) := by
  induction ps generalizing rt with
  | nil =>
    refine ⟨⟨fun q => ?_, by simp [intakeAll], fun item hmem => .inl hmem, rfl, rfl, rfl, rfl⟩, rfl⟩
    simp [intakeAll]
  | cons p ps ih =>
    obtain ⟨hp, hps⟩ := nodup_cons.mp hn
    obtain ⟨hone, hevent⟩ := intakeSuggest_spec rt g query selected p
    obtain ⟨hrest, hevents⟩ := ih (rt.intakeSuggest g query selected p).1 hps
    -- the rest of the list finds its instances as they were
    have hsame : ∀ q ∈ ps, (rt.intakeSuggest g query selected p).1.inst? q = rt.inst? q := by
      intro q hq
      have hne : q ≠ p := fun he => hp (he ▸ hq)
      rw [hone.inst]
      simp [hne]
    have hsplit : ∀ {β : Type} (f : PluginId → Option Instance → Option β),
        [p].filterMap (fun q => f q (rt.inst? q)) ++
          ps.filterMap (fun q => f q ((rt.intakeSuggest g query selected p).1.inst? q)) =
          (p :: ps).filterMap fun q => f q (rt.inst? q) := by
      intro β f
      have hps : ps.filterMap (fun q => f q ((rt.intakeSuggest g query selected p).1.inst? q)) =
          ps.filterMap fun q => f q (rt.inst? q) :=
        filterMap_congr fun q hq => by rw [hsame q hq]
      rw [hps, ← filterMap_append, singleton_append]
    rw [intakeAll]
    refine ⟨⟨?_, ?_, ?_, ?_⟩, ?_⟩
    · intro q
      rw [hrest.inst, hone.inst, Option.map_map]
      congr 1
      funext i
      by_cases hq : q = p
      · simp [hq, hp]
      · simp [hq]
    · rw [hrest.outbox, hone.outbox, append_assoc]
      congr 1
      exact hsplit fun q i => i.bind (·.immediate q g query selected)
    · intro item hmem
      rcases hrest.visible item hmem with hmem | ⟨q, hq, i, items, hi, hrest⟩
      · rcases hone.visible item hmem with hmem | ⟨q, hq, hrest⟩
        · exact .inl hmem
        · exact .inr ⟨q, mem_cons.mpr (.inl (mem_singleton.mp hq)), hrest⟩
      · rw [hsame q hq] at hi
        exact .inr ⟨q, mem_cons_of_mem _ hq, i, items, hi, hrest⟩
    · obtain ⟨h1, h2, h3, h4⟩ := hone.same
      obtain ⟨h1', h2', h3', h4'⟩ := hrest.same
      exact ⟨h1'.trans h1, h2'.trans h2, h3'.trans h3, h4'.trans h4⟩
    · simp only [hevent, hevents]
      exact hsplit fun q i => i.bind (·.verdict q g query selected)

lemma addressees_nodup (owner : Option (PluginId × Item)) : (rt.addressees owner).Nodup := by
  unfold addressees
  split
  · exact nodup_singleton _
  · exact rt.plugins.keys_nodup.filter _

lemma question_keystroke (owner : Option (PluginId × Item))
    (hlive : rt.shutDown = false) (hg : g.get = rt.nextGeneration + 1) :
    Keystroke g query (owner.map Prod.snd) (rt.addressees owner) rt
        (({ rt with nextGeneration := g.get }.beginGeneration g).question g query owner).1 ∧
      (({ rt with nextGeneration := g.get }.beginGeneration g).question g query owner).2 =
        questionEvents g query (owner.map Prod.snd) (rt.addressees owner) rt := by
  have hview : ∀ p, ({ rt with nextGeneration := g.get }.beginGeneration g).inst? p =
      (rt.inst? p).map begin := inst?_beginGeneration g
  generalize hbegun : { rt with nextGeneration := g.get }.beginGeneration g = begun at hview
  have hsame : begun.addressees owner = rt.addressees owner := by
    cases owner with
    | some owner => rfl
    | none =>
      have hkeys : begun.plugins.keys = rt.plugins.keys := hbegun ▸ Table.keys_mapValues _ _
      simp only [addressees, hkeys, hview, Option.any_map]
      rfl
  have hn := rt.addressees_nodup owner
  obtain ⟨hin, hevents⟩ := intakeAll_spec begun g query (owner.map Prod.snd)
    (rt.addressees owner) hn
  rw [question, hsame]
  constructor
  · refine ⟨hlive, ?_, hg, hn, ?_, ?_, ?_, ?_, ?_, ?_⟩
    · rw [hin.same.1, ← hbegun]
      exact hlive
    · intro p
      rw [hin.inst, hview, Option.map_map]
      rfl
    · rw [hin.outbox]
      have hout : begun.outbox = rt.outbox := by rw [← hbegun]; rfl
      congr 1
      refine filterMap_congr fun p _ => ?_
      rw [hview, Option.bind_map]
      congr 1
      funext i
      simp only [Function.comp_apply, immediate, begin_busy, begin_replay, begin_disabled, begin_id]
    · intro item hmem
      rcases hin.visible item hmem with hold | ⟨p, hp, i, items, hi, hd, hserve, hitem⟩
      · rw [← hbegun] at hold
        exact absurd hold (by simp [beginGeneration])
      · rw [hview] at hi
        obtain ⟨j, hj, rfl⟩ := map_eq_some_iff.mp hi
        exact ⟨p, hp, j, items, hj, hd, hserve, hitem⟩
    · rw [hin.same.2.1, ← hbegun]
      rfl
    · rw [hin.same.2.2.1, ← hbegun]
      rfl
    · rw [hin.same.2.2.2, ← hbegun]
      rfl
  · simp only [questionEvents, hevents]
    congr 1
    refine filterMap_congr fun p _ => ?_
    rw [hview, Option.bind_map]
    rfl

end

variable {events : List Event}

lemma mintGeneration_eq_some (h : rt.mintGeneration = some (rt', g)) :
    g.get = rt.nextGeneration + 1 ∧ rt' = { rt with nextGeneration := g.get } := by
  unfold mintGeneration at h
  split at h
  · exact absurd h (by simp)
  case h_2 n hn =>
    cases h
    exact ⟨checkedAdd_eq_some hn, rfl⟩

variable {id : InstanceId}

lemma mintInstance_eq_some (h : rt.mintInstance = some (rt', id)) :
    id.get = rt.nextInstance + 1 ∧ rt' = { rt with nextInstance := id.get } := by
  unfold mintInstance at h
  split at h
  · exact absurd h (by simp)
  case h_2 n hn =>
    cases h
    exact ⟨checkedAdd_eq_some hn, rfl⟩

/-- Whom a call puts a question to, if it puts one. An item is selected when it is displayed by a
plugin that is not excluded. -/
def asks (rt : LegacyRuntime) (op : Op) : Option (List PluginId) :=
  if rt.shutDown then none
  else
    match op with
    | .submitQuery _ => some (rt.addressees rt.selected)
    | .selectItem item =>
      ((rt.visible.find? (·.stableId = item)).filter fun selected =>
        (rt.inst? selected.pluginId).any fun i => !i.disabled).map fun selected =>
          [selected.pluginId]
    | _ => none

/-- A question is put under a generation just minted. -/
def ask (g : Generation) (owner : Option (PluginId × Item)) (text : String) (rt : LegacyRuntime) :
    LegacyRuntime × List Event :=
  ({ rt with selected := owner, query := text, nextGeneration := g.get }.beginGeneration g).question
    g text owner

section
variable {owner : Option (PluginId × Item)} {text : String} (hlive : rt.shutDown = false)
  (hg : g.get = rt.nextGeneration + 1)
include hlive hg

lemma ask_keystroke : Keystroke g text (owner.map Prod.snd) (rt.addressees owner)
      { rt with selected := owner, query := text } (rt.ask g owner text).1 ∧
    (rt.ask g owner text).2 = questionEvents g text (owner.map Prod.snd) (rt.addressees owner) rt :=
  question_keystroke { rt with selected := owner, query := text } owner hlive hg

lemma ask_moves : Moves rt (rt.ask g owner text).2 (rt.ask g owner text).1 := by
  obtain ⟨hk, hevents⟩ := @ask_keystroke g rt owner text hlive hg
  rw [hevents]
  exact (one (.free owner text)).trans (.one (.ask hk))

end

/-- What the calls do. -/
inductive Called (rt : LegacyRuntime) : Op → List Event → LegacyRuntime → Prop
  | refused {op : Op} : Called rt op [] rt
  | asked {op : Op} {g : Generation} (owner : Option (PluginId × Item)) (text : String) :
      rt.asks op = some (rt.addressees owner) → rt.shutDown = false →
      g.get = rt.nextGeneration + 1 →
      Called rt op (rt.ask g owner text).2 (rt.ask g owner text).1
  | replaced {op : Op} {p : PluginId} {id : InstanceId} {visible : List Item}
      (selected : Option (PluginId × Item)) (profile : SchedulingProfile)
      (compatibility : LegacyCompatibility) : id.get = rt.nextInstance + 1 →
      (∀ item ∈ visible, item ∈ rt.visible ∧ ((rt.inst? p).isSome → item.pluginId ≠ p)) →
      Called rt op [.instantiated p id]
        ({ rt with nextInstance := id.get, visible, selected }.supersede p id profile compatibility)
  | cleared : Called rt .clearSelection [] rt.clearSelection
  | rebuilt (p : PluginId) : Called rt (.catalogRebuild p) [] (rt.catalogRebuild p).1
  | ticked (now : Nat) (accepts : List Bool) :
      Called rt (.tick now accepts) (rt.tick now accepts).2.2.2 (rt.tick now accepts).1
  | delivered (response : LegacyResponse) :
      Called rt (.deliver response) (rt.deliver response).2.2 (rt.deliver response).1
  | stopped (atMs : Nat) : Called rt (.shutdown atMs) (rt.shutdown atMs).2.2 (rt.shutdown atMs).1

lemma submitQuery_called {text : String} (h : rt.submitQuery text = some (rt', g, events)) :
    Called rt (.submitQuery text) events rt' := by
  unfold submitQuery at h
  split at h
  · cases h
    exact .refused
  case isFalse hno =>
    obtain ⟨⟨minted, g'⟩, hmint, h⟩ := bind_eq_some_iff.mp h
    obtain ⟨hg, rfl⟩ := mintGeneration_eq_some hmint
    cases h
    exact .asked rt.selected text (by simp [asks, hno]) (by simpa using hno) hg

lemma selectItem_called {item : ItemId} {result : Except LegacyRuntimeError Generation}
    (h : rt.selectItem item = some (rt', result, events)) :
    Called rt (.selectItem item) events rt' := by
  unfold selectItem at h
  split at h
  · cases h
    exact .refused
  case isFalse hno =>
    split at h
    · cases h
      exact .refused
    case h_2 chosen hchosen =>
      simp only at h
      split at h
      · cases h
        exact .refused
      case isFalse hon =>
        obtain ⟨⟨minted, g'⟩, hmint, h⟩ := bind_eq_some_iff.mp h
        obtain ⟨hg, rfl⟩ := mintGeneration_eq_some hmint
        cases h
        refine .asked _ "" ?_ (by simpa using hno) hg
        cases hi : rt.inst? chosen.pluginId with
        | none => simp [hi] at hon
        | some i =>
          have hd : i.disabled = false := by simpa [hi] using hon
          simp [asks, hno, hchosen, hi, hd, addressees]

lemma renewed_called {op : Op} (profile : SchedulingProfile) (compatibility : LegacyCompatibility)
    (hmint : (rt.invalidatePluginDisplay p).mintInstance = some (rt', id)) :
    Called rt op [.instantiated p id] (rt'.supersede p id profile compatibility) := by
  obtain ⟨hid, rfl⟩ := mintInstance_eq_some hmint
  refine .replaced _ profile compatibility hid fun item hmem => ?_
  have := mem_filter.mp hmem
  exact ⟨this.1, fun _ => by simpa using this.2⟩

lemma registerWith_called {profile : SchedulingProfile} {compatibility : LegacyCompatibility}
    (h : rt.registerWith p profile compatibility = some (rt', id, events)) :
    Called rt (.registerWith p profile compatibility) events rt' := by
  obtain ⟨⟨minted, id'⟩, hmint, h⟩ := bind_eq_some_iff.mp h
  cases h
  by_cases hknown : rt.plugins.contains p = true
  · rw [if_pos hknown] at hmint
    exact renewed_called profile compatibility hmint
  rw [if_neg hknown] at hmint
  obtain ⟨hid, rfl⟩ := mintInstance_eq_some hmint
  refine .replaced rt.selected profile compatibility hid fun item hmem => ⟨hmem, fun hsome => ?_⟩
  rw [inst?, isSome_map] at hsome
  exact absurd hsome hknown

lemma reload_called {result : Except LegacyRuntimeError InstanceId}
    (h : rt.reload p = some (rt', result, events)) : Called rt (.reload p) events rt' := by
  unfold reload at h
  split at h
  · cases h
    exact .refused
  split at h
  · cases h
    exact .refused
  · obtain ⟨⟨minted, id'⟩, hmint, h⟩ := bind_eq_some_iff.mp h
    cases h
    exact renewed_called _ _ hmint

lemma step_called {op : Op} {reply : Reply} (hstep : step rt op = some (rt', reply, events)) :
    Called rt op events rt' := by
  cases op with
  | registerWith p profile compatibility =>
    obtain ⟨⟨rt₁, id, es⟩, hcall, heq⟩ := bind_eq_some_iff.mp hstep
    cases heq
    exact registerWith_called hcall
  | submitQuery text =>
    obtain ⟨⟨rt₁, g, es⟩, hcall, heq⟩ := bind_eq_some_iff.mp hstep
    cases heq
    exact submitQuery_called hcall
  | selectItem item =>
    obtain ⟨⟨rt₁, result, es⟩, hcall, heq⟩ := bind_eq_some_iff.mp hstep
    cases result <;>
    · cases heq
      exact selectItem_called hcall
  | clearSelection =>
    cases hstep
    exact .cleared
  | catalogRebuild p =>
    have hcall : Called rt (.catalogRebuild p) [] (rt.catalogRebuild p).1 := .rebuilt p
    simp only [step] at hstep
    split at hstep
    case h_1 rt₁ heq | h_2 rt₁ error heq =>
      cases hstep
      rwa [heq] at hcall
  | reload p =>
    obtain ⟨⟨rt₁, result, es⟩, hcall, heq⟩ := bind_eq_some_iff.mp hstep
    cases result <;>
    · cases heq
      exact reload_called hcall
  | tick now accepts =>
    cases hstep
    exact .ticked now accepts
  | deliver response =>
    cases hstep
    exact .delivered response
  | shutdown atMs =>
    cases hstep
    exact .stopped atMs

section
variable {e : Event}

lemma tick_events {now : Nat} {accepts : List Bool} (h : e ∈ (rt.tick now accepts).2.2.2) :
    ∃ request accepted, e = .offered request accepted := by
  unfold tick at h
  split at h
  · cases h
  · obtain ⟨offer, -, rfl⟩ := mem_map.mp h
    exact ⟨_, _, rfl⟩

lemma deliver_events {response : LegacyResponse} (h : e ∈ (rt.deliver response).2.2) :
    e = .answered response := by
  unfold deliver at h
  split at h
  · cases h
  split at h
  · cases h
  split at h
  · cases h
  · split at h
    · cases h
    · exact mem_singleton.mp h

lemma shutdown_events {atMs : Nat} (h : e ∈ (rt.shutdown atMs).2.2) : e = .stopped := by
  unfold shutdown at h
  split at h
  · cases h
  · exact mem_singleton.mp h

end

lemma shutdown_moves (atMs : Nat) : Moves rt (rt.shutdown atMs).2.2 (rt.shutdown atMs).1 := by
  unfold shutdown
  split
  · exact .refl
  · have hflags : Moves rt [] (rt.mapRunning RunningWork.terminated) :=
      .one (.flags faithful_terminated)
    exact hflags.trans (.one (.stop _))

end LegacyRuntime

/-! Answers. -/

/-- An answer that retires the running callback of the live instance finds it handed over. -/
def Prompt (rt : LegacyRuntime) : Op → Prop
  | .deliver response => rt.shutDown = false → ∀ i ∈ rt.inst? response.plugin,
      response.inst = i.id → ∀ w ∈ i.running, w.answeredBy response = true →
        w.dispatchedAtMs.isSome = true
  | _ => True

instance (rt : LegacyRuntime) : (op : Op) → Decidable (Prompt rt op)
  | .deliver response =>
    inferInstanceAs (Decidable (rt.shutDown = false → ∀ i ∈ rt.inst? response.plugin,
      response.inst = i.id → ∀ w ∈ i.running, w.answeredBy response = true →
        w.dispatchedAtMs.isSome = true))
  | .registerWith .. | .submitQuery _ | .selectItem _ | .clearSelection | .catalogRebuild _
  | .reload _ | .tick .. | .shutdown _ => isTrue trivial

lemma LegacyRuntime.deliver_moves {response : LegacyResponse} (h : Serial rt)
    (hprompt : Prompt rt (.deliver response)) :
    Moves rt (rt.deliver response).2.2 (rt.deliver response).1 := by
  unfold deliver
  split
  · exact .refl
  case isFalse hno =>
    split
    · exact .refl
    case h_2 record hget =>
      split
      · exact .refl
      case isFalse hinst =>
        have hlive : rt.shutDown = false := by simpa using hno
        have hid : response.inst = record.inst.id := by simpa using hinst
        split
        · exact .refl
        case h_2 w hfilter =>
          obtain ⟨hw, hb⟩ := filter_eq_some_iff.mp hfilter
          have hi := inst?_of_get? hget
          have hmove := Move.answer hlive hget hid hw hb (hprompt hlive _ hi hid w hw hb)
          refine (one hmove).trans (finishCallback_moves (hmove.serial h) ?_ ?_)
          · rw [(accept_rest _ _ _ _).2.2.2.2, hlive]
          · intro j hj
            rw [inst?_accept hget, if_pos rfl] at hj
            cases hj
            rw [(settle_frame _).2.1]
            exact ((h.fits _ _ hi).of_running hw).2

lemma step_moves {op : Op} {reply : Reply} {events : List Event} (h : Serial rt)
    (hprompt : Prompt rt op) (hstep : step rt op = some (rt', reply, events)) :
    Moves rt events rt' := by
  cases step_called hstep with
  | refused => exact .refl
  | asked owner text _ hlive hg => exact ask_moves hlive hg
  | replaced selected profile compatibility hid hvis =>
    exact .one (.instantiate selected profile compatibility hid hvis)
  | cleared => exact .one (.free none rt.query)
  | rebuilt p => exact catalogRebuild_moves h
  | ticked now accepts => exact tick_moves h now accepts
  | delivered response => exact deliver_moves h hprompt
  | stopped atMs => exact shutdown_moves atMs

/-! ### Runs -/

/-- Runs in which every answer that retires a callback finds it handed over. -/
abbrev PromptRun (deadlines : LegacyDeadlines) (tr : List (Op × Reply × List Event))
    (rt : LegacyRuntime) : Prop :=
  ExecWhen step Prompt (.new deadlines) tr rt

@[simp] lemma log_nil : log [] = [] := rfl

@[simp] lemma log_concat (tr : List (Op × Reply × List Event)) (io : Op × Reply × List Event) :
    log (tr ++ [io]) = log tr ++ io.2.2 := by
  simp [log]

variable {I : List Event → LegacyRuntime → Prop}

lemma Moves.invariant {past : List Event}
    (hmoves : Moves rt es rt') (h : Serial rt) (h0 : I past rt)
    (hmove : ∀ past rt es rt', Serial rt → I past rt → Move rt es rt' → I (past ++ es) rt') :
    I (past ++ es) rt' := by
  induction hmoves with
  | refl => simpa using h0
  | step hpre hlast ih =>
    rw [← append_assoc]
    exact hmove _ _ _ _ (hpre.serial h) ih hlast

/-- What holds at the start and is kept by every move holds after every prompt run. The property
may speak of everything that happened before. -/
lemma PromptRun.invariant {deadlines : LegacyDeadlines}
    {tr : List (Op × Reply × List Event)} (hrun : PromptRun deadlines tr rt)
    (h0 : I [] (.new deadlines))
    (hmove : ∀ past rt es rt', Serial rt → I past rt → Move rt es rt' → I (past ++ es) rt') :
    Serial rt ∧ I (log tr) rt := by
  refine ExecWhen.invariant (fun tr rt => Serial rt ∧ I (log tr) rt)
    ⟨serial_new deadlines, h0⟩ ?_ hrun
  rintro tr rt op rt' ⟨reply, events⟩ ⟨hserial, hI⟩ hprompt hstep
  have hmoves := step_moves hserial hprompt hstep
  rw [log_concat]
  exact ⟨hmoves.serial hserial, hmoves.invariant hserial hI hmove⟩

end CriKey.Legacy
