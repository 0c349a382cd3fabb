import CriKey.Legacy.Runtime

/-! What one call can do to the instances and the outbox, as a sequence of small moves that each
touch one instance (a keystroke apart, which touches them all). -/
namespace CriKey.Legacy
open CriKey.Base CriKey.Core CriKey.Scheduler LegacyRuntime List Option RunningWork Table

/-! ### The views -/

namespace LegacyRuntime
variable {rt : LegacyRuntime} {p q : PluginId} {i : Instance}

section
variable (h : rt.inst? p = some i)
include h

lemma inst?_setInstance (j : Instance) (q : PluginId) :
    (rt.setInstance p j).inst? q = if q = p then some j else rt.inst? q := by
  obtain ⟨record, hget, -⟩ := map_eq_some_iff.mp h
  rw [inst?, setInstance, get?_modify]
  split
  case isTrue hq =>
    rw [hq, hget]
    rfl
  case isFalse hq => rfl

lemma inst?_popped {outbox : List LegacyRequest} {j : Instance} (q : PluginId) :
    ({ rt with outbox }.setInstance p j).inst? q = if q = p then some j else rt.inst? q :=
  @inst?_setInstance { rt with outbox } p i h j q

lemma inst?_setRecord {record : PluginRecord} (q : PluginId) :
    (rt.setRecord p record).inst? q = if q = p then some record.inst else rt.inst? q := by
  obtain ⟨old, hget, -⟩ := map_eq_some_iff.mp h
  rw [inst?, setRecord, get?_modify]
  split
  case isTrue hq =>
    rw [hq, hget]
    rfl
  case isFalse hq => rfl

@[simp] lemma inst?_launch (j : Instance) (g : Generation) (work : WorkKind) (q : PluginId) :
    (rt.launch p j g work).inst? q =
      if q = p then some { j with running := some (work.decided g) } else rt.inst? q :=
  inst?_setInstance h _ q

end

lemma inst?_mapRunning (f : RunningWork → RunningWork) (q : PluginId) : (rt.mapRunning f).inst? q =
      (rt.inst? q).map fun i => { i with running := i.running.map f } := by
  rw [inst?, mapRunning, get?_mapValues, inst?, Option.map_map, Option.map_map]
  rfl

lemma inst?_beginGeneration (g : Generation) (q : PluginId) :
    (rt.beginGeneration g).inst? q = (rt.inst? q).map Instance.begin := by
  rw [inst?, beginGeneration, get?_mapValues, inst?, Option.map_map, Option.map_map]
  rfl

lemma inst?_supersede (id : InstanceId) (profile : SchedulingProfile)
    (compatibility : LegacyCompatibility) (q : PluginId) :
    (rt.supersede p id profile compatibility).inst? q =
      if q = p then some (.new id profile compatibility) else rt.inst? q := by
  rw [inst?, supersede, get?_insert]
  split <;> rfl

lemma setInstance_self (h : rt.inst? p = some i) : rt.setInstance p i = rt := by
  obtain ⟨record, hget, rfl⟩ := map_eq_some_iff.mp h
  have hsame : rt.plugins.modify p (fun r => { r with inst := record.inst }) = rt.plugins :=
    modify_fixed _ hget rfl
  simp only [setInstance, hsame]

end LegacyRuntime

/-- The instance of `p` is now `j`, and the others are as they were. -/
abbrev Replaces (rt : LegacyRuntime) (p : PluginId) (j : Instance) (rt' : LegacyRuntime) : Prop :=
  ∀ q, rt'.inst? q = if q = p then some j else rt.inst? q

/-! ### The serial discipline -/

def LegacyRequestKind.key : LegacyRequestKind → Option CacheKey
  | .start => none
  | .catalog => none
  | .initialSuggest query => some ⟨query, none⟩
  | .argumentSuggest query selected _ => some ⟨query, some selected⟩

/-- The running work is this request, and has not crossed the boundary. -/
structure RunningWork.Awaits (w : RunningWork) (request : LegacyRequest) : Prop where
  undispatched : w.dispatchedAtMs = none
  generation : w.generation = request.generation
  callback : w.callback = request.callback
  key : w.key = request.kind.key

lemma WorkKind.awaits_decided (work : WorkKind) (p : PluginId) (id : InstanceId)
    (g : Generation) : (work.decided g).Awaits ⟨p, id, g, work.intoRequestKind⟩ := by
  cases work with
  | catalog => exact ⟨rfl, rfl, rfl, rfl⟩
  | suggest query selected => cases selected <;> exact ⟨rfl, rfl, rfl, rfl⟩

/-- The request belongs to the live instance of its plugin and is that instance's running work. -/
def LegacyRuntime.Waits (rt : LegacyRuntime) (request : LegacyRequest) : Prop :=
  ∃ i w, rt.inst? request.plugin = some i ∧ i.id = request.inst ∧ i.running = some w ∧
    w.Awaits request

/-- An instance under the current generation `now`. -/
structure Instance.Fits (now : Generation) (i : Instance) : Prop where
  off : i.disabled = true → i.running = none ∧ i.queuedStart = false ∧ i.pending = none ∧
    i.pendingCatalog = false
  owed : i.queuedStart = true → i.running = none ∧ i.started = false
  first : ∀ w, i.running = some w → (w.callback = .onStart ↔ i.started = false)
  init : i.disabled = false → i.queuedStart = false → i.running = none → i.started = true
  bound : ∀ w, i.running = some w → w.generation ≤ now
  held : ∀ w, i.pending = some w → w.generation = now ∧ w.work.callback = .onSuggest
  clear : ∀ w, i.running = some w → w.callback = .onSuggest → w.generation = now → i.pending = none

namespace LegacyRuntime

def idOf (p : PluginId) (rt : LegacyRuntime) : Option InstanceId := (rt.inst? p).map (·.id)

/-- Every request of the outbox is for the live instance of its plugin. -/
def Live (rt : LegacyRuntime) : Prop :=
  ∀ request ∈ rt.outbox, rt.idOf request.plugin = some request.inst

variable {rt rt' : LegacyRuntime} {p : PluginId} {i j : Instance}

lemma idOf_eq_some (h : rt.inst? p = some i) : rt.idOf p = some i.id := by
  rw [idOf, h]
  rfl

lemma idOf_update (hi : rt.inst? p = some i) (hinst : Replaces rt p j rt') (hid : j.id = i.id)
    (q : PluginId) : rt'.idOf q = rt.idOf q := by
  rw [idOf, hinst, idOf]
  split
  case isTrue hq => simp [hq, hi, hid]
  case isFalse => rfl

/-- What stays in the outbox of a plugin that gets a new instance belongs to other plugins. -/
lemma supersede_outbox (h : rt.Live) {id : InstanceId} {profile : SchedulingProfile}
    {compatibility : LegacyCompatibility} {request : LegacyRequest}
    (hmem : request ∈ (rt.supersede p id profile compatibility).outbox) :
    request ∈ rt.outbox ∧ request.plugin ≠ p := by
  obtain ⟨hold, hkept⟩ := mem_filter.mp hmem
  refine ⟨hold, fun hp => ?_⟩
  obtain ⟨i, hi, hid⟩ := map_eq_some_iff.mp (h request hold)
  rw [hp] at hi
  simp [hi, hid] at hkept

end LegacyRuntime

/-- Every instance has an id of its own, which was minted. -/
structure Named (rt : LegacyRuntime) : Prop where
  minted : ∀ p i, rt.inst? p = some i → i.id.get ≤ rt.nextInstance
  apart : ∀ p q i j, rt.inst? p = some i → rt.inst? q = some j → i.id = j.id → p = q

namespace Named
variable {rt rt' : LegacyRuntime} {p : PluginId} {j : Instance}

lemma new (deadlines : LegacyDeadlines) : Named (.new deadlines) where
  minted := fun p i h => absurd h (by simp [inst?, LegacyRuntime.new])
  apart := fun p q i j h => absurd h (by simp [inst?, LegacyRuntime.new])

lemma congr (h : Named rt) (hids : ∀ q, rt'.idOf q = rt.idOf q)
    (hnext : rt'.nextInstance = rt.nextInstance) : Named rt' := by
  have hback : ∀ q i, rt'.inst? q = some i → ∃ j, rt.inst? q = some j ∧ j.id = i.id := by
    intro q i hi
    exact map_eq_some_iff.mp ((hids q).symm.trans (idOf_eq_some hi))
  refine ⟨fun q i hi => ?_, fun q r i j hi hj hid => ?_⟩
  · obtain ⟨i', hi', hid⟩ := hback q i hi
    rw [← hid, hnext]
    exact h.minted q i' hi'
  · obtain ⟨i', hi', hid'⟩ := hback q i hi
    obtain ⟨j', hj', hjd'⟩ := hback r j hj
    exact h.apart q r i' j' hi' hj' (hid'.trans (hid.trans hjd'.symm))

lemma replace (h : Named rt) (hview : Replaces rt p j rt')
    (hid : j.id.get = rt.nextInstance + 1) (hnext : rt'.nextInstance = j.id.get) : Named rt' := by
  have hfresh : ∀ q i, rt.inst? q = some i → i.id ≠ j.id := by
    intro q i hi he
    have := h.minted q i hi
    rw [he] at this
    omega
  refine ⟨fun q i hi => ?_, fun q r i k hi hk hik => ?_⟩
  · rw [hview] at hi
    split at hi
    · cases hi
      exact hnext.ge
    · have := h.minted q i hi
      omega
  · rw [hview] at hi hk
    split at hi <;> split at hk
    case isTrue.isTrue hq hr => exact hq.trans hr.symm
    case isTrue.isFalse =>
      cases hi
      exact absurd hik.symm (hfresh r k hk)
    case isFalse.isTrue =>
      cases hk
      exact absurd hik (hfresh q i hi)
    case isFalse.isFalse => exact h.apart q r i k hi hk hik

end Named

structure Serial (rt : LegacyRuntime) : Prop extends Named rt where
  fits : ∀ p i, rt.inst? p = some i → i.Fits rt.currentGeneration
  waits : ∀ request ∈ rt.outbox, rt.Waits request
  nodup : (rt.outbox.map (·.plugin)).Nodup
  current : rt.currentGeneration.get = rt.nextGeneration
  stopped : rt.shutDown = true → rt.outbox = []

lemma serial_new (deadlines : LegacyDeadlines) : Serial (.new deadlines) where
  toNamed := .new deadlines
  fits := fun p i h => absurd h (by simp [inst?, new])
  waits := fun request h => absurd h (by simp [new])
  nodup := nodup_nil
  current := rfl
  stopped := fun _ => rfl

namespace Serial
variable {rt rt' : LegacyRuntime} {p : PluginId} {i j : Instance}

lemma live (h : Serial rt) : rt.Live := by
  intro request hmem
  obtain ⟨i, -, hi, hid, -⟩ := h.waits request hmem
  exact hid ▸ idOf_eq_some hi

lemma nodup_inst (h : Serial rt) : (rt.outbox.map (·.inst)).Nodup := by
  have hpair := pairwise_map.mp h.nodup
  refine pairwise_map.mpr (hpair.imp_of_mem ?_)
  intro a b ha hb hne heq
  obtain ⟨i, -, hi, hid, -⟩ := h.waits a ha
  obtain ⟨j, -, hj, hjd, -⟩ := h.waits b hb
  exact hne (h.apart _ _ i j hi hj (hid.trans (heq.trans hjd.symm)))

/-- A change of one instance that keeps its identity, with the requests of the other plugins left
as they are. -/
lemma update (h : Serial rt) (hp : rt.inst? p = some i)
    (hinst : Replaces rt p j rt') (hnext : rt'.nextInstance = rt.nextInstance)
    (hcurrent : rt'.currentGeneration = rt.currentGeneration)
    (hgeneration : rt'.nextGeneration = rt.nextGeneration) (hid : j.id = i.id)
    (hfits : j.Fits rt.currentGeneration)
    (hown : ∀ request ∈ rt'.outbox, request.plugin = p → rt'.Waits request)
    (hother : ∀ request ∈ rt'.outbox, request.plugin ≠ p → request ∈ rt.outbox)
    (hnodup : (rt'.outbox.map (·.plugin)).Nodup) (hstop : rt'.shutDown = true → rt'.outbox = []) :
    Serial rt' where
  toNamed := h.toNamed.congr (idOf_update hp hinst hid) hnext
  fits := by
    intro q k hk
    rw [hinst] at hk
    rw [hcurrent]
    split at hk
    · cases hk
      exact hfits
    · exact h.fits q k hk
  waits := by
    intro request hmem
    by_cases hq : request.plugin = p
    · exact hown request hmem hq
    · obtain ⟨k, w, hk, hrest⟩ := h.waits request (hother request hmem hq)
      exact ⟨k, w, by rw [hinst, if_neg hq, hk], hrest⟩
  nodup := hnodup
  current := by rw [hcurrent, hgeneration, h.current]
  stopped := hstop

end Serial

/-! ### Moves -/

/-- A change of the flags of a running callback only. -/
structure Faithful (f : RunningWork → RunningWork) : Prop where
  generation : ∀ w, (f w).generation = w.generation
  callback : ∀ w, (f w).callback = w.callback
  key : ∀ w, (f w).key = w.key
  dispatchedAtMs : ∀ w, (f w).dispatchedAtMs = w.dispatchedAtMs

lemma faithful_superseded : Faithful superseded := by
  constructor <;>
  · intro w
    unfold superseded
    split <;> rfl

lemma faithful_terminated : Faithful terminated :=
  ⟨fun _ => rfl, fun _ => rfl, fun _ => rfl, fun _ => rfl⟩

lemma faithful_judge (deadlines : LegacyDeadlines) (now : Nat) : Faithful (judge deadlines now) :=
  ⟨fun _ => rfl, fun _ => rfl, fun _ => rfl, fun _ => rfl⟩

/-- An instance once a question is put to it: served from the retained answer, retained behind the
running work, or running. -/
def Instance.put (i : Instance) (g : Generation) (query : String) (selected : Option Item) :
    Instance :=
  match i.replay ⟨query, selected.map (·.stableId)⟩ with
  | .serve _ => i
  | _ =>
    if i.busy then i.hold g (.suggest query selected)
    else { i with running := some ((WorkKind.suggest query selected).decided g) }

/-- An instance of the previous generation once the question is put to it. -/
def Instance.asked (i : Instance) (g : Generation) (query : String) (selected : Option Item) :
    Instance :=
  i.begin.put g query selected

/-- The request an idle instance gets at once. -/
def Instance.immediate (p : PluginId) (g : Generation) (query : String) (selected : Option Item)
    (i : Instance) : Option LegacyRequest :=
  if i.disabled then none
  else
    match i.replay ⟨query, selected.map (·.stableId)⟩ with
    | .serve _ => none
    | _ => if i.busy then none
      else some ⟨p, i.id, g, (WorkKind.suggest query selected).intoRequestKind⟩

/-- An instance of the previous generation after a keystroke. -/
def Instance.struck (p : PluginId) (addressed : List PluginId) (g : Generation) (query : String)
    (selected : Option Item) (i : Instance) : Instance :=
  if p ∈ addressed ∧ i.disabled = false then i.asked g query selected else i.begin

def Instance.verdict (p : PluginId) (g : Generation) (query : String) (selected : Option Item)
    (i : Instance) : Option Event :=
  if i.disabled then none
  else some (.intake p i.id g (i.replay ⟨query, selected.map (·.stableId)⟩))

/-- A keystroke: every instance leaves its retained request, and the addressed ones get the new
question. -/
structure Keystroke (g : Generation) (query : String) (selected : Option Item)
    (addressed : List PluginId) (rt rt' : LegacyRuntime) : Prop where
  live : rt.shutDown = false
  live' : rt'.shutDown = false
  minted : g.get = rt.nextGeneration + 1
  nodup : addressed.Nodup
  inst : ∀ p, rt'.inst? p = (rt.inst? p).map (·.struck p addressed g query selected)
  outbox : rt'.outbox = rt.outbox ++
    addressed.filterMap fun p => (rt.inst? p).bind (·.immediate p g query selected)
  visible : ∀ item ∈ rt'.visible, ∃ p ∈ addressed, ∃ i items, rt.inst? p = some i ∧
    i.disabled = false ∧ i.replay ⟨query, selected.map (·.stableId)⟩ = .serve items ∧ item ∈ items
  current : rt'.currentGeneration = g
  nextGeneration : rt'.nextGeneration = g.get
  nextInstance : rt'.nextInstance = rt.nextInstance

def questionEvents (g : Generation) (query : String) (selected : Option Item)
    (addressed : List PluginId) (rt : LegacyRuntime) : List Event :=
  .questioned g ⟨query, selected.map (·.stableId)⟩ addressed ::
    addressed.filterMap fun p => (rt.inst? p).bind (·.verdict p g query selected)

inductive Move (rt : LegacyRuntime) : List Event → LegacyRuntime → Prop
  | free (selected : Option (PluginId × Item)) (query : String) :
      Move rt [] { rt with selected := selected, query := query }
  | flags {f : RunningWork → RunningWork} : Faithful f →
      Move rt [] (rt.mapRunning f)
  | stop (report : ShutdownReport) :
      Move rt [.stopped] { rt with outbox := [], shutDown := true, shutdownReport := some report }
  | instantiate {p : PluginId} {id : InstanceId} {visible : List Item}
      (selected : Option (PluginId × Item)) (profile : SchedulingProfile)
      (compatibility : LegacyCompatibility) :
      id.get = rt.nextInstance + 1 →
      (∀ item ∈ visible, item ∈ rt.visible ∧ ((rt.inst? p).isSome → item.pluginId ≠ p)) →
      Move rt [.instantiated p id]
        ({ rt with nextInstance := id.get, visible, selected }.supersede p id profile compatibility)
  | ask {rt' : LegacyRuntime} {g : Generation} {query : String} {selected : Option Item}
      {addressed : List PluginId} : Keystroke g query selected addressed rt rt' →
      Move rt (questionEvents g query selected addressed rt) rt'
  | hold {p : PluginId} {i : Instance} : rt.inst? p = some i →
      i.disabled = false → Move rt [] (rt.setInstance p { i with pendingCatalog := true })
  | build {p : PluginId} {i : Instance} (pendingCatalog : Bool) :
      rt.inst? p = some i → rt.shutDown = false → i.disabled = false → i.running = none →
      i.queuedStart = false →
      Move rt [] (rt.launch p { i with pendingCatalog } .zero .catalog)
  | promote {p : PluginId} {i : Instance} {w : PendingWork} :
      rt.inst? p = some i → rt.shutDown = false → i.disabled = false → i.running = none →
      i.queuedStart = false → i.pending = some w →
      Move rt [] (rt.launch p { i with pending := none } w.generation w.work)
  | start {p : PluginId} {i : Instance} : rt.inst? p = some i →
      rt.shutDown = false → i.disabled = false → i.running = none → i.queuedStart = true →
      Move rt [] { rt.setInstance p { i with
              queuedStart := false
              running := some { generation := .zero, callback := .onStart, key := none } } with
          outbox := rt.outbox ++ [⟨p, i.id, .zero, .start⟩] }
  | handOver {request : LegacyRequest} {outbox : List LegacyRequest}
      {i : Instance} {w : RunningWork} (now : Nat) : rt.outbox = request :: outbox →
      rt.inst? request.plugin = some i → i.id = request.inst → i.running = some w →
      w.Awaits request →
      Move rt [.offered request true] ({ rt with outbox }.setInstance request.plugin
          { i with running := some { w with dispatchedAtMs := some now } })
  | drop {request : LegacyRequest} {outbox : List LegacyRequest}
      {i : Instance} {w : RunningWork} : rt.outbox = request :: outbox →
      rt.inst? request.plugin = some i → i.id = request.inst → i.running = some w →
      w.Awaits request →
      Move rt [.offered request false] ({ rt with outbox }.dropRunning request)
  | answer {response : LegacyResponse} {record : PluginRecord}
      {w : RunningWork} : rt.shutDown = false →
      rt.plugins.get? response.plugin = some record → response.inst = record.inst.id →
      record.inst.running = some w → w.answeredBy response = true →
      w.dispatchedAtMs.isSome = true →
      Move rt [.answered response] (rt.accept record w response).1

inductive Moves (rt : LegacyRuntime) : List Event → LegacyRuntime → Prop
  | refl : Moves rt [] rt
  | step {rt₁ rt₂ : LegacyRuntime} {es es' : List Event} : Moves rt es rt₁ → Move rt₁ es' rt₂ →
      Moves rt (es ++ es') rt₂

lemma Moves.one {rt rt' : LegacyRuntime} {es : List Event} (h : Move rt es rt') :
    Moves rt es rt' := by
  simpa using Moves.step .refl h

lemma Moves.trans {rt rt₁ rt₂ : LegacyRuntime} {es es' : List Event} (h : Moves rt es rt₁)
    (h' : Moves rt₁ es' rt₂) : Moves rt (es ++ es') rt₂ := by
  induction h' with
  | refl => simpa using h
  | step _ hmove ih =>
    rw [← append_assoc]
    exact .step ih hmove

/-! ### Edits -/

/-- A change of one instance, of the flags or of the head of the outbox, whatever the discipline. A
request is added for a callback that is no suggestion or for the retained one. -/
inductive Edit (rt : LegacyRuntime) : LegacyRuntime → Prop
  | keep {p : PluginId} {i j : Instance} : rt.inst? p = some i → j.id = i.id →
      (j.pending = i.pending ∨ j.pending = none) → Edit rt (rt.setInstance p j)
  | push {request : LegacyRequest} {i j : Instance} :
      rt.inst? request.plugin = some i → j.id = i.id → request.inst = i.id →
      (request.callback ≠ .onSuggest ∧ j.pending = i.pending ∨
        i.pending.map (·.generation) = some request.generation ∧ j.pending = none) →
      Edit rt { rt.setInstance request.plugin j with outbox := rt.outbox ++ [request] }
  | flags (f : RunningWork → RunningWork) : Edit rt (rt.mapRunning f)
  | pop {request : LegacyRequest} {outbox : List LegacyRequest} :
      rt.outbox = request :: outbox → Edit rt { rt with outbox }

abbrev Edits : LegacyRuntime → LegacyRuntime → Prop := Relation.ReflTransGen Edit

namespace LegacyRuntime
variable {rt : LegacyRuntime} {p : PluginId}

lemma launch_edits {i j : Instance} {g : Generation} {work : WorkKind}
    (hi : rt.inst? p = some i) (hid : j.id = i.id)
    (hpending : work = .catalog ∧ j.pending = i.pending ∨
      i.pending = some ⟨g, work⟩ ∧ j.pending = none) : Edits rt (rt.launch p j g work) := by
  have hi' : rt.inst? (⟨p, j.id, g, work.intoRequestKind⟩ : LegacyRequest).plugin = some i := hi
  refine .single (.push hi' hid hid ?_)
  cases hpending with
  | inl hcatalog =>
    obtain ⟨rfl, hsame⟩ := hcatalog
    exact .inl ⟨by simp [LegacyRequest.callback, WorkKind.intoRequestKind], hsame⟩
  | inr hpromoted => exact .inr ⟨by simp [hpromoted.1], hpromoted.2⟩

lemma finishCallback_edits : Edits rt (rt.finishCallback p) := by
  unfold finishCallback
  split
  · exact .refl
  case h_2 i hi =>
    split
    · exact .refl
    split
    · exact .single (.keep hi rfl (.inr rfl))
    split
    · exact launch_edits hi rfl (.inl ⟨rfl, rfl⟩)
    · split
      · exact .refl
      case h_2 g work hpending => exact launch_edits hi rfl (.inr ⟨hpending, rfl⟩)

lemma catalogRebuild_edits : Edits rt (rt.catalogRebuild p).1 := by
  unfold catalogRebuild
  split
  · exact .refl
  split
  · exact .refl
  case h_2 i hi =>
    split
    · exact .refl
    simp only [enqueue, hi]
    split
    · exact .single (.keep hi rfl (.inl rfl))
    · exact launch_edits hi rfl (.inl ⟨rfl, rfl⟩)

lemma startPlugin_edits : Edits rt (rt.startPlugin p) := by
  unfold startPlugin
  split
  · exact .refl
  case h_2 i hi =>
    split
    · exact .refl
    · have hi' : rt.inst? (⟨p, i.id, .zero, .start⟩ : LegacyRequest).plugin = some i := hi
      exact .single (.push hi' rfl rfl (.inl ⟨by simp [LegacyRequest.callback], rfl⟩))

lemma startAll_edits : Edits rt rt.startAll := by
  unfold startAll
  generalize rt.plugins.keys = ps
  induction ps generalizing rt with
  | nil => exact .refl
  | cons p ps ih => exact startPlugin_edits.trans ih

lemma round_edits {request : LegacyRequest} {outbox : List LegacyRequest}
    (hout : rt.outbox = request :: outbox) (now : Nat) (accepted : Bool) :
    Edits rt (if accepted then { rt with outbox }.markDispatched now request.plugin
      else ({ rt with outbox }.dropRunning request).finishCallback request.plugin) := by
  refine .head (.pop hout) ?_
  split
  · unfold markDispatched
    split
    · exact .refl
    case h_2 i hi => exact .single (.keep hi rfl (.inl rfl))
  · refine Relation.ReflTransGen.trans ?_ finishCallback_edits
    unfold dropRunning
    split
    · exact .refl
    case h_2 i hi =>
      refine .single (.keep hi ?_ ?_)
      · split <;> rfl
      · split
        · exact .inr rfl
        · exact .inl rfl

lemma drain_edits (rt : LegacyRuntime) (now fuel : Nat) (accepts : List Bool) :
    Edits rt (rt.drain now fuel accepts).1 ∧ ∀ offer ∈ (rt.drain now fuel accepts).2,
      ∃ mid, Edits rt mid ∧ offer.1 ∈ mid.outbox := by
  induction fuel generalizing rt accepts with
  | zero => exact ⟨.refl, by simp [drain]⟩
  | succ fuel ih =>
    rw [drain]
    split
    · exact ⟨.refl, by simp⟩
    case h_2 request outbox hout =>
      have hround := round_edits hout now (accepts.headD true)
      obtain ⟨hrest, hoffers⟩ := ih _ accepts.tail
      refine ⟨hround.trans hrest, fun offer hmem => ?_⟩
      cases mem_cons.mp hmem with
      | inl hfirst => exact ⟨rt, .refl, hfirst ▸ hout ▸ mem_cons_self⟩
      | inr hlater =>
        obtain ⟨mid, hmid, hin⟩ := hoffers offer hlater
        exact ⟨mid, hround.trans hmid, hin⟩

lemma tick_edits (now : Nat) (accepts : List Bool) :
    Edits rt (rt.tick now accepts).1 ∧ ∀ request ∈ (rt.tick now accepts).2.1,
      ∃ mid, Edits rt mid ∧ request ∈ mid.outbox := by
  unfold tick
  split
  · exact ⟨.refl, by simp⟩
  obtain ⟨hdrain, hoffers⟩ := drain_edits rt.startAll now rt.startAll.backlog accepts
  refine ⟨.tail (startAll_edits.trans hdrain) (.flags _), fun request hmem => ?_⟩
  obtain ⟨offer, hoffer, rfl⟩ := mem_map.mp hmem
  obtain ⟨mid, hmid, hin⟩ := hoffers offer (mem_filter.mp hoffer).1
  exact ⟨mid, startAll_edits.trans hmid, hin⟩

end LegacyRuntime
end CriKey.Legacy
