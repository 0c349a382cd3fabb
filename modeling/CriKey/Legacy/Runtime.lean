import CriKey.Base.Machine
import CriKey.Base.Upsert
import CriKey.Legacy.State

/-! The calls of the legacy runtime. Intake decides, `tick` dispatches. -/
namespace CriKey.Legacy
open CriKey.Base CriKey.Core CriKey.Scheduler

def maxItemsPerPublication : Nat := 4096

def maxCatalogItems : Nat := 100000

/-- How a suggestion request is met: from the retained answer, or by asking the plugin. -/
inductive Replay where
  | serve (items : List Item)
  | refuse
  | ask
deriving DecidableEq, Repr

/-- What a call does at the boundaries of the runtime, in order: instances it mints, questions it
opens and to whom they go, callbacks it hands to the worker (with the worker's verdict) and
answers that retire a running callback. -/
inductive Event where
  | instantiated (plugin : PluginId) (inst : InstanceId)
  | questioned (generation : Generation) (key : CacheKey) (addressed : List PluginId)
  | intake (plugin : PluginId) (inst : InstanceId) (generation : Generation) (replay : Replay)
  | offered (request : LegacyRequest) (accepted : Bool)
  | answered (response : LegacyResponse)
  | stopped
deriving DecidableEq, Repr

/-- A busy instance keeps one suggestion request, the newest, and one catalog rebuild. -/
def Instance.hold (i : Instance) (generation : Generation) : WorkKind → Instance
  | .catalog => { i with pendingCatalog := true }
  | .suggest query selected => { i with pending := some ⟨generation, .suggest query selected⟩ }

namespace LegacyRuntime

def mintGeneration (rt : LegacyRuntime) : Option (LegacyRuntime × Generation) :=
  match checkedAdd rt.nextGeneration 1 with
  | none => none
  | some n => some ({ rt with nextGeneration := n }, ⟨n⟩)

def mintInstance (rt : LegacyRuntime) : Option (LegacyRuntime × InstanceId) :=
  match checkedAdd rt.nextInstance 1 with
  | none => none
  | some n => some ({ rt with nextInstance := n }, ⟨n⟩)

/-- A superseded instance's results may not be selected any more. -/
def invalidatePluginDisplay (p : PluginId) (rt : LegacyRuntime) : LegacyRuntime :=
  { rt with
    visible := rt.visible.filter (·.pluginId ≠ p)
    selected := rt.selected.filter (·.1 ≠ p) }

def replaceVisible (p : PluginId) (items : List Item) (rt : LegacyRuntime) : LegacyRuntime :=
  { rt with visible := rt.visible.filter (·.pluginId ≠ p) ++ items }

/-! ### The serial dispatcher -/

/-- The work becomes the instance's running work and its request goes to the outbox. -/
def launch (p : PluginId) (i : Instance) (generation : Generation) (work : WorkKind)
    (rt : LegacyRuntime) : LegacyRuntime :=
  { rt.setInstance p { i with running := some (work.decided generation) } with
    outbox := rt.outbox ++ [⟨p, i.id, generation, work.intoRequestKind⟩] }

def enqueue (p : PluginId) (generation : Generation) (work : WorkKind) (rt : LegacyRuntime) :
    LegacyRuntime :=
  match rt.inst? p with
  | none => rt
  | some i =>
    if i.busy then rt.setInstance p (i.hold generation work) else rt.launch p i generation work

/-- The in-flight callback returned. A rebuild goes before the retained request. -/
def finishCallback (p : PluginId) (rt : LegacyRuntime) : LegacyRuntime :=
  match rt.inst? p with
  | none => rt
  | some i =>
    if i.running.isSome then rt
    else if i.disabled then rt.setInstance p { i with pending := none, pendingCatalog := false }
    else if i.pendingCatalog then rt.launch p { i with pendingCatalog := false } .zero .catalog
    else
      match i.pending with
      | none => rt
      | some ⟨generation, work⟩ => rt.launch p { i with pending := none } generation work

end LegacyRuntime

/-! ### Queries -/

/-- `should_terminate()` is raised on the callback. -/
def RunningWork.terminated (w : RunningWork) : RunningWork :=
  { w with terminationRequested := true }

/-- The callback runs on, but the query it answers is no longer the current one. -/
def RunningWork.superseded (w : RunningWork) : RunningWork :=
  if w.callback = .onSuggest then w.terminated else w

/-- What a new generation does to every instance. -/
def Instance.begin (i : Instance) : Instance :=
  { i with pending := none, running := i.running.map RunningWork.superseded }

/-- What the retained answer says about a question. -/
def Instance.replay (i : Instance) (key : CacheKey) : Replay :=
  match i.lastAnswer with
  | none => .ask
  | some answer =>
    if answer.key = key then
      if i.cachePolicy.permitsCaching then .serve answer.items else .refuse
    else .ask

namespace LegacyRuntime

def beginGeneration (generation : Generation) (rt : LegacyRuntime) : LegacyRuntime :=
  { rt with
    currentGeneration := generation
    visible := []
    plugins := rt.plugins.mapValues fun record => { record with inst := record.inst.begin } }

/-- Intake for one suggestion request against one plugin: the retained answer first, then the
serial dispatcher. -/
def intakeSuggest (generation : Generation) (query : String) (selected : Option Item)
    (p : PluginId) (rt : LegacyRuntime) : LegacyRuntime × List Event :=
  match rt.inst? p with
  | none => (rt, [])
  | some i =>
    if i.disabled then (rt, [])
    else
      let replay := i.replay ⟨query, selected.map (·.stableId)⟩
      let rt := match replay with
        | .serve items => rt.replaceVisible p items
        | .refuse => rt.enqueue p generation (.suggest query selected)
        | .ask => rt.enqueue p generation (.suggest query selected)
      (rt, [.intake p i.id generation replay])

def intakeAll (generation : Generation) (query : String) (selected : Option Item) :
    List PluginId → LegacyRuntime → LegacyRuntime × List Event
  | [], rt => (rt, [])
  | p :: ps, rt =>
    let (rt, events) := rt.intakeSuggest generation query selected p
    let (rt, rest) := rt.intakeAll generation query selected ps
    (rt, events ++ rest)

/-- A question goes to the owner of the selected item, or to every plugin that is not excluded. -/
def addressees (selected : Option (PluginId × Item)) (rt : LegacyRuntime) : List PluginId :=
  match selected with
  | some (owner, _) => [owner]
  | none => rt.plugins.keys.filter fun p => (rt.inst? p).any fun i => !i.disabled

def question (generation : Generation) (query : String) (selected : Option (PluginId × Item))
    (rt : LegacyRuntime) : LegacyRuntime × List Event :=
  let addressed := rt.addressees selected
  let item := selected.map Prod.snd
  let (rt, events) := rt.intakeAll generation query item addressed
  (rt, .questioned generation ⟨query, item.map (·.stableId)⟩ addressed :: events)

def submitQuery (text : String) (rt : LegacyRuntime) :
    Option (LegacyRuntime × Generation × List Event) :=
  if rt.shutDown then some (rt, rt.currentGeneration, [])
  else do
    let (rt, generation) ← rt.mintGeneration
    let rt := { rt with query := text }.beginGeneration generation
    let (rt, events) := rt.question generation text rt.selected
    some (rt, generation, events)

end LegacyRuntime

inductive LegacyRuntimeError where
  | unknownPlugin (plugin : PluginId)
  | unknownItem (item : ItemId)
  | shuttingDown
deriving DecidableEq, Repr

namespace LegacyRuntime

/-- A selection restarts the argument text. -/
def selectItem (item : ItemId) (rt : LegacyRuntime) :
    Option (LegacyRuntime × Except LegacyRuntimeError Generation × List Event) :=
  if rt.shutDown then some (rt, .error .shuttingDown, [])
  else
    match rt.visible.find? (·.stableId = item) with
    | none => some (rt, .error (.unknownItem item), [])
    | some selected =>
      let owner := selected.pluginId
      if (rt.inst? owner).all fun i => i.disabled then
        some (rt, .error (.unknownPlugin owner), [])
      else do
        let (rt, generation) ←
          { rt with query := "", selected := some (owner, selected) }.mintGeneration
        let (rt, events) :=
          (rt.beginGeneration generation).question generation "" (some (owner, selected))
        some (rt, .ok generation, events)

def clearSelection (rt : LegacyRuntime) : LegacyRuntime := { rt with selected := none }

def catalogRebuild (p : PluginId) (rt : LegacyRuntime) :
    LegacyRuntime × Except LegacyRuntimeError Unit :=
  if rt.shutDown then (rt, .error .shuttingDown)
  else
    match rt.inst? p with
    | none => (rt, .error (.unknownPlugin p))
    | some i => if i.disabled then (rt, .ok ()) else (rt.enqueue p .zero .catalog, .ok ())

/-! ### Instances -/

/-- A fresh instance takes the place of the live one. Requests of the superseded instance that
wait in the outbox never reach the worker; the catalog stays. -/
def supersede (p : PluginId) (id : InstanceId) (profile : SchedulingProfile)
    (compatibility : LegacyCompatibility) (rt : LegacyRuntime) : LegacyRuntime :=
  { rt with
    outbox := rt.outbox.filter fun request => (rt.inst? p).all fun i => request.inst ≠ i.id
    plugins := rt.plugins.insert p
      ⟨profile, compatibility, .new id profile compatibility, rt.catalog p⟩ }

def registerWith (p : PluginId) (profile : SchedulingProfile)
    (compatibility : LegacyCompatibility) (rt : LegacyRuntime) :
    Option (LegacyRuntime × InstanceId × List Event) := do
  let rt := if rt.plugins.contains p then rt.invalidatePluginDisplay p else rt
  let (rt, id) ← rt.mintInstance
  some (rt.supersede p id profile compatibility, id, [.instantiated p id])

def reload (p : PluginId) (rt : LegacyRuntime) :
    Option (LegacyRuntime × Except LegacyRuntimeError InstanceId × List Event) :=
  if rt.shutDown then some (rt, .error .shuttingDown, [])
  else
    match rt.plugins.get? p with
    | none => some (rt, .error (.unknownPlugin p), [])
    | some record => do
      let (rt, id) ← (rt.invalidatePluginDisplay p).mintInstance
      some (rt.supersede p id record.profile record.compatibility, .ok id, [.instantiated p id])

/-! ### Dispatch -/

/-- The one-time `on_start` gets its verdict at the first tick that can run it. -/
def startPlugin (rt : LegacyRuntime) (p : PluginId) : LegacyRuntime :=
  match rt.inst? p with
  | none => rt
  | some i =>
    if i.disabled || !i.queuedStart || i.running.isSome then rt
    else
      { rt.setInstance p { i with
            queuedStart := false
            running := some { generation := .zero, callback := .onStart, key := none } } with
        outbox := rt.outbox ++ [⟨p, i.id, .zero, .start⟩] }

def startAll (rt : LegacyRuntime) : LegacyRuntime := rt.plugins.keys.foldl startPlugin rt

def markDispatched (now : Nat) (p : PluginId) (rt : LegacyRuntime) : LegacyRuntime :=
  match rt.inst? p with
  | none => rt
  | some i =>
    rt.setInstance p
      { i with running := i.running.map fun w => { w with dispatchedAtMs := some now } }

/-- The worker refused the callback: the instance must not stay behind work that never started. -/
def dropRunning (request : LegacyRequest) (rt : LegacyRuntime) : LegacyRuntime :=
  match rt.inst? request.plugin with
  | none => rt
  | some i =>
    rt.setInstance request.plugin (if request.callback = .onStart then
        { i with running := none, disabled := true, pending := none, pendingCatalog := false }
      else { i with running := none })

/-- The loop that empties the outbox. `accepts` lists the worker's verdicts on the dispatches to
come; a refused one can promote retained work, which is dispatched in the same loop. -/
def drain (now : Nat) : Nat → List Bool → LegacyRuntime →
    LegacyRuntime × List (LegacyRequest × Bool)
  | 0, _, rt => (rt, [])
  | fuel + 1, accepts, rt =>
    match rt.outbox with
    | [] => (rt, [])
    | request :: outbox =>
      let accepted := accepts.headD true
      let rt := { rt with outbox }
      let rt :=
        if accepted then rt.markDispatched now request.plugin
        else (rt.dropRunning request).finishCallback request.plugin
      let (rt, offers) := rt.drain now fuel accepts.tail
      (rt, (request, accepted) :: offers)

/-- Rounds the loop of `tick` can take: every waiting request and every retained one. -/
def backlog (rt : LegacyRuntime) : Nat :=
  rt.outbox.length + rt.plugins.sum fun record => record.inst.pendingDepth

end LegacyRuntime

inductive Alarm where
  | softLatencyWarning (plugin : PluginId) (callback : LegacyCallback) (elapsedMs : Nat)
  | hungWorkerSuspected (plugin : PluginId) (callback : LegacyCallback) (elapsedMs : Nat)
deriving DecidableEq, Repr

namespace RunningWork
variable (deadlines : LegacyDeadlines) (now : Nat) (w : RunningWork)

/-- The ladder measures from the boundary crossing. -/
def elapsed : Option Nat := w.dispatchedAtMs.map (now - ·)

def softDue : Bool := !w.softWarned && (w.elapsed now).any (deadlines.softWarningMs ≤ ·)

def hungDue : Bool := !w.hungReported && (w.elapsed now).any (deadlines.hungWorkerMs ≤ ·)

/-- Each rung is reported at most once a callback. -/
def judge : RunningWork :=
  { w with
    softWarned := w.softWarned || w.softDue deadlines now
    hungReported := w.hungReported || w.hungDue deadlines now }

def alarms (p : PluginId) : List Alarm :=
  (if w.softDue deadlines now then
    [.softLatencyWarning p w.callback ((w.elapsed now).getD 0)] else [])
  ++ if w.hungDue deadlines now then
    [.hungWorkerSuspected p w.callback ((w.elapsed now).getD 0)] else []

end RunningWork

namespace LegacyRuntime

/-- The same change to the running work of every instance. -/
def mapRunning (f : RunningWork → RunningWork) (rt : LegacyRuntime) : LegacyRuntime :=
  { rt with
    plugins := rt.plugins.mapValues fun record =>
      { record with inst := { record.inst with running := record.inst.running.map f } } }

def evaluateDeadlines (now : Nat) (rt : LegacyRuntime) : LegacyRuntime × List Alarm :=
  (rt.mapRunning (·.judge rt.deadlines now), rt.plugins.entries.flatMap fun e =>
      (e.2.inst.running.map fun w => w.alarms rt.deadlines now e.1).getD [])

def tick (now : Nat) (accepts : List Bool) (rt : LegacyRuntime) :
    LegacyRuntime × List LegacyRequest × List Alarm × List Event :=
  if rt.shutDown then (rt, [], [], [])
  else
    let rt := rt.startAll
    let (rt, offers) := rt.drain now rt.backlog accepts
    let (rt, alarms) := rt.evaluateDeadlines now
    (rt, (offers.filter (·.2)).map (·.1), alarms, offers.map fun o => .offered o.1 o.2)

end LegacyRuntime

/-! ### Answers -/

inductive Delivery where
  | accepted
  | published (items : Nat)
  | catalogUpdated (total : Nat)
  | rejectedStale (generation current : Generation)
  | rejectedObsoleteInstance (inst current : InstanceId)
  | ignored
deriving DecidableEq, Repr

/-- Only an answer to the callback actually in flight retires it. -/
def RunningWork.answeredBy (w : RunningWork) (response : LegacyResponse) : Bool :=
  w.generation = response.generation && w.callback = response.callback

/-- The instance once its running callback is answered. -/
def Instance.retire (i : Instance) (w : RunningWork) (outcome : LegacyOutcome) : Instance :=
  if w.callback = .onStart then
    if outcome = .failed then
      { i with running := none, disabled := true, pending := none, pendingCatalog := false }
    else { i with running := none, started := true }
  else { i with running := none }

/-- An item of a merge: in place by stable id, or at the end while there is room. -/
def mergeItem (catalog : List Item) (item : Item) : List Item :=
  match catalog.findIdx? (·.stableId = item.stableId) with
  | some index => catalog.set index item
  | none => if catalog.length ≥ maxCatalogItems then catalog else catalog ++ [item]

/-- Retain the key unconditionally, the items only under an opt-in. -/
def Instance.retain (i : Instance) (key : Option CacheKey) (items : List Item) : Instance :=
  match key with
  | none => i
  | some key =>
    { i with lastAnswer := some ⟨key, if i.cachePolicy.permitsCaching then items else []⟩ }

namespace LegacyRuntime

def setRecord (p : PluginId) (record : PluginRecord) (rt : LegacyRuntime) : LegacyRuntime :=
  { rt with plugins := rt.plugins.modify p fun _ => record }

/-- What the answer to the running work `w` of the live instance does, before the instance takes
up its next work. -/
def accept (record : PluginRecord) (w : RunningWork) (response : LegacyResponse)
    (rt : LegacyRuntime) : LegacyRuntime × Delivery :=
  let p := response.plugin
  let i := record.inst.retire w response.outcome
  match response.outcome with
  | .setCatalog items =>
    let catalog := items.take maxCatalogItems
    (rt.setRecord p { record with inst := i, catalog }, .catalogUpdated catalog.length)
  | .mergeCatalog items =>
    let catalog := items.foldl mergeItem record.catalog
    (rt.setRecord p { record with inst := i, catalog }, .catalogUpdated catalog.length)
  | .suggestions items =>
    if response.generation = rt.currentGeneration then
      let items := items.take maxItemsPerPublication
      ((rt.setRecord p { record with inst := i.retain w.key items }).replaceVisible p items,
        .published items.length)
    else
      (rt.setRecord p { record with inst := i },
        .rejectedStale response.generation rt.currentGeneration)
  | _ => (rt.setRecord p { record with inst := i }, .accepted)

def deliver (response : LegacyResponse) (rt : LegacyRuntime) :
    LegacyRuntime × Delivery × List Event :=
  if rt.shutDown then (rt, .ignored, [])
  else
    match rt.plugins.get? response.plugin with
    | none => (rt, .ignored, [])
    | some record =>
      if response.inst ≠ record.inst.id then
        (rt, .rejectedObsoleteInstance response.inst record.inst.id, [])
      else
        match record.inst.running.filter (·.answeredBy response) with
        | none => (rt, .ignored, [])
        | some w =>
          let (rt, delivery) := rt.accept record w response
          (rt.finishCallback response.plugin, delivery, [.answered response])

/-! ### Teardown -/

def shutdown (at' : Nat) (rt : LegacyRuntime) : LegacyRuntime × ShutdownReport × List Event :=
  match rt.shutdownReport with
  | some report => (rt, report, [])
  | none =>
    let abandoned := (rt.plugins.values.filter (·.inst.running.isSome)).length
    let report : ShutdownReport :=
      { requestedAtMs := at'
        completedAtMs := if abandoned = 0 then at' else satAdd at' rt.deadlines.teardownMs
        instances := rt.plugins.keys.length
        abandoned }
    ({ rt.mapRunning RunningWork.terminated with
        outbox := []
        shutDown := true
        shutdownReport := some report },
      report, [.stopped])

end LegacyRuntime

/-! ### The machine -/

inductive Op where
  | registerWith (plugin : PluginId) (profile : SchedulingProfile)
      (compatibility : LegacyCompatibility)
  | submitQuery (text : String)
  | selectItem (item : ItemId)
  | clearSelection
  | catalogRebuild (plugin : PluginId)
  | reload (plugin : PluginId)
  | tick (now : Nat) (accepts : List Bool)
  | deliver (response : LegacyResponse)
  | shutdown (atMs : Nat)
deriving DecidableEq, Repr

inductive Reply where
  | registered (id : InstanceId)
  | generation (generation : Generation)
  | error (error : LegacyRuntimeError)
  | done
  | dispatched (requests : List LegacyRequest) (alarms : List Alarm)
  | delivery (delivery : Delivery)
  | stopped (report : ShutdownReport)
deriving DecidableEq, Repr

def step (rt : LegacyRuntime) : Op → Option (LegacyRuntime × Reply × List Event)
  | .registerWith p profile compatibility => do
    let (rt, id, events) ← rt.registerWith p profile compatibility
    some (rt, .registered id, events)
  | .submitQuery text => do
    let (rt, generation, events) ← rt.submitQuery text
    some (rt, .generation generation, events)
  | .selectItem item => do
    let (rt, result, events) ← rt.selectItem item
    match result with
    | .ok generation => some (rt, .generation generation, events)
    | .error error => some (rt, .error error, events)
  | .clearSelection => some (rt.clearSelection, .done, [])
  | .catalogRebuild p =>
    match rt.catalogRebuild p with
    | (rt, .ok ()) => some (rt, .done, [])
    | (rt, .error error) => some (rt, .error error, [])
  | .reload p => do
    let (rt, result, events) ← rt.reload p
    match result with
    | .ok id => some (rt, .registered id, events)
    | .error error => some (rt, .error error, events)
  | .tick now accepts =>
    let (rt, requests, alarms, events) := rt.tick now accepts
    some (rt, .dispatched requests alarms, events)
  | .deliver response =>
    let (rt, delivery, events) := rt.deliver response
    some (rt, .delivery delivery, events)
  | .shutdown atMs =>
    let (rt, report, events) := rt.shutdown atMs
    some (rt, .stopped report, events)

/-- Everything a run did at the boundaries, in order. -/
def log (tr : List (Op × Reply × List Event)) : List Event := tr.flatMap fun io => io.2.2

/-- A plugin that answered its start. -/
def begun : List Op :=
  let apps : PluginId := ⟨"apps"⟩
  [.registerWith apps .legacyStrict ⟨false⟩, .tick 0 [],
    .deliver ⟨apps, ⟨1⟩, .zero, .onStart, .acknowledged⟩]

end CriKey.Legacy
