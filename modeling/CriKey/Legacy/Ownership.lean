import CriKey.Legacy.Steps

/-! The live catalog of a plugin: who may change it, and how far it grows. -/
namespace CriKey.Legacy
open CriKey.Base CriKey.Core CriKey.Scheduler LegacyRuntime List Option Table

/-- What a catalog update makes of the catalog: a complete list replaces it, a merge upserts by
stable id. Both stop at the cap. -/
def LegacyOutcome.update : LegacyOutcome → Option (List Item → List Item)
  | .setCatalog items => some fun _ => items.take maxCatalogItems
  | .mergeCatalog items =>
    some fun catalog => (upsertAll (·.stableId) catalog items).take maxCatalogItems
  | _ => none

namespace LegacyRuntime

/-- The response retires the running work of the live instance. -/
def retires (response : LegacyResponse) (rt : LegacyRuntime) : Bool :=
  !rt.shutDown && (rt.inst? response.plugin).any fun i =>
    response.inst = i.id && i.running.any (·.answeredBy response)

/-- The response answers an `on_catalog` that the live instance has in flight. -/
def building (response : LegacyResponse) (rt : LegacyRuntime) : Bool :=
  !rt.shutDown && response.callback = .onCatalog && (rt.inst? response.plugin).any fun i =>
    response.inst = i.id && i.running.any fun w =>
      w.answeredBy response && w.dispatchedAtMs.isSome

def published (p : PluginId) (rt : LegacyRuntime) : Op → List Item
  | .deliver response =>
    match response.outcome.update with
    | some update =>
      if response.plugin = p ∧ rt.building response then update (rt.catalog p) else rt.catalog p
    | none => rt.catalog p
  | _ => rt.catalog p

/-- A call leaves the catalogs it is meant to leave, and a catalog update that answers no
`on_catalog` in flight is refused. -/
structure Owned (rt : LegacyRuntime) (op : Op) (reply : Reply) (rt' : LegacyRuntime) : Prop where
  catalog : ∀ p, rt'.catalog p = rt.published p op
  refused : ∀ response, op = .deliver response → response.outcome.update.isSome = true →
    rt.building response = false → ∀ total, reply ≠ .delivery (.catalogUpdated total)

/-! ### The frame -/

def SameCatalogs (rt rt' : LegacyRuntime) : Prop := ∀ p, rt'.catalog p = rt.catalog p

variable {rt rt₁ rt₂ rt' : LegacyRuntime} {p : PluginId} {i : Instance}

lemma SameCatalogs.refl : SameCatalogs rt rt := fun _ => rfl

lemma SameCatalogs.trans (h : SameCatalogs rt rt₁) (h' : SameCatalogs rt₁ rt₂) :
    SameCatalogs rt rt₂ := fun p => (h' p).trans (h p)

variable {record : PluginRecord}

lemma catalog_setRecord {record' : PluginRecord} (h : rt.plugins.get? p = some record)
    (q : PluginId) : (rt.setRecord p record').catalog q =
      if q = p then record'.catalog else rt.catalog q := by
  rw [catalog, setRecord, get?_modify]
  split
  case isTrue hq =>
    rw [hq, h]
    rfl
  case isFalse => rfl

lemma catalog_setInstance (i : Instance) : SameCatalogs rt (rt.setInstance p i) := by
  intro q
  rw [catalog, setInstance, get?_modify]
  split
  · rw [Option.map_map]
    rfl
  · rfl

lemma catalog_enqueue (g : Generation) (work : WorkKind) :
    SameCatalogs rt (rt.enqueue p g work) := by
  unfold enqueue
  split
  · exact .refl
  · split <;> exact catalog_setInstance _

lemma catalog_mapValues {f : PluginRecord → PluginRecord} (hf : ∀ r, (f r).catalog = r.catalog) :
    SameCatalogs rt { rt with plugins := rt.plugins.mapValues f } := by
  intro q
  rw [catalog, get?_mapValues, Option.map_map]
  congr 2
  funext r
  exact hf r

lemma catalog_mapRunning (f : RunningWork → RunningWork) : SameCatalogs rt (rt.mapRunning f) :=
  catalog_mapValues fun _ => rfl

lemma catalog_beginGeneration (g : Generation) : SameCatalogs rt (rt.beginGeneration g) := by
  have hmap : SameCatalogs rt
      { rt with plugins := rt.plugins.mapValues fun r => { r with inst := r.inst.begin } } :=
    catalog_mapValues fun _ => rfl
  exact hmap

variable (g : Generation) (query : String)

lemma catalog_intakeSuggest (selected : Option Item) :
    SameCatalogs rt (rt.intakeSuggest g query selected p).1 := by
  unfold intakeSuggest
  split
  · exact .refl
  case h_2 i hi =>
    split
    · exact .refl
    · cases i.replay ⟨query, selected.map (·.stableId)⟩ with
      | serve items => exact fun _ => rfl
      | refuse | ask => exact catalog_enqueue _ _

lemma catalog_intakeAll (selected : Option Item)
    (ps : List PluginId) : SameCatalogs rt (rt.intakeAll g query selected ps).1 := by
  induction ps generalizing rt with
  | nil => exact .refl
  | cons p ps ih =>
    have hfirst : SameCatalogs rt (rt.intakeSuggest g query selected p).1 :=
      catalog_intakeSuggest g query selected
    exact hfirst.trans ih

lemma catalog_question (owner : Option (PluginId × Item)) :
    SameCatalogs rt (rt.question g query owner).1 := catalog_intakeAll _ _ _ _

variable {events : List Event}

lemma catalog_supersede (id : InstanceId) (profile : SchedulingProfile)
    (compatibility : LegacyCompatibility) :
    SameCatalogs rt (rt.supersede p id profile compatibility) := by
  intro q
  rw [catalog, supersede, get?_insert]
  split
  case isTrue hq =>
    rw [hq]
    rfl
  case isFalse => rfl

lemma catalog_edits (h : Edits rt rt') : SameCatalogs rt rt' := by
  induction h with
  | refl => exact .refl
  | tail _ hedit ih =>
    refine ih.trans ?_
    cases hedit with
    | keep | push => exact catalog_setInstance _
    | flags f => exact catalog_mapRunning f
    | pop => exact fun _ => rfl

lemma catalog_shutdown (atMs : Nat) : SameCatalogs rt (rt.shutdown atMs).1 := by
  unfold shutdown
  split
  · exact .refl
  · exact catalog_mapRunning _

lemma catalog_step {op : Op} {reply : Reply} (hop : ∀ response, op ≠ .deliver response)
    (hstep : step rt op = some (rt', reply, events)) : SameCatalogs rt rt' := by
  cases step_called hstep with
  | refused => exact .refl
  | @asked _ g owner text =>
    have hbegin : SameCatalogs rt ({ rt with
        selected := owner
        query := text
        nextGeneration := g.get }.beginGeneration g) := catalog_beginGeneration g
    exact hbegin.trans (catalog_question _ _ _)
  | @replaced _ _ id visible selected profile compatibility =>
    have hsame : SameCatalogs rt { rt with nextInstance := id.get, visible, selected } :=
      fun _ => rfl
    exact hsame.trans (catalog_supersede id profile compatibility)
  | cleared => exact fun _ => rfl
  | rebuilt p => exact catalog_edits catalogRebuild_edits
  | ticked now accepts => exact catalog_edits (tick_edits now accepts).1
  | delivered response => exact absurd rfl (hop response)
  | stopped atMs => exact catalog_shutdown atMs

/-! ### Answers -/

lemma mergeItem_take (catalog : List Item) (item : Item) :
    mergeItem (catalog.take maxCatalogItems) item =
      (upsert (·.stableId) item catalog).take maxCatalogItems := by
  rw [take_upsert, mergeItem]
  split
  case h_1 index hindex =>
    have hmem : item.stableId ∈ (catalog.take maxCatalogItems).map (·.stableId) := by
      have hsome : ((catalog.take maxCatalogItems).findIdx? (·.stableId = item.stableId)).isSome :=
        hindex ▸ rfl
      rw [List.findIdx?_isSome, List.any_eq_true] at hsome
      obtain ⟨known, hknown, heq⟩ := hsome
      exact mem_map.mpr ⟨known, hknown, of_decide_eq_true heq⟩
    rw [if_pos hmem, upsert_of_findIdx? hindex]
  case h_2 hnone =>
    have hmem : item.stableId ∉ (catalog.take maxCatalogItems).map (·.stableId) := by
      rw [findIdx?_eq_none_iff] at hnone
      intro hmem
      obtain ⟨known, hknown, heq⟩ := mem_map.mp hmem
      exact of_decide_eq_false (hnone known hknown) heq
    rw [if_neg hmem, length_take]
    simp only [le_min_iff, le_refl, true_and]

lemma foldl_mergeItem (catalog items : List Item) :
    items.foldl mergeItem (catalog.take maxCatalogItems) =
      (upsertAll (·.stableId) catalog items).take maxCatalogItems := by
  induction items generalizing catalog with
  | nil => rfl
  | cons item items ih =>
    rw [foldl_cons, mergeItem_take, ih]
    rfl

lemma length_update {outcome : LegacyOutcome} {update : List Item → List Item}
    (h : outcome.update = some update) (catalog : List Item) :
    (update catalog).length ≤ maxCatalogItems := by
  cases outcome <;> cases h <;> exact length_take_le _ _

variable {response : LegacyResponse}

lemma catalog_accept {w : RunningWork} (hget : rt.plugins.get? response.plugin = some record)
    (hcap : record.catalog.length ≤ maxCatalogItems) (q : PluginId) :
    (rt.accept record w response).1.catalog q =
      if q = response.plugin then (response.outcome.update.getD id) record.catalog
      else rt.catalog q := by
  have hset : ∀ r : PluginRecord, (rt.setRecord response.plugin r).catalog q =
      if q = response.plugin then r.catalog else rt.catalog q :=
    fun r => catalog_setRecord hget q
  have hmerge : ∀ items : List Item, items.foldl mergeItem record.catalog =
      (upsertAll (·.stableId) record.catalog items).take maxCatalogItems := by
    intro items
    rw [← foldl_mergeItem, take_of_length_le hcap]
  cases hout : response.outcome with
  | suggestions items =>
    by_cases hg : response.generation = rt.currentGeneration
    · simp only [accept, hout, hg]
      exact hset _
    · simp only [accept, hout, hg]
      exact hset _
  | mergeCatalog items =>
    simp only [accept, hout, hmerge]
    exact hset _
  | _ =>
    simp only [accept, hout]
    exact hset _

lemma retires_of_building (h : rt.building response = true) : rt.retires response = true := by
  simp only [building, Bool.and_eq_true, Option.any_eq_true] at h
  obtain ⟨⟨hlive, -⟩, i, hi, hid, w, hw, hb, -⟩ := h
  simp only [retires, Bool.and_eq_true, Option.any_eq_true]
  exact ⟨hlive, i, hi, hid, w, hw, hb⟩

lemma deliver_of_not_retires (h : rt.retires response = false) :
    (rt.deliver response).1 = rt ∧ ∀ total, (rt.deliver response).2.1 ≠ .catalogUpdated total := by
  unfold deliver
  split
  · exact ⟨rfl, by simp⟩
  case isFalse hno =>
    split
    · exact ⟨rfl, by simp⟩
    case h_2 record hget =>
      split
      · exact ⟨rfl, by simp⟩
      case isFalse hinst =>
        split
        · exact ⟨rfl, by simp⟩
        case h_2 w hfilter =>
          obtain ⟨hw, hb⟩ := filter_eq_some_iff.mp hfilter
          have hid : response.inst = record.inst.id := by simpa using hinst
          simp [retires, hno, inst?_of_get? hget, hid, hw, hb] at h

lemma deliver_of_retires (h : rt.retires response = true) :
    ∃ record w, rt.plugins.get? response.plugin = some record ∧ (rt.deliver response).1 =
        (rt.accept record w response).1.finishCallback response.plugin ∧
      (rt.deliver response).2.1 = (rt.accept record w response).2 := by
  simp only [retires, Bool.and_eq_true, Bool.not_eq_true', Option.any_eq_true,
    decide_eq_true_eq] at h
  obtain ⟨hlive, i, hi, hid, w, hw, hb⟩ := h
  obtain ⟨record, hget, rfl⟩ := map_eq_some_iff.mp hi
  have hfilter : record.inst.running.filter (·.answeredBy response) = some w :=
    filter_eq_some_iff.mpr ⟨hw, hb⟩
  refine ⟨record, w, hget, ?_, ?_⟩ <;> simp [deliver, hlive, hget, hid, hfilter]

lemma accept_catalogUpdated {w : RunningWork} (h : response.outcome.update.isSome = true) :
    ∃ total, (rt.accept record w response).2 = .catalogUpdated total := by
  cases hout : response.outcome with
  | setCatalog items =>
    refine ⟨(items.take maxCatalogItems).length, ?_⟩
    simp only [accept, hout]
  | mergeCatalog items =>
    refine ⟨(items.foldl mergeItem record.catalog).length, ?_⟩
    simp only [accept, hout]
  | _ => simp [hout, LegacyOutcome.update] at h

lemma catalog_deliver (hcap : ∀ p, (rt.catalog p).length ≤ maxCatalogItems)
    (response : LegacyResponse) (q : PluginId) : (rt.deliver response).1.catalog q =
      if q = response.plugin ∧ rt.retires response = true then
        (response.outcome.update.getD id) (rt.catalog q)
      else rt.catalog q := by
  cases hretires : rt.retires response with
  | false => simp [(deliver_of_not_retires hretires).1]
  | true =>
    obtain ⟨record, w, hget, hrt, -⟩ := deliver_of_retires hretires
    have hcatalog : rt.catalog response.plugin = record.catalog := by rw [catalog, hget]; rfl
    rw [hrt, (catalog_edits finishCallback_edits), catalog_accept hget (hcatalog ▸ hcap _)]
    split
    case isTrue hq => rw [if_pos ⟨hq, rfl⟩, hq, hcatalog]
    case isFalse hq => rw [if_neg fun h => hq h.1]

end LegacyRuntime

/-! ### Runs -/

/-- A catalog update that retires a callback answers an `on_catalog` in flight. -/
def Built (rt : LegacyRuntime) : Op → Prop
  | .deliver response => response.outcome.update.isSome = true → rt.retires response = true →
      rt.building response = true
  | _ => True

namespace LegacyRuntime
variable {rt rt' : LegacyRuntime} {op : Op} {reply : Reply} {events : List Event}

variable (hcap : ∀ p, (rt.catalog p).length ≤ maxCatalogItems)
include hcap

lemma capped_step (hstep : step rt op = some (rt', reply, events)) (p : PluginId) :
    (rt'.catalog p).length ≤ maxCatalogItems := by
  by_cases hop : ∃ response, op = .deliver response
  · obtain ⟨response, rfl⟩ := hop
    simp only [step, some.injEq, Prod.mk.injEq] at hstep
    rw [← hstep.1, catalog_deliver hcap]
    split
    · cases hupdate : response.outcome.update with
      | none => exact hcap p
      | some update => exact length_update hupdate _
    · exact hcap p
  · rw [catalog_step (fun response heq => hop ⟨response, heq⟩) hstep p]
    exact hcap p

lemma owned_deliver (response : LegacyResponse) : Built rt (.deliver response) ↔
      rt.Owned (.deliver response) (.delivery (rt.deliver response).2.1)
        (rt.deliver response).1 := by
  cases hupdate : response.outcome.update with
  | none =>
    refine ⟨fun _ => ⟨fun p => ?_, ?_⟩, fun _ hsome => by simp [hupdate] at hsome⟩
    · rw [catalog_deliver hcap, published, hupdate]
      split <;> rfl
    · intro r heq hsome
      cases heq
      simp [hupdate] at hsome
  | some update =>
    have hsome : response.outcome.update.isSome = true := hupdate ▸ rfl
    constructor
    · intro hbuilt
      have hiff : rt.retires response = true ↔ rt.building response = true :=
        ⟨hbuilt hsome, retires_of_building⟩
      refine ⟨fun p => ?_, fun r heq _ hnot total => ?_⟩
      · rw [catalog_deliver hcap, published, hupdate]
        simp only [hiff, getD_some, eq_comm]
      · cases heq
        have hretires : rt.retires response = false := by
          cases h : rt.retires response with
          | false => rfl
          | true => simp [hiff.mp h] at hnot
        exact fun heq => (deliver_of_not_retires hretires).2 total (Reply.delivery.inj heq)
    · intro howned _ hretires
      cases hbuilding : rt.building response with
      | true => rfl
      | false =>
        obtain ⟨record, w, -, -, hreply⟩ := deliver_of_retires hretires
        obtain ⟨total, htotal⟩ := accept_catalogUpdated hsome
        refine absurd ?_ (howned.refused response rfl hsome hbuilding total)
        rw [hreply, htotal]

lemma owned_step
    (hstep : step rt op = some (rt', reply, events)) : Built rt op ↔ rt.Owned op reply rt' := by
  by_cases hop : ∃ response, op = .deliver response
  · obtain ⟨response, rfl⟩ := hop
    cases hstep
    exact owned_deliver hcap response
  · have hsame := catalog_step (fun response heq => hop ⟨response, heq⟩) hstep
    have hbuilt : Built rt op := by
      cases op with
      | deliver response => exact absurd ⟨response, rfl⟩ hop
      | _ => trivial
    refine iff_of_true hbuilt ⟨fun p => ?_, fun response heq => absurd ⟨response, heq⟩ hop⟩
    rw [hsame]
    cases op with
    | deliver response => exact absurd ⟨response, rfl⟩ hop
    | _ => rfl

end LegacyRuntime

/-- After every run the catalogs are within the cap, and the next call, whatever is delivered,
changes them as it is meant to and refuses every other update exactly when a catalog update that
retires a callback answers an `on_catalog` in flight. -/
theorem catalog_owned {deadlines : LegacyDeadlines} {tr : List (Op × Reply × List Event)}
    {rt : LegacyRuntime} (h : Exec step (.new deadlines) tr rt) :
    (∀ p, (rt.catalog p).length ≤ maxCatalogItems) ∧
      ∀ op rt' reply events, step rt op = some (rt', reply, events) →
        (Built rt op ↔ rt.Owned op reply rt') := by
  have hcap : ∀ p, (rt.catalog p).length ≤ maxCatalogItems := by
    refine Exec.invariant (fun _ rt => ∀ p, (rt.catalog p).length ≤ maxCatalogItems) ?_ ?_ h
    · simp [catalog, new]
    · intro tr rt op rt' o _ hcap hstep
      exact capped_step hcap hstep
  exact ⟨hcap, fun op rt' reply events hstep => owned_step hcap hstep⟩

/-- An item no catalog build produced. -/
def stray : Item where
  stableId := ⟨"stray"⟩
  pluginId := ⟨"apps"⟩
  category := .command
  label := "Stray"
  description := ""
  target := ""
  searchTerms := []
  iconReference := none
  argumentPolicy := .forbidden
  hitPolicy := .recorded
  scoreHint := 0
  metadata := []
  actions := []

theorem catalog_owned_merge : ∃ tr rt, Exec step (.new ⟨5000, 120000, 2000⟩) tr rt ∧
      rt.building ⟨⟨"apps"⟩, ⟨1⟩, .zero, .onCatalog, .mergeCatalog [stray]⟩ = true ∧
      rt.Owned (.deliver ⟨⟨"apps"⟩, ⟨1⟩, .zero, .onCatalog, .mergeCatalog [stray]⟩)
        (.delivery (rt.deliver ⟨⟨"apps"⟩, ⟨1⟩, .zero, .onCatalog, .mergeCatalog [stray]⟩).2.1)
        (rt.deliver ⟨⟨"apps"⟩, ⟨1⟩, .zero, .onCatalog, .mergeCatalog [stray]⟩).1 := by
  obtain ⟨rt, tr, hrun, hbuilding⟩ := run_of_eval step (.new ⟨5000, 120000, 2000⟩)
    (begun ++ [.catalogRebuild ⟨"apps"⟩, .tick 1 []])
    (fun rt _ => rt.building ⟨⟨"apps"⟩, ⟨1⟩, .zero, .onCatalog, .mergeCatalog [stray]⟩ = true)
    (by decide +kernel)
  have hexec := (exec_of_run hrun).1
  exact ⟨tr, rt, hexec, hbuilding, ((catalog_owned hexec).2 _ _ _ _ rfl).mp fun _ _ => hbuilding⟩

/-- The answer to a query replaces the catalog although no `on_catalog` was ever asked for. -/
theorem query_answer_replaces_catalog : ∃ tr rt, Exec step (.new ⟨5000, 120000, 2000⟩) tr rt ∧
      tr.map Prod.fst = begun ++ [.submitQuery "a", .tick 1 []] ∧ rt.catalog ⟨"apps"⟩ = [] ∧
      (rt.deliver ⟨⟨"apps"⟩, ⟨1⟩, ⟨1⟩, .onSuggest, .setCatalog [stray]⟩).2.1 = .catalogUpdated 1 ∧
      (rt.deliver ⟨⟨"apps"⟩, ⟨1⟩, ⟨1⟩, .onSuggest, .setCatalog [stray]⟩).1.catalog ⟨"apps"⟩ =
        [stray] ∧
      rt.building ⟨⟨"apps"⟩, ⟨1⟩, ⟨1⟩, .onSuggest, .setCatalog [stray]⟩ = false :=
  exec_of_eval (by decide +kernel)

end CriKey.Legacy
