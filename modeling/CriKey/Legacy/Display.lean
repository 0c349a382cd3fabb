import CriKey.Legacy.Queries

/-! What is displayed answers the newest question: every visible item was published for the
current generation by the live instance of its plugin, or is that instance's retained answer to
the same query and selection. -/
namespace CriKey.Legacy
open CriKey.Base CriKey.Core CriKey.Scheduler LegacyRuntime List Option Instance

def LegacyOutcome.suggested : LegacyOutcome → Option (List Item)
  | .suggestions items => some (items.take maxItemsPerPublication)
  | _ => none

/-- What the latest suggestions of an instance for a generation published. -/
def latest (past : List Event) (id : InstanceId) (g : Generation) : Option (List Item) :=
  past.foldl (fun found e =>
    match e with
    | .answered response =>
      if response.inst = id ∧ response.generation = g then response.outcome.suggested.or found
      else found
    | _ => found) none

/-- The instance once gave this answer to this query and selection. -/
def Gave (past : List Event) (p : PluginId) (id : InstanceId) (answer : RetainedAnswer) : Prop :=
  ∃ response addressed, .answered response ∈ past ∧ response.plugin = p ∧ response.inst = id ∧
    response.outcome.suggested = some answer.items ∧
    .questioned response.generation answer.key addressed ∈ past

/-- Where a displayed item of the instance `i` of `p` comes from. -/
inductive Shown (past : List Event) (p : PluginId) (g : Generation) (i : Instance) (item : Item) :
    Prop
  | published {items : List Item} : latest past i.id g = some items → item ∈ items →
      Shown past p g i item
  | replayed {answer : RetainedAnswer} : i.cachePolicy.permitsCaching = true →
      i.lastAnswer = some answer → (newest past).key = some answer.key → item ∈ answer.items →
      Gave past p i.id answer → Shown past p g i item

/-- The published items carry the id of the responding plugin. -/
def LegacyResponse.Signed (response : LegacyResponse) : Prop :=
  ∀ items ∈ response.outcome.suggested, ∀ item ∈ items, item.pluginId = response.plugin

instance (response : LegacyResponse) : Decidable response.Signed :=
  inferInstanceAs
    (Decidable (∀ items ∈ response.outcome.suggested,
      ∀ item ∈ items, item.pluginId = response.plugin))

/-! ### The past -/

section Past
variable {past es : List Event} {p : PluginId} {id : InstanceId} {g : Generation}
  {answer : RetainedAnswer}

lemma latest_concat_of_ne {e : Event} (h : ∀ response, e = .answered response →
    response.inst ≠ id ∨ response.generation ≠ g ∨ response.outcome.suggested = none) :
    latest (past ++ [e]) id g = latest past id g := by
  rw [latest, foldl_append]
  cases e with
  | answered response =>
    simp only [foldl_cons]
    split
    case isTrue hboth =>
      obtain hid | hg | hnone := h response rfl
      · exact absurd hboth.1 hid
      · exact absurd hboth.2 hg
      · rw [hnone]
        rfl
    case isFalse => rfl
  | _ => rfl

lemma latest_concat_answered {response : LegacyResponse} {items : List Item}
    (hid : response.inst = id) (hg : response.generation = g)
    (hout : response.outcome.suggested = some items) :
    latest (past ++ [.answered response]) id g = some items := by
  rw [latest, foldl_append]
  simp only [foldl_cons, foldl_nil, hid, hg, and_self, if_true, hout, some_or]

lemma Gave.append (h : Gave past p id answer) : Gave (past ++ es) p id answer := by
  obtain ⟨response, addressed, hmem, hp, hid, hout, hquestion⟩ := h
  exact ⟨response, addressed, mem_append_left _ hmem, hp, hid, hout, mem_append_left _ hquestion⟩

lemma Shown.append {i j : Instance} {item : Item} (h : Shown past p g i item)
    (hid : j.id = i.id) (hpolicy : j.cachePolicy = i.cachePolicy)
    (hanswer : j.lastAnswer = i.lastAnswer)
    (hlatest : latest (past ++ es) i.id g = latest past i.id g)
    (hkey : (newest (past ++ es)).key = (newest past).key) : Shown (past ++ es) p g j item := by
  cases h with
  | published hfound hitem => exact .published (by rw [hid, hlatest, hfound]) hitem
  | replayed hpermits hretained hquestion hitem hgave =>
    exact .replayed (hpolicy ▸ hpermits) (hanswer ▸ hretained) (hkey ▸ hquestion) hitem
      (hid ▸ hgave.append)

lemma Shown.same {i j : Instance} {item : Item} (h : Shown past p g i item)
    (hid : j.id = i.id) (hpolicy : j.cachePolicy = i.cachePolicy)
    (hanswer : j.lastAnswer = i.lastAnswer) : Shown past p g j item := by
  have hsame : Shown (past ++ []) p g j item := h.append hid hpolicy hanswer (by simp) (by simp)
  rwa [append_nil] at hsame

end Past

/-! ### Provenance -/

def Asked (past : List Event) (g : Generation) (key : CacheKey) : Prop :=
  ∃ addressed, .questioned g key addressed ∈ past

variable {past es : List Event}

lemma Asked.append {g : Generation} {key : CacheKey} (h : Asked past g key) :
    Asked (past ++ es) g key := by
  obtain ⟨addressed, hmem⟩ := h
  exact ⟨addressed, mem_append_left _ hmem⟩

/-- Whatever an instance runs, retains or remembers goes back to a question. -/
structure Instance.Sourced (past : List Event) (p : PluginId) (i : Instance) : Prop where
  running : ∀ w, i.running = some w → ∀ key, w.key = some key → Asked past w.generation key
  pending : ∀ w, i.pending = some w → ∀ key, w.work.cacheKey = some key →
    Asked past w.generation key
  answer : i.cachePolicy.permitsCaching = true → ∀ answer, i.lastAnswer = some answer →
    Gave past p i.id answer

lemma Instance.Sourced.append {p : PluginId} {i : Instance} (h : i.Sourced past p) :
    i.Sourced (past ++ es) p where
  running := fun w hw key hkey => (h.running w hw key hkey).append
  pending := fun w hw key hkey => (h.pending w hw key hkey).append
  answer := fun hpermits answer hanswer => (h.answer hpermits answer hanswer).append

structure Provenance (past : List Event) (rt : LegacyRuntime) : Prop where
  sourced : ∀ p i, rt.inst? p = some i → i.Sourced past p
  shown : ∀ item ∈ rt.visible, ∃ i, rt.inst? item.pluginId = some i ∧
    Shown past item.pluginId rt.currentGeneration i item

lemma provenance_new (deadlines : LegacyDeadlines) : Provenance [] (.new deadlines) where
  sourced := fun p i h => absurd h (by simp [inst?, LegacyRuntime.new])
  shown := fun item h => absurd h (by simp [LegacyRuntime.new])

namespace Provenance
variable {past : List Event} {rt rt' : LegacyRuntime} {p : PluginId} {i j : Instance}

lemma silent (h : Provenance past rt) (hp : rt.inst? p = some i) (hview : Replaces rt p j rt')
    (hcurrent : rt'.currentGeneration = rt.currentGeneration) (hvisible : rt'.visible = rt.visible)
    (hid : j.id = i.id) (hpolicy : j.cachePolicy = i.cachePolicy)
    (hanswer : j.lastAnswer = i.lastAnswer)
    (hrunning : ∀ w, j.running = some w → ∀ key, w.key = some key → Asked past w.generation key)
    (hpending : ∀ w, j.pending = some w → i.pending = some w) : Provenance past rt' where
  sourced := by
    intro q k hk
    rw [hview] at hk
    split at hk
    case isTrue hq =>
      cases hk
      have hi := h.sourced p i hp
      rw [hq]
      exact ⟨hrunning, fun w hw => hi.pending w (hpending w hw),
        fun hpermits answer heq => hid ▸ hi.answer (hpolicy ▸ hpermits) answer (hanswer ▸ heq)⟩
    case isFalse => exact h.sourced q k hk
  shown := by
    intro item hitem
    rw [hvisible] at hitem
    obtain ⟨k, hk, hshown⟩ := h.shown item hitem
    rw [hview, hcurrent]
    split
    case isTrue hq =>
      rw [hq, hp, some_inj] at hk
      exact ⟨j, rfl, (hk ▸ hshown).same hid hpolicy hanswer⟩
    case isFalse => exact ⟨k, hk, hshown⟩

lemma concat {e : Event} (h : Provenance past rt) (hplain : e.plain = true)
    (hanswer : ∀ response, e ≠ .answered response) : Provenance (past ++ [e]) rt where
  sourced := fun p i hi => (h.sourced p i hi).append
  shown := by
    intro item hitem
    obtain ⟨i, hi, hshown⟩ := h.shown item hitem
    refine ⟨i, hi, hshown.append rfl rfl rfl ?_ ?_⟩
    · exact latest_concat_of_ne fun response heq => absurd heq (hanswer response)
    · rw [newest_append_of_plain (by simpa using hplain)]

end Provenance

namespace Instance
variable {i : Instance} {p : PluginId} {addressed : List PluginId} {g now : Generation}
  {query : String} {selected : Option Item} {w : RunningWork}

lemma replay_eq_serve {key : CacheKey} {items : List Item} (h : i.replay key = .serve items) :
    i.cachePolicy.permitsCaching = true ∧ i.lastAnswer = some ⟨key, items⟩ := by
  unfold replay at h
  split at h
  · cases h
  case h_2 answer hanswer =>
    split at h
    case isTrue hkey =>
      split at h
      case isTrue hpermits =>
        cases h
        exact ⟨hpermits, hanswer.trans (by rw [← hkey])⟩
      case isFalse => cases h
    case isFalse => cases h

variable {response : LegacyResponse} {j : Instance}

lemma pending_of_kept (h : j.pending = i.pending ∨ j.disabled = true ∧ j.pending = none)
    (v : PendingWork) (hv : j.pending = some v) : i.pending = some v := by
  cases h with
  | inl hsame => exact hsame ▸ hv
  | inr hnone => exact absurd (hnone.2.symm.trans hv) nofun

lemma settle_eq_retire (h : response.outcome.suggested = none ∨ response.generation ≠ now) :
    i.settle w response now = i.retire w response.outcome := by
  unfold settle
  split
  case h_1 items hout =>
    cases h with
    | inl hnone => simp [hout, LegacyOutcome.suggested] at hnone
    | inr hg => rw [if_neg hg]
  case h_2 => rfl

/-- What is retained once the running work is settled was there before or is its answer. -/
lemma settle_lastAnswer {answer : RetainedAnswer} (hpermits : i.cachePolicy.permitsCaching = true)
    (h : (i.settle w response now).lastAnswer = some answer) :
    i.lastAnswer = some answer ∨ ∃ items key, response.outcome.suggested = some items ∧
      response.generation = now ∧ w.key = some key ∧ answer = ⟨key, items⟩ := by
  have hretire := (retire_frame (i := i) (w := w) response.outcome).2.2.2
  unfold settle at h
  split at h
  case h_1 items hout =>
    split at h
    case isTrue hg =>
      cases hkey : w.key with
      | none =>
        rw [hkey] at h
        exact .inl (hretire.2 ▸ h)
      | some key =>
        simp only [hkey, retain, hretire.1, hpermits, if_true, some_inj] at h
        exact .inr ⟨_, key, congrArg LegacyOutcome.suggested hout, hg, rfl, h.symm⟩
    case isFalse => exact .inl (hretire.2 ▸ h)
  case h_2 => exact .inl (hretire.2 ▸ h)

end Instance

namespace LegacyRuntime
variable {rt : LegacyRuntime} {record : PluginRecord} {w : RunningWork} {response : LegacyResponse}

lemma accept_visible_same
    (h : response.outcome.suggested = none ∨ response.generation ≠ rt.currentGeneration) :
    (rt.accept record w response).1.visible = rt.visible := by
  unfold accept
  split
  · rfl
  · rfl
  case h_3 items hout =>
    cases h with
    | inl hnone => simp [hout, LegacyOutcome.suggested] at hnone
    | inr hg =>
      rw [if_neg hg]
      rfl
  · rfl

lemma accept_visible_published {items : List Item} (hout : response.outcome.suggested = some items)
    (hg : response.generation = rt.currentGeneration) : (rt.accept record w response).1.visible =
      rt.visible.filter (·.pluginId ≠ response.plugin) ++ items := by
  cases hcase : response.outcome with
  | suggestions all =>
    rw [hcase] at hout
    cases hout
    simp only [accept, hcase, hg]
    rfl
  | _ =>
    rw [hcase] at hout
    cases hout

end LegacyRuntime

namespace Provenance
variable {past : List Event} {rt rt' : LegacyRuntime}

lemma instantiate {p : PluginId} {id : InstanceId} {visible : List Item}
    {selected : Option (PluginId × Item)} {profile : SchedulingProfile}
    {compatibility : LegacyCompatibility} (h : Provenance past rt)
    (hvis : ∀ item ∈ visible, item ∈ rt.visible ∧ ((rt.inst? p).isSome → item.pluginId ≠ p)) :
    Provenance (past ++ [.instantiated p id])
      ({ rt with nextInstance := id.get, visible, selected }.supersede p id profile
        compatibility) where
  sourced := by
    intro q i hi
    rw [inst?_supersede] at hi
    split at hi
    · cases hi
      exact ⟨fun w hw => (by cases hw), fun w hw => (by cases hw), fun _ answer ha => (by cases ha)⟩
    · exact (h.sourced q i hi).append
  shown := by
    intro item hitem
    obtain ⟨hold, hne⟩ := hvis item hitem
    obtain ⟨i, hi, hshown⟩ := h.shown item hold
    have hp : item.pluginId ≠ p := fun heq => hne (by rw [← heq, hi]; rfl) heq
    refine ⟨i, by rw [inst?_supersede, if_neg hp]; exact hi, ?_⟩
    refine hshown.append rfl rfl rfl (latest_concat_of_ne fun response heq => by cases heq) ?_
    rw [newest_append]
    rfl

lemma ask {g : Generation} {query : String} {selected : Option Item} {addressed : List PluginId}
    (h : Provenance past rt) (hsigned : ∀ response, .answered response ∈ past → response.Signed)
    (hk : Keystroke g query selected addressed rt rt') :
    Provenance (past ++ questionEvents g query selected addressed rt) rt' where
  sourced := by
    intro p j hj
    rw [hk.inst] at hj
    obtain ⟨i, hi, rfl⟩ := map_eq_some_iff.mp hj
    have hsourced := h.sourced p i hi
    have hasked : Asked (past ++ questionEvents g query selected addressed rt) g
        ⟨query, selected.map (·.stableId)⟩ :=
      ⟨addressed, mem_append_right _ mem_cons_self⟩
    refine ⟨?_, ?_, ?_⟩
    · intro w hw key hkey
      cases struck_cases i p addressed g query selected with
      | inl hsame =>
        rw [hsame] at hw
        obtain ⟨v, hv, rfl⟩ := map_eq_some_iff.mp hw
        rw [faithful_superseded.key] at hkey
        rw [faithful_superseded.generation]
        exact (hsourced.running v hv key hkey).append
      | inr hnew =>
        rw [hnew.2] at hw
        cases hw
        cases hkey
        exact hasked
    · intro w hw key hkey
      rw [(struck_pending hw).2] at hkey ⊢
      cases hkey
      exact hasked
    · intro hpermits answer heq
      simp only [struck_frame] at hpermits heq ⊢
      exact (hsourced.answer hpermits answer heq).append
  shown := by
    intro item hitem
    obtain ⟨p, -, i, items, hi, -, hserve, hmem⟩ := hk.visible item hitem
    obtain ⟨hpermits, hanswer⟩ := replay_eq_serve hserve
    have hgave := (h.sourced p i hi).answer hpermits _ hanswer
    have hplugin : item.pluginId = p := by
      obtain ⟨response, -, hresponse, rfl, -, hout, -⟩ := hgave
      exact hsigned response hresponse items hout item hmem
    rw [hplugin]
    refine ⟨i.struck p addressed g query selected, by rw [hk.inst, hi]; rfl, ?_⟩
    refine .replayed (by simpa using hpermits) (by simpa using hanswer) ?_ hmem ?_
    · rw [newest_questionEvents]
    · rw [struck_frame.1]
      exact hgave.append

lemma answer {response : LegacyResponse} {record : PluginRecord} {w : RunningWork}
    (h : Provenance past rt) (hs : Serial rt) (hsigned : response.Signed)
    (hget : rt.plugins.get? response.plugin = some record) (hinst : response.inst = record.inst.id)
    (hw : record.inst.running = some w) (hb : w.answeredBy response = true) :
    Provenance (past ++ [.answered response]) (rt.accept record w response).1 := by
  have hi := inst?_of_get? hget
  have hview : ∀ q, (rt.accept record w response).1.inst? q =
      if q = response.plugin then some (record.inst.settle w response rt.currentGeneration)
      else rt.inst? q := inst?_accept hget
  obtain ⟨-, -, hcurrent, -, -⟩ := accept_rest rt record w response
  obtain ⟨hgen, -⟩ := RunningWork.answeredBy_iff.mp hb
  have hsourced := h.sourced _ _ hi
  have hkey : (newest (past ++ [.answered response])).key = (newest past).key := by
    rw [newest_append_of_plain (by simp [Event.plain])]
  -- the instances of the other plugins
  have hothers : ∀ q i, q ≠ response.plugin → rt.inst? q = some i → response.inst ≠ i.id := by
    intro q i hq hqi heq
    exact hq (hs.apart q _ i _ hqi hi (heq.symm.trans hinst))
  refine ⟨?_, ?_⟩
  · intro q i hqi
    rw [hview] at hqi
    split at hqi
    case isTrue hq =>
      cases hqi
      rw [hq]
      refine ⟨fun v hv => ?_, fun v hv => ?_, fun hpermits answer heq => ?_⟩
      · simp at hv
      · exact (hsourced.append).pending v (pending_of_kept settle_pending v hv)
      · simp only [settle_frame] at hpermits ⊢
        rcases settle_lastAnswer hpermits heq with hold | ⟨items, key, hout, -, hwkey, rfl⟩
        · exact (hsourced.answer hpermits answer hold).append
        · obtain ⟨addressed, hquestion⟩ := hsourced.running w hw key hwkey
          exact ⟨response, addressed, by simp, rfl, hinst, hout,
            mem_append_left _ (hgen ▸ hquestion)⟩
    case isFalse => exact (h.sourced q i hqi).append
  · intro item hitem
    rw [hcurrent]
    by_cases hpublished : ∃ items, response.outcome.suggested = some items ∧
        response.generation = rt.currentGeneration
    · obtain ⟨items, hout, hg⟩ := hpublished
      rw [accept_visible_published hout hg] at hitem
      cases mem_append.mp hitem with
      | inl hold =>
        obtain ⟨hold, hne⟩ := mem_filter.mp hold
        have hne : item.pluginId ≠ response.plugin := by simpa using hne
        obtain ⟨i, hi', hshown⟩ := h.shown item hold
        refine ⟨i, by rw [hview, if_neg hne]; exact hi', hshown.append rfl rfl rfl ?_ hkey⟩
        refine latest_concat_of_ne fun r heq => ?_
        cases heq
        exact .inl (hothers _ i hne hi')
      | inr hnew =>
        have hplugin := hsigned items hout item hnew
        rw [hplugin, hview, if_pos rfl]
        refine ⟨_, rfl, .published (latest_concat_answered ?_ hg hout) hnew⟩
        rw [(settle_frame response).1, hinst]
    · have hquiet : response.outcome.suggested = none ∨
          response.generation ≠ rt.currentGeneration := by
        cases hout : response.outcome.suggested with
        | none => exact .inl rfl
        | some items => exact .inr fun hg => hpublished ⟨items, hout, hg⟩
      rw [accept_visible_same hquiet] at hitem
      obtain ⟨i, hi', hshown⟩ := h.shown item hitem
      have hlatest : latest (past ++ [.answered response]) i.id rt.currentGeneration =
          latest past i.id rt.currentGeneration := by
        refine latest_concat_of_ne fun r heq => ?_
        cases heq
        cases hquiet with
        | inl hnone => exact .inr (.inr hnone)
        | inr hg => exact .inr (.inl hg)
      rw [hview]
      split
      case isTrue hq =>
        rw [hq, hi, some_inj] at hi'
        rw [settle_eq_retire hquiet]
        exact ⟨_, rfl, hshown.append (by simp [hi']) (by simp [hi']) (by simp [hi']) hlatest hkey⟩
      case isFalse => exact ⟨i, hi', hshown.append rfl rfl rfl hlatest hkey⟩

end Provenance

lemma Move.provenance {rt rt' : LegacyRuntime} (hmove : Move rt es rt') (hs : Serial rt)
    (hsigned : ∀ response, .answered response ∈ past ++ es → response.Signed)
    (h : Provenance past rt) : Provenance (past ++ es) rt' := by
  cases hmove with
  | free selected query =>
    rw [append_nil]
    exact ⟨h.sourced, h.shown⟩
  | flags hf =>
    rw [append_nil]
    refine ⟨fun p j hj => ?_, fun item hitem => ?_⟩
    · rw [inst?_mapRunning] at hj
      obtain ⟨i, hi, rfl⟩ := map_eq_some_iff.mp hj
      have hsourced := h.sourced p i hi
      refine ⟨fun w hw key hkey => ?_, hsourced.pending, hsourced.answer⟩
      obtain ⟨v, hv, rfl⟩ := map_eq_some_iff.mp hw
      rw [hf.key] at hkey
      rw [hf.generation]
      exact hsourced.running v hv key hkey
    · obtain ⟨i, hi, hshown⟩ := h.shown item hitem
      rw [inst?_mapRunning, hi]
      exact ⟨_, rfl, hshown.same rfl rfl rfl⟩
  | stop report =>
    have hstop := h.concat (e := .stopped) rfl (by simp)
    exact ⟨hstop.sourced, hstop.shown⟩
  | instantiate selected profile compatibility hid hvis => exact h.instantiate hvis
  | ask hk => exact h.ask (fun r hr => hsigned r (mem_append_left _ hr)) hk
  | hold hi hd =>
    rename_i p i
    rw [append_nil]
    exact h.silent hi (inst?_setInstance hi _) rfl rfl rfl rfl rfl
      (h.sourced p i hi).running fun w hw => hw
  | build pendingCatalog hi hlive hd hrun hq =>
    rw [append_nil]
    refine h.silent hi (inst?_launch hi _ _ _) rfl rfl rfl rfl rfl ?_ fun w hw => hw
    intro w hw key hkey
    cases hw
    cases hkey
  | promote hi hlive hd hrun hq hpend =>
    rename_i p i v
    rw [append_nil]
    refine h.silent hi (inst?_launch hi _ _ _) rfl rfl rfl rfl rfl ?_ fun w hw => by cases hw
    intro w hw key hkey
    cases hw
    exact (h.sourced p i hi).pending v hpend key hkey
  | start hi hlive hd hrun hq =>
    rw [append_nil]
    refine h.silent hi (inst?_setInstance hi _) rfl rfl rfl rfl rfl ?_ fun w hw => hw
    intro w hw key hkey
    cases hw
    cases hkey
  | handOver now hout hi hid hw ha =>
    rename_i request outbox i w
    have hoffer := h.concat (e := .offered request true) rfl (by simp)
    refine hoffer.silent hi (inst?_popped hi) rfl rfl rfl rfl rfl ?_ fun w hw => hw
    intro v hv key hkey
    cases hv
    exact (hoffer.sourced _ i hi).running w hw key hkey
  | drop hout hi hid hw ha =>
    rename_i request outbox i w
    have hoffer := h.concat (e := .offered request false) rfl (by simp)
    obtain ⟨hsame, -, hidle, hpolicy, hanswer⟩ := retire_frame (i := i) (w := w) .failed
    rw [dropRunning_eq hi ha]
    refine hoffer.silent hi (inst?_popped hi) rfl rfl hsame hpolicy hanswer ?_
      (pending_of_kept retire_pending)
    intro v hv
    rw [hidle] at hv
    cases hv
  | answer hlive hget hinst hw hb hd =>
    rename_i response record w
    exact h.answer hs (hsigned response (by simp)) hget hinst hw hb

/-! ### Runs -/

/-- The responses of a run whose items carry the responding plugin's id. -/
def Op.Signed : Op → Prop
  | .deliver response => response.Signed
  | _ => True

instance : (op : Op) → Decidable op.Signed
  | .deliver response => inferInstanceAs (Decidable response.Signed)
  | .registerWith .. | .submitQuery _ | .selectItem _ | .clearSelection | .catalogRebuild _
  | .reload _ | .tick .. | .shutdown _ => isTrue trivial

lemma answered_of_step {rt rt' : LegacyRuntime} {op : Op} {reply : Reply} {events : List Event}
    {response : LegacyResponse} (hstep : step rt op = some (rt', reply, events))
    (hmem : .answered response ∈ events) : op = .deliver response := by
  cases step_called hstep with
  | refused | cleared | rebuilt => cases hmem
  | asked owner text _ hlive hg =>
    rw [(ask_keystroke hlive hg).2] at hmem
    cases mem_questionEvents hmem with
    | inl hquestion => cases hquestion
    | inr hintake =>
      obtain ⟨p, -, i, -, heq⟩ := hintake
      cases heq
  | replaced => simp at hmem
  | ticked =>
    obtain ⟨request, accepted, heq⟩ := tick_events hmem
    cases heq
  | delivered r => rw [Event.answered.inj (deliver_events hmem)]
  | stopped => cases shutdown_events hmem

/-- After every run of prompt and signed answers: a visible item was published for the current
generation by the live instance of its plugin, or is that instance's retained answer to the same
query and selection; and the newest question got exactly one way at every plugin it was put to,
unless the instance was replaced or excluded. -/
theorem display_fresh {deadlines : LegacyDeadlines} {tr : List (Op × Reply × List Event)}
    {rt : LegacyRuntime}
    (h : ExecWhen step (fun rt op => Prompt rt op ∧ op.Signed) (.new deadlines) tr rt) :
    (∀ item ∈ rt.visible, ∃ i, rt.inst? item.pluginId = some i ∧
        Shown (log tr) item.pluginId rt.currentGeneration i item) ∧
      (newest (log tr)).generation = rt.currentGeneration ∧
      ∀ p ∈ (newest (log tr)).addressed, ∀ i, rt.inst? p = some i → i.disabled = false →
        ∃! stage : Stage, stage.Holds (log tr) p rt.currentGeneration i := by
  have hprompt : PromptRun deadlines tr rt := h.imp fun _ _ hboth => hboth.1
  have hsigned : ∀ response, .answered response ∈ log tr → response.Signed := by
    refine ExecWhen.invariant
      (fun tr _ => ∀ response, .answered response ∈ log tr → response.Signed) (by simp) ?_ h
    rintro tr rt op rt' ⟨reply, events⟩ hI hboth hstep response hmem
    rw [log_concat] at hmem
    cases mem_append.mp hmem with
    | inl hold => exact hI response hold
    | inr hnew =>
      rw [answered_of_step hstep hnew] at hboth
      exact hboth.2
  obtain ⟨-, haccounts⟩ := PromptRun.invariant hprompt (accounts_new deadlines)
    fun past rt es rt' hs hI hmove => hmove.accounts hs hI
  obtain ⟨-, hprovenance⟩ := PromptRun.invariant hprompt
    (I := fun past rt => (∀ response, .answered response ∈ past → response.Signed) →
      Provenance past rt) (fun _ => provenance_new deadlines)
    fun past rt es rt' hs hI hmove hall =>
      hmove.provenance hs hall (hI fun r hr => hall r (mem_append_left _ hr))
  exact ⟨(hprovenance hsigned).shown, haccounts.generation,
    fun p hp i hi hd => haccounts.one p i hi hd hp⟩

def shownItem : Item where
  stableId := ⟨"calc"⟩
  pluginId := ⟨"apps"⟩
  category := .application
  label := "Calculator"
  description := ""
  target := "calc"
  searchTerms := []
  iconReference := none
  argumentPolicy := .forbidden
  hitPolicy := .recorded
  scoreHint := 0
  metadata := []
  actions := []

theorem display_fresh_answered : ∃ tr rt,
    ExecWhen step (fun rt op => Prompt rt op ∧ op.Signed) (.new ⟨5000, 120000, 2000⟩) tr rt ∧
      rt.visible = [shownItem] ∧
      ∀ item ∈ rt.visible, ∃ i, rt.inst? item.pluginId = some i ∧
        Shown (log tr) item.pluginId rt.currentGeneration i item := by
  obtain ⟨tr, rt, hexec, hvisible⟩ := execWhen_of_eval step (fun s op => Prompt s op ∧ op.Signed)
    (.new ⟨5000, 120000, 2000⟩)
    (begun ++ [.submitQuery "a", .tick 1 [],
      .deliver ⟨⟨"apps"⟩, ⟨1⟩, ⟨1⟩, .onSuggest, .suggestions [shownItem]⟩])
    (·.visible = [shownItem]) (by decide +kernel)
  exact ⟨tr, rt, hexec, hvisible, (display_fresh hexec).1⟩

/-- The repeated answer to a rebuild retires the rebuild that still waits in the outbox. When the
worker then refuses that stale request, the query that runs in its place is dropped with it: it is
handed over afterwards, but nothing waits for its answer any more. -/
theorem refused_rebuild_loses_query : ∃ tr rt i,
    Exec step (.new ⟨5000, 120000, 2000⟩) tr rt ∧ rt.currentGeneration = ⟨1⟩ ∧
      rt.inst? ⟨"apps"⟩ = some i ∧ i.disabled = false ∧
      ⟨"apps"⟩ ∈ (newest (log tr)).addressed ∧
      ∀ stage : Stage, ¬ stage.Holds (log tr) ⟨"apps"⟩ rt.currentGeneration i := by
  let apps : PluginId := ⟨"apps"⟩
  obtain ⟨rt, tr, hrun, hout⟩ := run_of_eval step (.new ⟨5000, 120000, 2000⟩)
    (rebuildTwice ++ [.deliver ⟨apps, ⟨1⟩, .zero, .onCatalog, .acknowledged⟩,
      .tick 2 [false, true]])
    (fun rt tr => decide (rt.currentGeneration = ⟨1⟩ ∧ apps ∈ (newest (log tr)).addressed ∧
        (rt.inst? apps).map (fun i => (i.disabled, i.running, i.pending)) =
          some (false, none, none)) && (log tr).all fun
        | .answered response => response.callback ≠ .onSuggest
        | .offered request accepted => accepted || request.callback ≠ .onSuggest
        | .intake _ _ _ replay => replay = .ask
        | _ => true) (by decide +kernel)
  obtain ⟨hstate, hlog⟩ := Bool.and_eq_true_iff.mp hout
  obtain ⟨hcurrent, haddressed, hinst⟩ := of_decide_eq_true hstate
  obtain ⟨i, hi, hfields⟩ := map_eq_some_iff.mp hinst
  simp only [Prod.mk.injEq] at hfields
  obtain ⟨hd, hrunning, hpending⟩ := hfields
  refine ⟨tr, rt, i, (exec_of_run hrun).1, hcurrent, hi, hd, haddressed, fun stage hstage => ?_⟩
  rw [List.all_eq_true] at hlog
  cases stage with
  | running => simp [Stage.Holds, suggesting, hrunning] at hstage
  | pending => simp [Stage.Holds, hpending] at hstage
  | settled =>
    cases hstage with
    | inl hended | inr hended =>
      obtain ⟨_, hmem, -, -, hcall⟩ := hended
      have := hlog _ hmem
      simp [hcall] at this
  | served =>
    obtain ⟨items, hmem⟩ := hstage
    have := hlog _ hmem
    simp at this

end CriKey.Legacy
