import CriKey.Legacy.Dispatch

/-! No query is lost: what became of the newest question at every plugin it was put to. -/
namespace CriKey.Legacy
open CriKey.Base CriKey.Core CriKey.Scheduler LegacyRuntime List Option Event Instance

/-- A question, with the plugins it was put to whose instance was not replaced since. -/
structure Question where
  generation : Generation
  key : Option CacheKey
  addressed : List PluginId

def Question.after (question : Question) : Event → Question
  | .questioned g key addressed => ⟨g, some key, addressed⟩
  | .instantiated p _ => { question with addressed := question.addressed.filter (· ≠ p) }
  | _ => question

variable (past : List Event)

def newest : Question := past.foldl Question.after ⟨.zero, none, []⟩

/-- The instance answered this generation, or its dispatch failed. -/
def Settled (id : InstanceId) (g : Generation) : Prop :=
  (∃ response, .answered response ∈ past ∧ response.inst = id ∧ response.generation = g ∧
      response.callback = .onSuggest) ∨
    ∃ request, .offered request false ∈ past ∧ request.inst = id ∧ request.generation = g ∧
      request.callback = .onSuggest

/-- The generation was served from the retained answer of the instance. -/
def Served (p : PluginId) (id : InstanceId) (g : Generation) : Prop :=
  ∃ items, .intake p id g (.serve items) ∈ past

def Instance.suggesting (i : Instance) : Option Generation :=
  i.running.bind fun w => if w.callback = .onSuggest then some w.generation else none

inductive Stage where
  | running | pending | settled | served
deriving DecidableEq, Repr

/-- How far the question of generation `g` got at the instance `i` of `p`. -/
def Stage.Holds (p : PluginId) (g : Generation) (i : Instance) : Stage → Prop
  | .running => i.suggesting = some g
  | .pending => i.pending.map (·.generation) = some g
  | .settled => Settled past i.id g
  | .served => Served past p i.id g

/-! ### The past -/

/-- Events that open no question and mint no instance. -/
def Event.plain : Event → Bool
  | .offered _ _ | .answered _ | .stopped => true
  | _ => false

def Event.generation? : Event → Option Generation
  | .questioned g _ _ => some g
  | .intake _ _ g _ => some g
  | .offered request _ => some request.generation
  | .answered response => some response.generation
  | _ => none

section Past
variable {past es : List Event} {p : PluginId} {id : InstanceId} {g : Generation}

lemma newest_append (past es : List Event) :
    newest (past ++ es) = es.foldl Question.after (newest past) := foldl_append

lemma newest_append_of_plain (h : ∀ e ∈ es, e.plain = true) :
    newest (past ++ es) = newest past := by
  rw [newest_append]
  generalize newest past = question
  induction es generalizing question with
  | nil => rfl
  | cons e es ih =>
    have he : question.after e = question := by
      have hplain := h e mem_cons_self
      cases e <;> first | rfl | simp [plain] at hplain
    rw [foldl_cons, he]
    exact ih (fun x hx => h x (mem_cons_of_mem _ hx)) question

lemma settled_append : Settled (past ++ es) id g ↔ Settled past id g ∨ Settled es id g := by
  simp only [Settled, mem_append, or_and_right, exists_or]
  exact or_or_or_comm

lemma served_append : Served (past ++ es) p id g ↔ Served past p id g ∨ Served es p id g := by
  simp only [Served, mem_append, exists_or]

lemma not_settled_of_ne (h : ∀ e ∈ es, e.subject ≠ some id) : ¬ Settled es id g := by
  intro hs
  cases hs with
  | inl hended | inr hended =>
    obtain ⟨_, hmem, hid, -⟩ := hended
    exact h _ hmem (congrArg some hid)

lemma not_served_of_plain (h : ∀ e ∈ es, e.plain = true) : ¬ Served es p id g := by
  rintro ⟨items, hmem⟩
  exact absurd (h _ hmem) (by simp [plain])

variable {now : Generation} (h : ∀ e ∈ past, ∀ g ∈ e.generation?, g ≤ now) (hlt : now < g)
include h hlt

lemma not_settled_of_lt : ¬ Settled past id g := by
  intro hs
  cases hs with
  | inl hended | inr hended =>
    obtain ⟨_, hmem, -, hg, -⟩ := hended
    exact absurd (h _ hmem g (by simp [generation?, hg])) (not_le.mpr hlt)

lemma not_served_of_lt : ¬ Served past p id g := by
  rintro ⟨items, hmem⟩
  exact absurd (h _ hmem g rfl) (not_le.mpr hlt)

end Past

/-! ### Stages -/

namespace Stage
variable {past past' : List Event} {p : PluginId} {g : Generation} {i j : Instance}

lemma existsUnique_congr (hrunning : j.suggesting = some g ↔ i.suggesting = some g)
    (hpending : j.pending = i.pending) (hsettled : Settled past' j.id g ↔ Settled past i.id g)
    (hserved : Served past' p j.id g ↔ Served past p i.id g)
    (h : ∃! stage : Stage, stage.Holds past p g i) : ∃! stage : Stage, stage.Holds past' p g j := by
  have hiff : ∀ stage : Stage, stage.Holds past' p g j ↔ stage.Holds past p g i := by
    intro stage
    cases stage with
    | running => exact hrunning
    | pending => simp only [Holds, hpending]
    | settled => exact hsettled
    | served => exact hserved
  simpa only [hiff] using h

lemma existsUnique_shift {P P' : Stage → Prop} (old new : Stage) (h : ∃! stage, P stage)
    (hold : P old) (hnew : P' new)
    (hrest : ∀ stage, P' stage → stage = new ∨ P stage ∧ stage ≠ old) :
    ∃! stage, P' stage := by
  refine ⟨new, hnew, fun stage hstage => ?_⟩
  cases hrest stage hstage with
  | inl heq => exact heq
  | inr hother => exact absurd (h.unique hother.1 hold) hother.2

end Stage

structure Accounts (rt : LegacyRuntime) : Prop where
  generation : (newest past).generation = rt.currentGeneration
  bound : ∀ e ∈ past, ∀ g ∈ e.generation?, g ≤ rt.currentGeneration
  one : ∀ p i, rt.inst? p = some i → i.disabled = false → p ∈ (newest past).addressed →
    ∃! stage : Stage, stage.Holds past p rt.currentGeneration i

lemma accounts_new (deadlines : LegacyDeadlines) : Accounts [] (.new deadlines) where
  generation := rfl
  bound := fun e h => absurd h (by simp)
  one := fun p i h => absurd h (by simp [inst?, LegacyRuntime.new])

namespace Accounts
variable {past es : List Event} {rt rt' : LegacyRuntime} {p : PluginId} {i j : Instance}

lemma bound_append {now : Generation} (h : ∀ e ∈ past, ∀ g ∈ e.generation?, g ≤ now)
    (hes : ∀ e ∈ es, ∀ g ∈ e.generation?, g ≤ now) :
    ∀ e ∈ past ++ es, ∀ g ∈ e.generation?, g ≤ now := by
  intro e he
  cases mem_append.mp he with
  | inl hold => exact h e hold
  | inr hnew => exact hes e hnew

lemma update (h : Accounts past rt) (hs : Serial rt) (hp : rt.inst? p = some i)
    (hview : Replaces rt p j rt') (hcurrent : rt'.currentGeneration = rt.currentGeneration)
    (hplain : ∀ e ∈ es, e.plain = true) (hsubject : ∀ e ∈ es, e.subject = some i.id)
    (hbound : ∀ e ∈ es, ∀ g ∈ e.generation?, g ≤ rt.currentGeneration)
    (hon : j.disabled = false → i.disabled = false)
    (hown : j.disabled = false → (∃! stage : Stage, stage.Holds past p rt.currentGeneration i) →
        ∃! stage : Stage, stage.Holds (past ++ es) p rt.currentGeneration j) :
    Accounts (past ++ es) rt' where
  generation := by rw [newest_append_of_plain hplain, h.generation, hcurrent]
  bound := hcurrent ▸ bound_append h.bound hbound
  one := by
    intro q k hk hd hq
    rw [newest_append_of_plain hplain] at hq
    rw [hview] at hk
    rw [hcurrent]
    split at hk
    case isTrue hqp =>
      cases hk
      rw [hqp] at hq ⊢
      exact hown hd (h.one p i hp (hon hd) hq)
    case isFalse hqp =>
      have hne : ∀ e ∈ es, e.subject ≠ some k.id := by
        intro e he heq
        rw [hsubject e he, some_inj] at heq
        exact hqp (hs.apart q p k i hk hp heq.symm)
      refine Stage.existsUnique_congr .rfl rfl ?_ ?_ (h.one q k hk hd hq)
      · rw [settled_append, or_iff_left (not_settled_of_ne hne)]
      · rw [served_append, or_iff_left (not_served_of_plain hplain)]

lemma silent (h : Accounts past rt) (hs : Serial rt) (hp : rt.inst? p = some i)
    (hview : Replaces rt p j rt')
    (hcurrent : rt'.currentGeneration = rt.currentGeneration) (hid : j.id = i.id)
    (hon : j.disabled = i.disabled) (hrunning : j.suggesting = i.suggesting)
    (hpending : j.pending = i.pending) : Accounts (past ++ []) rt' := by
  refine h.update hs hp hview hcurrent (by simp) (by simp) (by simp) (fun hd => hon ▸ hd) ?_
  intro _ hone
  rw [append_nil]
  exact Stage.existsUnique_congr (by rw [hrunning]) hpending (by rw [hid]) (by rw [hid]) hone

lemma finish {e : Event} {w : RunningWork} (h : Accounts past rt) (hs : Serial rt)
    (hp : rt.inst? p = some i) (hview : Replaces rt p j rt')
    (hcurrent : rt'.currentGeneration = rt.currentGeneration) (hw : i.running = some w)
    (hplain : e.plain = true) (hsubject : e.subject = some i.id)
    (hgeneration : e.generation? = some w.generation) (hid : j.id = i.id)
    (hended : j.running = none) (hpending : j.disabled = false → j.pending = i.pending)
    (hsettles : ∀ g, Settled [e] i.id g ↔ w.callback = .onSuggest ∧ w.generation = g) :
    Accounts (past ++ [e]) rt' := by
  have hfits := hs.fits p i hp
  refine h.update hs hp hview hcurrent (by simpa using hplain) (by simpa using hsubject) ?_
    (fun _ => (hfits.of_running hw).1) ?_
  · intro e' he' g hg
    rw [mem_singleton.mp he', hgeneration] at hg
    cases hg
    exact hfits.bound w hw
  · intro hd hone
    have hnone : j.suggesting = none := by simp [suggesting, hended]
    have hserved : Served (past ++ [e]) p j.id rt.currentGeneration ↔
        Served past p i.id rt.currentGeneration := by
      rw [served_append, or_iff_left (not_served_of_plain (by simpa using hplain)), hid]
    by_cases hnow : w.callback = .onSuggest ∧ w.generation = rt.currentGeneration
    · have hrunning : i.suggesting = some rt.currentGeneration := by
        simp [suggesting, hw, hnow.1, hnow.2]
      refine Stage.existsUnique_shift .running .settled hone hrunning ?_ ?_
      · show Settled _ _ _
        rw [hid, settled_append, hsettles]
        exact .inr hnow
      · intro stage hstage
        cases stage with
        | running => simp [Stage.Holds, hnone] at hstage
        | pending => exact .inr ⟨by simpa [Stage.Holds, hpending hd] using hstage, by simp⟩
        | settled => exact .inl rfl
        | served => exact .inr ⟨hserved.mp hstage, by simp⟩
    · refine Stage.existsUnique_congr ?_ (hpending hd) ?_ hserved hone
      · refine iff_of_false (by simp [hnone]) fun heq => ?_
        simp only [suggesting, hw, bind_some] at heq
        split at heq
        case isTrue hcall => exact hnow ⟨hcall, some_inj.mp heq⟩
        case isFalse => cases heq
      · rw [hid, settled_append, hsettles, or_iff_left hnow]

end Accounts

namespace Instance
variable {i : Instance} {w : RunningWork}

lemma suggesting_map {f : RunningWork → RunningWork} (hf : Faithful f) :
    { i with running := i.running.map f }.suggesting = i.suggesting := by
  cases hw : i.running with
  | none => simp [suggesting, hw]
  | some w => simp [suggesting, hw, hf.callback, hf.generation]

lemma suggesting_of_running_none (h : i.running = none) : i.suggesting = none := by
  simp [suggesting, h]

lemma suggesting_le {now g : Generation} (h : i.Fits now) (hg : i.suggesting = some g) :
    g ≤ now := by
  obtain ⟨w, hw, hcall⟩ := bind_eq_some_iff.mp hg
  split at hcall
  · cases hcall
    exact h.bound w hw
  · cases hcall

lemma begin_suggesting : i.begin.suggesting = i.suggesting :=
  suggesting_map (i := i) faithful_superseded

end Instance

/-! ### The keystroke -/

section Ask
variable {past : List Event} {rt rt' : LegacyRuntime} {g : Generation} {query : String}
  {selected : Option Item} {addressed : List PluginId} {p : PluginId} {i : Instance}

lemma mem_questionEvents {e : Event} (h : e ∈ questionEvents g query selected addressed rt) :
    e = .questioned g ⟨query, selected.map (·.stableId)⟩ addressed ∨
      ∃ p ∈ addressed, ∃ i, rt.inst? p = some i ∧
        e = .intake p i.id g (i.replay ⟨query, selected.map (·.stableId)⟩) := by
  cases mem_cons.mp h with
  | inl hquestion => exact .inl hquestion
  | inr hintake =>
    obtain ⟨p, hp, hbind⟩ := mem_filterMap.mp hintake
    obtain ⟨i, hi, hverdict⟩ := bind_eq_some_iff.mp hbind
    unfold verdict at hverdict
    split at hverdict
    · cases hverdict
    · cases hverdict
      exact .inr ⟨p, hp, i, hi, rfl⟩

lemma intake_mem_questionEvents (hp : p ∈ addressed) (hi : rt.inst? p = some i)
    (hd : i.disabled = false) : .intake p i.id g (i.replay ⟨query, selected.map (·.stableId)⟩) ∈
      questionEvents g query selected addressed rt := by
  refine mem_cons_of_mem _ (mem_filterMap.mpr ⟨p, hp, ?_⟩)
  simp [hi, verdict, hd]

lemma newest_questionEvents : newest (past ++ questionEvents g query selected addressed rt) =
    ⟨g, some ⟨query, selected.map (·.stableId)⟩, addressed⟩ := by
  rw [newest_append, questionEvents, foldl_cons, Question.after]
  generalize hquestion : (⟨g, some ⟨query, selected.map (·.stableId)⟩, addressed⟩ : Question) =
    question
  have hintakes : ∀ e ∈ addressed.filterMap (fun p =>
      (rt.inst? p).bind (·.verdict p g query selected)), question.after e = question := by
    intro e he
    obtain ⟨p, -, hbind⟩ := mem_filterMap.mp he
    obtain ⟨i, -, hverdict⟩ := bind_eq_some_iff.mp hbind
    unfold verdict at hverdict
    split at hverdict
    · cases hverdict
    · cases hverdict
      rfl
  revert hintakes
  generalize addressed.filterMap (fun p =>
    (rt.inst? p).bind (·.verdict p g query selected)) = es
  intro hintakes
  induction es with
  | nil => rfl
  | cons e es ih =>
    rw [foldl_cons, hintakes e mem_cons_self]
    exact ih fun x hx => hintakes x (mem_cons_of_mem _ hx)

lemma not_settled_questionEvents {id : InstanceId} {g' : Generation} :
    ¬ Settled (questionEvents g query selected addressed rt) id g' := by
  refine not_settled_of_ne fun e he => ?_
  cases mem_questionEvents he with
  | inl hquestion => simp [hquestion, subject]
  | inr hintake =>
    obtain ⟨p, -, i, -, rfl⟩ := hintake
    simp [subject]

lemma struck_stage (h : Accounts past rt) (hs : Serial rt)
    (hk : Keystroke g query selected addressed rt rt') (hi : rt.inst? p = some i)
    (hp : p ∈ addressed) (hd : i.disabled = false) :
    ∃! stage : Stage, stage.Holds (past ++ questionEvents g query selected addressed rt) p g
      (i.struck p addressed g query selected) := by
  have hlt : rt.currentGeneration < g := by
    rw [Generation.lt_iff, hs.current, hk.minted]
    exact Nat.lt_succ_self _
  have hold : i.begin.suggesting ≠ some g := by
    rw [begin_suggesting]
    intro heq
    exact absurd (suggesting_le (hs.fits p i hi) heq) (not_le.mpr hlt)
  have hsettled : ¬ Settled (past ++ questionEvents g query selected addressed rt) i.id g := by
    rw [settled_append, or_iff_left not_settled_questionEvents]
    exact not_settled_of_lt h.bound hlt
  have hserved : Served (past ++ questionEvents g query selected addressed rt) p i.id g ↔
      ∃ items, i.replay ⟨query, selected.map (·.stableId)⟩ = .serve items := by
    rw [served_append, or_iff_right (not_served_of_lt h.bound hlt)]
    constructor
    · rintro ⟨items, hmem⟩
      cases mem_questionEvents hmem with
      | inl hquestion => cases hquestion
      | inr hintake =>
        obtain ⟨q, -, k, hk', heq⟩ := hintake
        simp only [intake.injEq] at heq
        obtain ⟨rfl, -, -, hreplay⟩ := heq
        rw [hi, some_inj] at hk'
        exact ⟨items, hk' ▸ hreplay.symm⟩
    · rintro ⟨items, hserve⟩
      exact ⟨items, hserve ▸ intake_mem_questionEvents hp hi hd⟩
  rw [struck, if_pos ⟨hp, hd⟩, asked, put]
  split
  case h_1 items hserve =>
    refine ⟨.served, hserved.mpr ⟨items, hserve⟩, fun stage hstage => ?_⟩
    cases stage with
    | running => exact absurd hstage hold
    | pending => cases hstage
    | settled => exact absurd hstage hsettled
    | served => rfl
  case h_2 hask =>
    have hnot : ¬ Served (past ++ questionEvents g query selected addressed rt) p i.id g := by
      rw [hserved]
      rintro ⟨items, hserve⟩
      exact hask items hserve
    split
    · refine ⟨.pending, rfl, fun stage hstage => ?_⟩
      cases stage with
      | running => exact absurd hstage hold
      | pending => rfl
      | settled => exact absurd hstage hsettled
      | served => exact absurd hstage hnot
    · refine ⟨.running, rfl, fun stage hstage => ?_⟩
      cases stage with
      | running => rfl
      | pending => cases hstage
      | settled => exact absurd hstage hsettled
      | served => exact absurd hstage hnot

lemma Accounts.ask (h : Accounts past rt) (hs : Serial rt)
    (hk : Keystroke g query selected addressed rt rt') :
    Accounts (past ++ questionEvents g query selected addressed rt) rt' where
  generation := by rw [newest_questionEvents, hk.current]
  bound := by
    rw [hk.current]
    refine bound_append (fun e he g' hg' => (h.bound e he g' hg').trans ?_) fun e he g' hg' => ?_
    · rw [Generation.le_iff, hs.current, hk.minted]
      exact Nat.le_succ _
    · cases mem_questionEvents he with
      | inl hquestion =>
        rw [hquestion] at hg'
        cases hg'
        exact le_rfl
      | inr hintake =>
        obtain ⟨p, -, i, -, rfl⟩ := hintake
        cases hg'
        exact le_rfl
  one := by
    intro p j hj hd hp
    rw [newest_questionEvents] at hp
    rw [hk.inst] at hj
    obtain ⟨i, hi, rfl⟩ := map_eq_some_iff.mp hj
    rw [hk.current]
    exact struck_stage h hs hk hi hp (struck_frame.2.2.2.1 ▸ hd)

end Ask

lemma Settled.offered_iff {request : LegacyRequest} {id : InstanceId} {g : Generation} :
    Settled [.offered request false] id g ↔
      request.inst = id ∧ request.generation = g ∧ request.callback = .onSuggest := by
  simp [Settled]

lemma Settled.answered_iff {response : LegacyResponse} {id : InstanceId} {g : Generation} :
    Settled [.answered response] id g ↔
      response.inst = id ∧ response.generation = g ∧ response.callback = .onSuggest := by
  simp [Settled]

lemma Move.accounts {past es : List Event} {rt rt' : LegacyRuntime} (hmove : Move rt es rt')
    (hs : Serial rt) (h : Accounts past rt) : Accounts (past ++ es) rt' := by
  cases hmove with
  | free selected query =>
    rw [append_nil]
    exact ⟨h.generation, h.bound, h.one⟩
  | flags hf =>
    rw [append_nil]
    refine ⟨h.generation, h.bound, fun p j hj hd hp => ?_⟩
    rw [inst?_mapRunning] at hj
    obtain ⟨i, hi, rfl⟩ := map_eq_some_iff.mp hj
    exact Stage.existsUnique_congr (i := i) (by rw [suggesting_map hf]) rfl .rfl
      .rfl (h.one p i hi hd hp)
  | stop report =>
    have hplain : ∀ e ∈ [stopped], e.plain = true := by simp [plain]
    refine ⟨by rw [newest_append_of_plain hplain]; exact h.generation,
      Accounts.bound_append h.bound (by simp [generation?]), fun p i hi hd hp => ?_⟩
    rw [newest_append_of_plain hplain] at hp
    refine Stage.existsUnique_congr .rfl rfl ?_ ?_ (h.one p i hi hd hp)
    · rw [settled_append, or_iff_left (not_settled_of_ne (by simp [subject]))]
    · rw [served_append, or_iff_left (not_served_of_plain hplain)]
  | instantiate selected profile compatibility hid hvis =>
    refine ⟨by rw [newest_append]; exact h.generation,
      Accounts.bound_append h.bound (by simp [generation?]), fun q j hj hd hq => ?_⟩
    rw [newest_append] at hq
    obtain ⟨hq, hne⟩ := mem_filter.mp hq
    rw [inst?_supersede, if_neg (by simpa using hne)] at hj
    refine Stage.existsUnique_congr .rfl rfl ?_ ?_ (h.one q j hj hd hq)
    · rw [settled_append, or_iff_left (not_settled_of_ne (by simp [subject]))]
    · rw [served_append, or_iff_left]
      rintro ⟨items, hmem⟩
      simp at hmem
  | ask hk => exact h.ask hs hk
  | hold hi hd => exact h.silent hs hi (inst?_setInstance hi _) rfl rfl rfl rfl rfl
  | build pendingCatalog hi hlive hd hrun hq =>
    refine h.silent hs hi (inst?_launch hi _ _ _) rfl rfl rfl ?_ rfl
    rw [suggesting_of_running_none hrun]
    rfl
  | promote hi hlive hd hrun hq hpend =>
    rename_i p i w
    obtain ⟨hgen, hcall⟩ := (hs.fits p i hi).held w hpend
    refine h.update hs hi (inst?_launch hi _ _ _) rfl (by simp) (by simp) (by simp)
      (fun _ => hd) fun _ hone => ?_
    rw [append_nil]
    refine Stage.existsUnique_shift .pending .running hone ?_ ?_ ?_
    · simp [Stage.Holds, hpend, hgen]
    · simp [Stage.Holds, suggesting, WorkKind.decided, hcall, hgen]
    · intro stage hstage
      cases stage with
      | running => exact .inl rfl
      | pending => cases hstage
      | settled | served => exact .inr ⟨hstage, by simp⟩
  | start hi hlive hd hrun hq =>
    refine h.silent hs hi (inst?_setInstance hi _) rfl rfl rfl ?_ rfl
    rw [suggesting_of_running_none hrun]
    rfl
  | handOver now hout hi hid hw ha =>
    rename_i request outbox i w
    refine h.update hs hi (inst?_popped hi) rfl (by simp [plain])
      (by simp [subject, hid]) ?_ id fun _ hone => ?_
    · intro e he g hg
      rw [mem_singleton.mp he] at hg
      cases hg
      exact ha.generation ▸ (hs.fits _ i hi).bound w hw
    · refine Stage.existsUnique_congr (i := i) ?_ rfl ?_ ?_ hone
      · simp [suggesting, hw]
      · simp [Settled]
      · rw [served_append, or_iff_left (not_served_of_plain (by simp [plain]))]
  | drop hout hi hid hw ha =>
    rename_i request outbox i w
    rw [dropRunning_eq hi ha]
    refine h.finish hs hi (inst?_popped hi) rfl hw rfl
      (by rw [hid]; rfl) (by rw [ha.generation]; rfl) (retire_frame _).1
      (by simp) (fun hd => retire_pending.resolve_right (by simp [hd])) fun g => ?_
    rw [Settled.offered_iff, ha.generation, ha.callback]
    tauto
  | answer hlive hget hinst hw hb hd =>
    rename_i response record w
    obtain ⟨-, -, hcurrent, -, -⟩ := accept_rest rt record w response
    obtain ⟨hgen, hcall⟩ := RunningWork.answeredBy_iff.mp hb
    refine h.finish hs (inst?_of_get? hget) (inst?_accept hget) hcurrent
      hw rfl (by rw [← hinst]; rfl) (by rw [hgen]; rfl) (settle_frame _).1
      (by simp) (fun hd => settle_pending.resolve_right (by simp [hd])) fun g => ?_
    rw [Settled.answered_iff, hgen, hcall]
    tauto

end CriKey.Legacy
