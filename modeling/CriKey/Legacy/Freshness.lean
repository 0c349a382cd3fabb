import CriKey.Legacy.Steps

/-! Suggestion requests that have not crossed the worker boundary: whatever is delivered, only a
keystroke adds one. -/
namespace CriKey.Legacy
open CriKey.Base CriKey.Core CriKey.Scheduler LegacyRuntime Instance List Option List.Subperm

namespace LegacyRuntime

/-- The generations of the suggestion requests that wait for an instance, in the outbox or in its
pending slot. -/
def uncrossed (i : Instance) (rt : LegacyRuntime) : List Generation :=
  (rt.outbox.filter fun request => request.inst = i.id && request.callback = .onSuggest).map
      (·.generation)
    ++ i.pending.toList.map (·.generation)

/-- The same, by plugin. -/
def waiting (p : PluginId) (rt : LegacyRuntime) : List Generation :=
  (rt.outbox.filter fun request => request.plugin = p && request.callback = .onSuggest).map
      (·.generation)
    ++ ((rt.inst? p).bind (·.pending)).toList.map (·.generation)

/-- No suggestion request for the plugin waits in the outbox. -/
def Crossed (p : PluginId) (rt : LegacyRuntime) : Prop :=
  ∀ request ∈ rt.outbox, request.plugin = p → request.callback ≠ .onSuggest

instance (p : PluginId) (rt : LegacyRuntime) : Decidable (rt.Crossed p) :=
  inferInstanceAs (Decidable (∀ request ∈ rt.outbox, _))

/-- The instances stay, and no suggestion request is added. -/
structure Fewer (rt rt' : LegacyRuntime) : Prop where
  waiting : ∀ p, (rt'.waiting p).Subperm (rt.waiting p)
  ids : ∀ p, rt'.idOf p = rt.idOf p
  outbox : ∀ request ∈ rt'.outbox, request ∈ rt.outbox ∨ rt.idOf request.plugin = some request.inst
  nextInstance : rt'.nextInstance = rt.nextInstance
  current : rt'.currentGeneration = rt.currentGeneration

namespace Fewer
variable {rt rt₁ rt₂ rt' : LegacyRuntime} {p : PluginId} {i j : Instance}

lemma refl : Fewer rt rt :=
  ⟨fun _ => List.Subperm.refl _, fun _ => rfl, fun _ => .inl, rfl, rfl⟩

lemma trans (h : Fewer rt rt₁) (h' : Fewer rt₁ rt₂) : Fewer rt rt₂ where
  waiting := fun p => (h'.waiting p).trans (h.waiting p)
  ids := fun p => (h'.ids p).trans (h.ids p)
  outbox := by
    intro request hmem
    cases h'.outbox request hmem with
    | inl hold => exact h.outbox request hold
    | inr hlive => exact .inr (h.ids _ ▸ hlive)
  nextInstance := h'.nextInstance.trans h.nextInstance
  current := h'.current.trans h.current

lemma live (h : Fewer rt rt') (hlive : rt.Live) : rt'.Live := by
  intro request hmem
  rw [h.ids]
  cases h.outbox request hmem with
  | inl hold => exact hlive request hold
  | inr hid => exact hid

lemma keep (hi : rt.inst? p = some i) (hinst : Replaces rt p j rt') (hid : j.id = i.id)
    (hpending : j.pending = i.pending ∨ j.pending = none) (hout : rt'.outbox.Sublist rt.outbox)
    (hnext : rt'.nextInstance = rt.nextInstance)
    (hcurrent : rt'.currentGeneration = rt.currentGeneration) : Fewer rt rt' where
  waiting := by
    intro q
    refine List.Sublist.subperm (((hout.filter _).map _).append (List.Sublist.map _ ?_))
    rw [hinst]
    split
    case isTrue hq =>
      rw [hq, hi]
      cases hpending with
      | inl hsame => simp [hsame]
      | inr hnone => simp [hnone]
    case isFalse => exact .refl _
  ids := idOf_update hi hinst hid
  outbox := fun request hmem => .inl (hout.subset hmem)
  nextInstance := hnext
  current := hcurrent

lemma push {request : LegacyRequest} (hi : rt.inst? request.plugin = some i)
    (hid : j.id = i.id) (hown : request.inst = i.id)
    (hpending : request.callback ≠ .onSuggest ∧ j.pending = i.pending ∨
      i.pending.map (·.generation) = some request.generation ∧ j.pending = none) :
    Fewer rt { rt.setInstance request.plugin j with outbox := rt.outbox ++ [request] } where
  waiting := by
    intro q
    have hinst := inst?_setInstance hi j q
    change (((rt.outbox ++ [request]).filter _).map _ ++
      (((rt.setInstance request.plugin j).inst? q).bind _).toList.map _).Subperm _
    rw [LegacyRuntime.waiting, filter_append, map_append, hinst]
    refine List.Sublist.subperm ?_
    rw [append_assoc]
    split
    case isTrue hq =>
      rw [hq, hi]
      cases hpending with
      | inl hother => simp [hother.1, hother.2]
      | inr hpromoted =>
        obtain ⟨w, hw, hgen⟩ := map_eq_some_iff.mp hpromoted.1
        by_cases hcall : request.callback = .onSuggest
        · simp [hcall, hpromoted.2, hw, hgen]
        · simp [hcall, hpromoted.2]
    case isFalse hq =>
      have hne : ¬ request.plugin = q := fun heq => hq heq.symm
      simp [hne]
  ids := idOf_update hi (inst?_setInstance hi j) hid
  outbox := by
    intro r hmem
    cases mem_append.mp hmem with
    | inl hold => exact .inl hold
    | inr hnew =>
      rw [mem_singleton.mp hnew, idOf, hi, hown]
      exact .inr rfl
  nextInstance := rfl
  current := rfl

end Fewer

variable {rt rt' : LegacyRuntime}

lemma mapRunning_fewer (f : RunningWork → RunningWork) : Fewer rt (rt.mapRunning f) where
  waiting := by
    intro q
    have hsame : (rt.mapRunning f).waiting q = rt.waiting q := by
      rw [waiting, inst?_mapRunning, bind_map]
      rfl
    exact hsame ▸ refl _
  ids := by
    intro q
    rw [idOf, inst?_mapRunning, Option.map_map]
    rfl
  outbox := fun _ => .inl
  nextInstance := rfl
  current := rfl

lemma edit_fewer (h : Edit rt rt') : Fewer rt rt' := by
  cases h with
  | keep hi hid hpending =>
    exact .keep hi (inst?_setInstance hi _) hid hpending (.refl _) rfl rfl
  | push hi hid hown hpending =>
    exact .push hi hid hown hpending
  | flags f => exact mapRunning_fewer f
  | pop hout =>
    refine ⟨fun q => ?_, fun _ => rfl, fun r hmem => .inl (hout ▸ mem_cons_of_mem _ hmem), rfl, rfl⟩
    have hsub := hout ▸ sublist_cons_self _ _
    exact (((hsub.filter _).map _).append (.refl _)).subperm

lemma edits_fewer (h : Edits rt rt') : Fewer rt rt' := by
  induction h with
  | refl => exact .refl
  | tail _ hedit ih => exact ih.trans (edit_fewer hedit)

lemma mem_waiting {request : LegacyRequest} (hmem : request ∈ rt.outbox)
    (hcall : request.callback = .onSuggest) : request.generation ∈ rt.waiting request.plugin := by
  refine mem_append_left _ (mem_map.mpr ⟨request, mem_filter.mpr ⟨hmem, ?_⟩, rfl⟩)
  simp [hcall]

lemma mem_waiting_of_tick {now : Nat} {accepts : List Bool} {request : LegacyRequest}
    (hmem : request ∈ (rt.tick now accepts).2.1) (hcall : request.callback = .onSuggest) :
    request.generation ∈ rt.waiting request.plugin := by
  obtain ⟨mid, hmid, hin⟩ := (tick_edits now accepts).2 request hmem
  exact ((edits_fewer hmid).waiting _).subset (mem_waiting hin hcall)

lemma deliver_fewer (response : LegacyResponse) : Fewer rt (rt.deliver response).1 := by
  unfold deliver
  split
  · exact .refl
  split
  · exact .refl
  case h_2 record hget =>
    split
    · exact .refl
    split
    · exact .refl
    case h_2 w hw =>
      obtain ⟨hout, hnext, hcurrent, -, -⟩ := accept_rest rt record w response
      refine Fewer.trans (.keep (inst?_of_get? hget) (inst?_accept hget) (settle_frame _).1
        (settle_pending.imp_right And.right) ?_ hnext hcurrent) (edits_fewer finishCallback_edits)
      rw [hout]

lemma shutdown_fewer (atMs : Nat) : Fewer rt (rt.shutdown atMs).1 := by
  unfold shutdown
  split
  · exact .refl
  · refine (mapRunning_fewer RunningWork.terminated).trans ⟨fun q => ?_, fun _ => rfl, ?_, rfl, rfl⟩
    · exact ((nil_sublist _).append (.refl _)).subperm
    · exact fun request hmem => absurd hmem (by simp)

end LegacyRuntime

/-! ### Runs -/

/-- A question finds no suggestion request in the outbox for a plugin it is put to. -/
def Spaced (rt : LegacyRuntime) (op : Op) : Prop :=
  ∀ addressed ∈ rt.asks op, ∀ p ∈ addressed, rt.Crossed p

/-- A question finds no suggestion request in the outbox at all. -/
def Unhurried (rt : LegacyRuntime) (op : Op) : Prop :=
  (rt.asks op).isSome → ∀ request ∈ rt.outbox, request.callback ≠ .onSuggest

instance (rt : LegacyRuntime) (op : Op) : Decidable (Spaced rt op) :=
  inferInstanceAs (Decidable (∀ addressed ∈ rt.asks op, _))

instance (rt : LegacyRuntime) (op : Op) : Decidable (Unhurried rt op) :=
  inferInstanceAs (Decidable (_ → ∀ request ∈ rt.outbox, request.callback ≠ .onSuggest))

/-- The generation under which a question was put to the plugin. -/
def Event.putTo (p : PluginId) : Event → Option Generation
  | .questioned g _ addressed => if p ∈ addressed then some g else none
  | _ => none

/-- The newest generation addressed to a plugin. -/
def newestFor (past : List Event) (p : PluginId) : Option Generation :=
  (past.filterMap (Event.putTo p)).getLast?

lemma putTo_questionEvents {g : Generation} {query : String} {selected : Option Item}
    {addressed : List PluginId} {rt : LegacyRuntime} (p : PluginId) :
    (questionEvents g query selected addressed rt).filterMap (Event.putTo p) =
      if p ∈ addressed then [g] else [] := by
  have hverdicts : (addressed.filterMap fun q =>
      (rt.inst? q).bind (·.verdict q g query selected)).filterMap (Event.putTo p) = [] := by
    simp only [filterMap_eq_nil_iff, mem_filterMap]
    rintro e ⟨q, -, hq⟩
    obtain ⟨i, -, hverdict⟩ := bind_eq_some_iff.mp hq
    unfold verdict at hverdict
    split at hverdict <;> cases hverdict
    rfl
  by_cases hp : p ∈ addressed <;> simp [questionEvents, Event.putTo, hp, hverdicts]

lemma filterMap_eq_of_nodup {α β : Type} [DecidableEq α] {f : α → Option β} {l : List α} {a : α}
    (hn : l.Nodup) (h : ∀ b ≠ a, f b = none) :
    l.filterMap f = if a ∈ l then (f a).toList else [] := by
  induction l with
  | nil => rfl
  | cons b l ih =>
    obtain ⟨hb, hl⟩ := nodup_cons.mp hn
    by_cases hab : b = a
    · subst hab
      cases hf : f b <;> simp [hf, ih hl, hb]
    · simp [h b hab, ih hl, Ne.symm hab]

/-- At most one suggestion request waits for a plugin, of its newest generation. -/
structure Fresh (newest : PluginId → Option Generation) (rt : LegacyRuntime) : Prop
    extends Named rt where
  live : rt.Live
  slot : ∀ p, (rt.waiting p).Subperm (newest p).toList

namespace Fresh
variable {newest : PluginId → Option Generation} {rt rt' : LegacyRuntime} {p : PluginId}

lemma fewer (h : Fresh newest rt) (hf : rt.Fewer rt') : Fresh newest rt' where
  toNamed := h.toNamed.congr hf.ids hf.nextInstance
  live := hf.live h.live
  slot := fun p => (hf.waiting p).trans (h.slot p)

lemma supersede {id : InstanceId} {visible : List Item} {selected : Option (PluginId × Item)}
    {profile : SchedulingProfile} {compatibility : LegacyCompatibility} (h : Fresh newest rt)
    (hid : id.get = rt.nextInstance + 1) :
    Fresh newest ({ rt with nextInstance := id.get, visible, selected }.supersede p id profile
      compatibility) := by
  generalize hmid : { rt with nextInstance := id.get, visible, selected } = mid
  have hids : ∀ q, mid.idOf q = rt.idOf q := fun q => hmid ▸ rfl
  have hout : mid.outbox = rt.outbox := hmid ▸ rfl
  have hlive : mid.Live := hmid ▸ h.live
  have hview : Replaces rt p (.new id profile compatibility)
      (mid.supersede p id profile compatibility) :=
    fun q => (inst?_supersede id profile compatibility q).trans (hmid ▸ rfl)
  refine ⟨h.toNamed.replace hview hid (hmid ▸ rfl), fun request hr => ?_, fun q => ?_⟩
  · obtain ⟨hr, hp⟩ := supersede_outbox hlive hr
    rw [idOf, hview, if_neg hp]
    exact h.live request (hout ▸ hr)
  by_cases hq : q = p
  · have hnone : (mid.supersede p id profile compatibility).waiting q = [] := by
      have hfilter : (mid.supersede p id profile compatibility).outbox.filter
          (fun request => request.plugin = q && request.callback = .onSuggest) = [] := by
        refine filter_eq_nil_iff.mpr fun request hr => ?_
        simp [hq, (supersede_outbox hlive hr).2]
      rw [waiting, hfilter, hview, if_pos hq]
      rfl
    rw [hnone]
    exact nil_subperm
  · have hsub : (mid.supersede p id profile compatibility).outbox.Sublist rt.outbox :=
      hout ▸ filter_sublist
    refine Subperm.trans (Sublist.subperm ?_) (h.slot q)
    rw [waiting, hview, if_neg hq]
    exact ((hsub.filter _).map _).append (.refl _)

end Fresh

namespace Instance
variable {i : Instance} {p : PluginId} {addressed : List PluginId} {g : Generation} {query : String}
  {selected : Option Item}

/-- What a question leaves for one plugin: a request that goes out at once or a retained one. -/
lemma struck_slot (h : p ∈ addressed) :
    ((i.immediate p g query selected).toList.map (·.generation) ++
      (i.struck p addressed g query selected).pending.toList.map (·.generation)).Sublist [g] := by
  cases himm : i.immediate p g query selected with
  | none =>
    cases hpend : (i.struck p addressed g query selected).pending with
    | none => exact nil_sublist _
    | some v => simp [(struck_pending hpend).2]
  | some request =>
    obtain ⟨hd, hidle, rfl, -⟩ := immediate_eq_some himm
    have hnone : (i.struck p addressed g query selected).pending = none := by
      rw [struck, if_pos ⟨h, hd⟩, asked, put]
      split
      · rfl
      · rw [begin_busy, hidle]
        rfl
    simp [hnone]

lemma struck_passed (h : p ∉ addressed) :
    (i.struck p addressed g query selected).pending = none := by
  rw [struck, if_neg fun hp => h hp.1]
  rfl

end Instance

namespace Fresh
variable {newest newest' : PluginId → Option Generation} {rt rt' : LegacyRuntime} {g : Generation}
  {query : String} {selected : Option Item} {addressed : List PluginId}

lemma ask (h : Fresh newest rt) (hk : Keystroke g query selected addressed rt rt')
    (hnew : ∀ p, newest' p = some g ∧ rt.Crossed p ∨ p ∉ addressed ∧ newest' p = newest p) :
    Fresh newest' rt' := by
  generalize hnow : (addressed.filterMap fun p =>
    (rt.inst? p).bind (·.immediate p g query selected)) = now
  have hout : rt'.outbox = rt.outbox ++ now := hnow ▸ hk.outbox
  -- what goes to the outbox at once
  have hown : ∀ q request, (rt.inst? q).bind (·.immediate q g query selected) = some request →
      request.plugin = q ∧ request.callback = .onSuggest ∧ rt.idOf q = some request.inst := by
    intro q request hr
    obtain ⟨i, hi, himm⟩ := bind_eq_some_iff.mp hr
    obtain ⟨-, -, rfl, -⟩ := immediate_eq_some himm
    refine ⟨rfl, ?_, idOf_eq_some hi⟩
    cases selected <;> rfl
  have hsent : ∀ p, now.filter (fun request => request.plugin = p &&
      request.callback = .onSuggest) =
        if p ∈ addressed then ((rt.inst? p).bind (·.immediate p g query selected)).toList
        else [] := by
    intro p
    rw [← hnow, filter_filterMap, filterMap_eq_of_nodup hk.nodup]
    · cases hr : (rt.inst? p).bind (·.immediate p g query selected) with
      | none => rfl
      | some request => simp [Option.filter, hown p request hr]
    · intro q hq
      cases hr : (rt.inst? q).bind (·.immediate q g query selected) with
      | none => rfl
      | some request => simp [Option.filter, hown q request hr, hq]
  have hclear : ∀ p, rt.Crossed p → rt.outbox.filter
      (fun request => request.plugin = p && request.callback = .onSuggest) = [] := by
    intro p hcrossed
    refine filter_eq_nil_iff.mpr fun request hr hmatch => ?_
    obtain ⟨hp, hcall⟩ := Bool.and_eq_true_iff.mp hmatch
    exact hcrossed request hr (of_decide_eq_true hp) (of_decide_eq_true hcall)
  refine ⟨h.toNamed.congr hk.idOf hk.nextInstance, fun request hr => ?_, fun p => ?_⟩
  · rw [hk.idOf]
    rw [hout] at hr
    cases mem_append.mp hr with
    | inl hold => exact h.live request hold
    | inr hnew =>
      rw [← hnow] at hnew
      obtain ⟨q, -, hr⟩ := mem_filterMap.mp hnew
      obtain ⟨rfl, -, hid⟩ := hown q request hr
      exact hid
  rw [waiting, hout, filter_append, hsent, map_append, append_assoc, hk.inst]
  by_cases hp : p ∈ addressed
  · obtain ⟨hg, hcrossed⟩ := (hnew p).resolve_right fun hpassed => hpassed.1 hp
    rw [hclear p hcrossed, hg, if_pos hp]
    cases rt.inst? p with
    | none => exact nil_subperm
    | some i => exact (struck_slot hp).subperm
  · have hnone : ((rt.inst? p).map (·.struck p addressed g query selected)).bind (·.pending) =
        none := by
      cases rt.inst? p with
      | none => rfl
      | some i => exact struck_passed hp
    rw [if_neg hp, hnone]
    rcases hnew p with ⟨-, hcrossed⟩ | ⟨-, hsame⟩
    · rw [hclear p hcrossed]
      exact nil_subperm
    · rw [hsame]
      exact Subperm.trans ((Sublist.refl _).append (nil_sublist _)).subperm (h.slot p)

lemma free (h : Fresh newest rt) (owner : Option (PluginId × Item)) (text : String) :
    Fresh newest { rt with selected := owner, query := text } :=
  h.fewer ⟨fun _ => refl _, fun _ => rfl, fun _ => .inl, rfl, rfl⟩

/-- A call that puts no question leaves the newest generations; one that does sets those of the
plugins it is put to. -/
lemma step {op : Op} {reply : Reply} {events : List Event} (h : Fresh newest rt)
    (hstep : Legacy.step rt op = some (rt', reply, events)) :
    (Fresh newest rt' ∧ rt'.currentGeneration = rt.currentGeneration ∧
        ∀ p, events.filterMap (Event.putTo p) = []) ∨
      ∃ addressed, rt.asks op = some addressed ∧
        (∀ p, events.filterMap (Event.putTo p) =
          if p ∈ addressed then [rt'.currentGeneration] else []) ∧
        ∀ newest', (∀ p, newest' p = some rt'.currentGeneration ∧ rt.Crossed p ∨
          p ∉ addressed ∧ newest' p = newest p) → Fresh newest' rt' := by
  have hother (hf : rt.Fewer rt') (hnone : ∀ e ∈ events, ∀ p, e.putTo p = none) :
      Fresh newest rt' ∧ rt'.currentGeneration = rt.currentGeneration ∧
        ∀ p, events.filterMap (Event.putTo p) = [] :=
    ⟨h.fewer hf, hf.current, fun p => filterMap_eq_nil_iff.mpr fun e he => hnone e he p⟩
  cases step_called hstep with
  | refused => exact .inl (hother .refl nofun)
  | asked owner text hasks hlive hg =>
    obtain ⟨hk, hevents⟩ := ask_keystroke hlive hg
    refine .inr ⟨_, hasks, fun p => ?_, fun newest' hnew => ?_⟩
    · rw [hevents, putTo_questionEvents, hk.current]
    · exact (h.free owner text).ask hk (by rwa [hk.current] at hnew)
  | replaced selected profile compatibility hid hvis =>
    exact .inl ⟨h.supersede hid, rfl, fun _ => rfl⟩
  | cleared => exact .inl ⟨h.free none rt.query, rfl, fun _ => rfl⟩
  | rebuilt p => exact .inl (hother (edits_fewer catalogRebuild_edits) nofun)
  | ticked now accepts =>
    refine .inl (hother (edits_fewer (tick_edits now accepts).1) fun e he p => ?_)
    obtain ⟨request, accepted, rfl⟩ := tick_events he
    rfl
  | delivered response =>
    exact .inl (hother (deliver_fewer response) fun e he p => deliver_events he ▸ rfl)
  | stopped atMs => exact .inl (hother (shutdown_fewer atMs) fun e he p => shutdown_events he ▸ rfl)

lemma new (deadlines : LegacyDeadlines) : Fresh newest (.new deadlines) where
  toNamed := .new deadlines
  live := fun request h => absurd h (by simp [LegacyRuntime.new])
  slot := fun p => nil_subperm

lemma uncrossed_eq {p : PluginId} {i : Instance} (h : Fresh newest rt) (hi : rt.inst? p = some i) :
    rt.uncrossed i = rt.waiting p := by
  rw [uncrossed, waiting, hi]
  congr 2
  refine filter_congr fun request hr => ?_
  congr 1
  obtain ⟨j, hj, hid⟩ := map_eq_some_iff.mp (h.live request hr)
  rw [decide_eq_decide, ← hid]
  constructor
  · exact fun hsame => h.apart _ _ j i hj hi hsame
  · rintro rfl
    rw [some_inj.mp (hj.symm.trans hi)]

lemma current {p : PluginId} (h : Fresh newest rt) (hg : g ∈ rt.waiting p) : newest p = some g :=
  mem_toList.mp ((h.slot p).subset hg)

lemma uncrossed {p : PluginId} {i : Instance} (h : Fresh newest rt) (hi : rt.inst? p = some i) :
    (rt.uncrossed i).length ≤ 1 ∧ ∀ g ∈ rt.uncrossed i, newest p = some g := by
  rw [h.uncrossed_eq hi]
  exact ⟨(h.slot p).length_le.trans (length_toList_le), fun g => h.current⟩

end Fresh

section
variable {deadlines : LegacyDeadlines} {tr : List (Op × Reply × List Event)} {rt : LegacyRuntime}

lemma fresh_of_spaced (h : ExecWhen step Spaced (.new deadlines) tr rt) :
    Fresh (newestFor (log tr)) rt := by
  refine ExecWhen.invariant (fun tr rt => Fresh (newestFor (log tr)) rt) (.new deadlines) ?_ h
  rintro tr rt op rt' ⟨reply, events⟩ hI hspaced hstep
  have happend : ∀ p, newestFor (log tr ++ events) p =
      (log tr |>.filterMap (Event.putTo p) |>.append (events.filterMap (Event.putTo p))).getLast? :=
    fun p => congrArg getLast? (filterMap_append)
  rw [log_concat]
  rcases hI.step hstep with ⟨hfresh, -, hnone⟩ | ⟨addressed, hasks, hput, hfresh⟩
  · have hsame : newestFor (log tr ++ events) = newestFor (log tr) := by
      funext p
      rw [happend, hnone]
      exact congrArg getLast? (append_nil _)
    exact hsame ▸ hfresh
  · refine hfresh _ fun p => ?_
    rw [happend, hput]
    by_cases hp : p ∈ addressed
    · rw [if_pos hp]
      exact .inl ⟨getLast?_concat, hspaced addressed hasks p hp⟩
    · rw [if_neg hp]
      exact .inr ⟨hp, congrArg getLast? (append_nil _)⟩

lemma fresh_of_unhurried (h : ExecWhen step Unhurried (.new deadlines) tr rt) :
    Fresh (fun _ => some rt.currentGeneration) rt := by
  refine ExecWhen.invariant (fun _ rt => Fresh (fun _ => some rt.currentGeneration) rt)
    (.new deadlines) ?_ h
  rintro tr rt op rt' ⟨reply, events⟩ hI hunhurried hstep
  rcases hI.step hstep with ⟨hfresh, hsame, -⟩ | ⟨addressed, hasks, -, hfresh⟩
  · exact hsame ▸ hfresh
  · refine hfresh _ fun p => .inl ⟨rfl, fun request hr _ => ?_⟩
    exact hunhurried (by rw [hasks]; rfl) request hr

end

/-- As long as every question finds the outbox clear of suggestions for those it is put to, an
instance has at most one that has not crossed the boundary, of the newest generation addressed to
its plugin. Where it finds none at all, that is the current generation, which a suggestion request
that a tick returns carries, too. Whatever is delivered does not matter. -/
theorem suggestions_current {deadlines : LegacyDeadlines} {tr : List (Op × Reply × List Event)}
    {rt : LegacyRuntime} :
    (ExecWhen step Spaced (.new deadlines) tr rt → ∀ p i, rt.inst? p = some i →
        (rt.uncrossed i).length ≤ 1 ∧ ∀ g ∈ rt.uncrossed i, newestFor (log tr) p = some g) ∧
      (ExecWhen step Unhurried (.new deadlines) tr rt →
        (∀ now accepts, ∀ request ∈ (rt.tick now accepts).2.1, request.callback = .onSuggest →
          request.generation = rt.currentGeneration) ∧
        ∀ p i, rt.inst? p = some i → (rt.uncrossed i).length ≤ 1 ∧
          ∀ g ∈ rt.uncrossed i, g = rt.currentGeneration) := by
  refine ⟨fun h p i hi => ?_, fun h => ⟨fun now accepts request hr hcall => ?_, fun p i hi => ?_⟩⟩
  · exact (fresh_of_spaced h).uncrossed hi
  · have hcurrent := (fresh_of_unhurried h).current (mem_waiting_of_tick hr hcall)
    exact (some_inj.mp hcurrent).symm
  · obtain ⟨hone, hcurrent⟩ := (fresh_of_unhurried h).uncrossed hi
    exact ⟨hone, fun g hg => (some_inj.mp (hcurrent g hg)).symm⟩

/-- Each keystroke is handed over before the next, which the callback in flight then holds back. -/
def tickedBetween : List Op :=
  begun ++ [.submitQuery "a", .tick 1 [], .submitQuery "ab", .tick 2 [], .submitQuery "abc",
    .deliver ⟨⟨"apps"⟩, ⟨1⟩, ⟨1⟩, .onSuggest, .suggestions []⟩]

theorem suggestions_current_typed : ∃ tr rt,
    ExecWhen step Unhurried (.new ⟨5000, 120000, 2000⟩) tr rt ∧
      (rt.tick 3 []).2.1 = [⟨⟨"apps"⟩, ⟨1⟩, ⟨3⟩, .initialSuggest "abc"⟩] ∧
      ∀ request ∈ (rt.tick 3 []).2.1, request.callback = .onSuggest →
        request.generation = rt.currentGeneration := by
  obtain ⟨tr, rt, hexec, hout⟩ := execWhen_of_eval step Unhurried (.new ⟨5000, 120000, 2000⟩)
    tickedBetween (fun rt => (rt.tick 3 []).2.1 = [⟨⟨"apps"⟩, ⟨1⟩, ⟨3⟩, .initialSuggest "abc"⟩])
    (by decide +kernel)
  exact ⟨tr, rt, hexec, hout, (suggestions_current.2 hexec).1 3 []⟩

/-- Two keystrokes between two ticks: the first request stays in the outbox beside the retained
second one, and is handed over although its query is no longer the current one. The only callback
handed over before, `on_start`, is answered once. -/
theorem second_keystroke_leaves_first : ∃ tr rt i, Exec step (.new ⟨5000, 120000, 2000⟩) tr rt ∧
      tr.map Prod.fst = begun ++ [.submitQuery "a", .submitQuery "b"] ∧
      rt.currentGeneration = ⟨2⟩ ∧ rt.inst? ⟨"apps"⟩ = some i ∧ rt.uncrossed i = [⟨1⟩, ⟨2⟩] ∧
      (rt.tick 2 []).2.1 = [⟨⟨"apps"⟩, ⟨1⟩, ⟨1⟩, .initialSuggest "a"⟩] := by
  obtain ⟨rt, tr, hrun, hout⟩ := run_of_eval step (.new ⟨5000, 120000, 2000⟩)
    (begun ++ [.submitQuery "a", .submitQuery "b"])
    (fun rt _ => rt.currentGeneration = ⟨2⟩ ∧
      (rt.inst? ⟨"apps"⟩).map (fun i => rt.uncrossed i) = some [⟨1⟩, ⟨2⟩] ∧
      (rt.tick 2 []).2.1 = [⟨⟨"apps"⟩, ⟨1⟩, ⟨1⟩, .initialSuggest "a"⟩]) (by decide +kernel)
  obtain ⟨hexec, hops⟩ := exec_of_run hrun
  obtain ⟨hcurrent, huncrossed, hticked⟩ := hout
  obtain ⟨i, hi, huncrossed⟩ := map_eq_some_iff.mp huncrossed
  exact ⟨tr, rt, i, hexec, hops, hcurrent, hi, huncrossed, hticked⟩

end CriKey.Legacy
