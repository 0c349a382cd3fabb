import CriKey.Ui.Launcher

/-! Where the rows on the screen come from. The history of the launcher is read off its operations
alone: when it was shown and hidden, which generations were begun and which results were handed in
for the newest of them. -/
namespace CriKey.Ui
open CriKey.Base CriKey.Core LauncherViewModel List List.Subset LauncherOutput

/-- Lists are newest first. `session` and `published` belong to the time since the launcher was last
shown; a result counts as published when its generation is the newest one begun in that time. -/
structure History where
  visible : Bool
  begun : List Generation
  session : List Generation
  published : List (Generation × List ResultRow)

namespace History

def start : History := ⟨false, [], [], []⟩

/-- A generation is begun while the launcher is shown, once, and after all older ones. -/
def Begins (h : History) (g : Generation) : Prop :=
  h.visible = true ∧ g ≠ Generation.zero ∧ ∀ b ∈ h.begun, b < g

instance (h : History) (g : Generation) : Decidable (h.Begins g) :=
  inferInstanceAs (Decidable (_ ∧ _ ∧ _))

def read (h : History) : LauncherOp × LauncherOutput → History
  | (.activate, _) =>
    if h.visible then h else { h with visible := true, session := [], published := [] }
  | (.dismiss, _) => { h with visible := false }
  | (.apply _, .effect (some .dismissed)) => { h with visible := false }
  | (.beginGeneration g, _) =>
    if h.Begins g then { h with begun := g :: h.begun, session := g :: h.session } else h
  | (.publish g rows _, _) =>
    if h.visible ∧ h.session.head? = some g then { h with published := (g, rows) :: h.published }
    else h
  | _ => h

end History

def historyOf (tr : List (LauncherOp × LauncherOutput)) : History :=
  tr.foldl History.read History.start

/-- The rows of a frame, if it has any, and the history before it. -/
def shownBy (h : History) : LauncherOp × LauncherOutput → List (History × List ResultRow)
  | (_, .frame (some model)) => if model.rows = [] then [] else [(h, model.rows)]
  | _ => []

def displaysFrom (h : History) : List (LauncherOp × LauncherOutput) →
    List (History × List ResultRow)
  | [] => []
  | entry :: tr => shownBy h entry ++ displaysFrom (h.read entry) tr

def displays (tr : List (LauncherOp × LauncherOutput)) : List (History × List ResultRow) :=
  displaysFrom History.start tr

/-- The same rows, but for what their status lines say. -/
def SameRows (a b : List ResultRow) : Prop :=
  a.map (fun row => { row with status := none }) = b.map fun row => { row with status := none }

/-- A set of rows on the screen was published for this generation in this session. -/
def ShownFor (g : Generation) (shown : History × List ResultRow) : Prop :=
  ∃ rows, (g, rows) ∈ shown.1.published ∧ SameRows rows shown.2

/-! ## The model keeps to its history -/

structure Agrees (h : History) (m : LauncherViewModel) : Prop where
  visible : m.visible = h.visible
  floor : m.floor = h.begun.head?
  descending : h.begun.Pairwise (· > ·)
  active : m.active = if h.visible then h.session.head? else none
  recent : h.session <+: h.begun
  known : ∀ entry ∈ h.published, entry.1 ∈ h.begun
  rows : m.rows ≠ [] → h.visible = true ∧
    ∃ entry, h.published.head? = some entry ∧ SameRows entry.2 m.rows

variable {h : History} {m m' : LauncherViewModel}

lemma agrees_start : Agrees .start .new :=
  ⟨rfl, rfl, .nil, rfl, nil_prefix, nofun, fun hne => absurd rfl hne⟩

namespace Agrees

variable (ha : Agrees h m)
include ha

lemma congr (hkept : Kept m m') : Agrees h m' :=
  ⟨hkept.visible.trans ha.visible, hkept.floor.trans ha.floor, ha.descending,
    hkept.active.trans ha.active, ha.recent, ha.known, by rw [hkept.rows]; exact ha.rows⟩

lemma activate : Agrees (h.read (.activate, .done)) m.activate := by
  rw [LauncherViewModel.activate, History.read]
  cases hvisible : h.visible with
  | true =>
    rw [if_pos (ha.visible.trans hvisible), if_pos rfl]
    exact ha
  | false =>
    have hhidden : ¬ m.visible = true := by simp [ha.visible, hvisible]
    rw [if_neg hhidden]
    refine ⟨rfl, ha.floor, ha.descending, ?_, nil_prefix, nofun, fun hne => ?_⟩
    · have hactive := ha.active
      rw [hvisible] at hactive
      exact hactive
    · obtain ⟨hshown, -⟩ := ha.rows hne
      rw [hvisible] at hshown
      cases hshown

lemma dismiss : Agrees { h with visible := false } m.dismiss := by
  rw [LauncherViewModel.dismiss]
  cases hvisible : h.visible with
  | true =>
    have hshown : (!m.visible) = false := by rw [ha.visible, hvisible]; rfl
    rw [hshown]
    exact ⟨rfl, ha.floor, ha.descending, rfl, ha.recent, ha.known, fun hne => absurd rfl hne⟩
  | false =>
    have hhidden : (!m.visible) = true := by rw [ha.visible, hvisible]; rfl
    rw [if_pos hhidden, ← hvisible]
    exact ha

lemma refuses_iff (g : Generation) : m.refuses g = true ↔ ¬ h.Begins g := by
  have hnewest : (m.floor.any fun floor => decide (g ≤ floor)) = true ↔ ∃ b ∈ h.begun, g ≤ b := by
    rw [ha.floor]
    cases hbegun : h.begun with
    | nil => simp
    | cons newest older =>
      have hdescending := ha.descending
      rw [hbegun, pairwise_cons] at hdescending
      constructor
      · intro hle
        exact ⟨newest, mem_cons_self, by simpa using hle⟩
      · intro ⟨b, hb, hle⟩
        cases mem_cons.mp hb with
        | inl heq => simpa [heq] using hle
        | inr hb => simpa using hle.trans (hdescending.1 b hb).le
  simp only [refuses, Bool.or_eq_true, hnewest, ha.visible, History.Begins,
    Bool.not_eq_true', decide_eq_true_eq, not_and_or, not_forall, not_lt, ne_eq, not_not,
    Bool.not_eq_true, or_assoc, exists_prop]

lemma beginGeneration (g : Generation) :
    Agrees (h.read (.beginGeneration g, .done)) (m.beginGeneration g) := by
  rw [LauncherViewModel.beginGeneration, History.read]
  by_cases hbegins : h.Begins g
  · have haccepted : ¬ m.refuses g = true := fun hrefuses => (ha.refuses_iff g).mp hrefuses hbegins
    rw [if_neg haccepted, if_pos hbegins]
    refine ⟨ha.visible, rfl, pairwise_cons.mpr ⟨hbegins.2.2, ha.descending⟩, ?_,
      (prefix_cons_inj g).mpr ha.recent,
      fun entry hentry => mem_cons_of_mem g (ha.known entry hentry), ha.rows⟩
    rw [if_pos hbegins.1]
    rfl
  · rw [if_pos ((ha.refuses_iff g).mpr hbegins), if_neg hbegins]
    exact ha

lemma publish (g : Generation) (rows : List ResultRow) (pending : Bool) :
    Agrees (h.read (.publish g rows pending, .done)) (m.publish g rows pending) := by
  rw [LauncherViewModel.publish, History.read]
  by_cases hnewest : h.visible = true ∧ h.session.head? = some g
  · have hactive : m.active = some g := by rw [ha.active, if_pos hnewest.1, hnewest.2]
    have haccepted : ¬ (!m.visible || decide (m.active ≠ some g)) = true := by
      simp [ha.visible, hnewest.1, hactive]
    rw [if_neg haccepted, if_pos hnewest]
    have hbegun : g ∈ h.begun := ha.recent.subset (mem_of_mem_head? hnewest.2)
    refine { ha with
      known := forall_mem_cons.mpr ⟨hbegun, ha.known⟩
      rows := fun hne => ⟨hnewest.1, (g, rows), rfl, ?_⟩ }
    dsimp only at hne ⊢
    split
    case isTrue hempty => exact absurd (if_pos hempty) hne
    case isFalse => rfl
  · have hrefused : (!m.visible || decide (m.active ≠ some g)) = true := by
      rw [Bool.or_eq_true, Bool.not_eq_true', decide_eq_true_eq, ha.visible, ha.active]
      cases hvisible : h.visible with
      | false => exact .inl rfl
      | true => exact .inr fun heq => hnewest ⟨hvisible, by simpa using heq⟩
    rw [if_pos hrefused, if_neg hnewest]
    exact ha

lemma select (target : Nat) : Agrees h (m.select target) := by
  rw [LauncherViewModel.select]
  split
  · exact ha
  dsimp only
  split
  · exact ha
  · exact { ha with }

lemma retype (text : String) : Agrees h (m.retype text).1 := by
  rw [LauncherViewModel.retype]
  split
  · exact ha
  dsimp only
  split
  · exact { ha with rows := fun hne => absurd rfl hne }
  · exact { ha with }

lemma setSelectedStatus (status : String) : Agrees h (m.setSelectedStatus status).1 := by
  rw [LauncherViewModel.setSelectedStatus]
  split
  · exact ha
  case h_2 row hrow =>
    split
    · exact ha
    refine { ha with rows := fun _ => ?_ }
    have hne : m.rows ≠ [] := fun hnone => by
      rw [hnone] at hrow
      cases hrow
    obtain ⟨hshown, entry, hentry, hsame⟩ := ha.rows hne
    refine ⟨hshown, entry, hentry, hsame.trans ?_⟩
    obtain ⟨hlt, hget⟩ := List.getElem?_eq_some_iff.mp hrow
    have hself : m.rows.map (fun row => { row with status := none }) =
        (m.rows.map fun row => { row with status := none }).set m.selected
          { row with status := none } := by
      rw [← map_set, ← hget, set_getElem_self]
    rw [hself, map_set]

end Agrees

lemma read_apply {command : UiCommand} {effect : Option UiEffect}
    (hkeeps : effect ≠ some .dismissed) : h.read (.apply command, .effect effect) = h := by
  rw [History.read.eq_def]
  split
  case h_3 heq =>
    obtain ⟨-, heffect⟩ := Prod.mk.inj heq
    exact absurd (LauncherOutput.effect.inj heffect) hkeeps
  all_goals
    first
      | rfl
      | (rename_i heq; cases heq)

lemma retype_effect (text : String) : (m.retype text).2 ≠ some .dismissed := by
  rw [retype]
  split
  · simp
  · simp

lemma complete_effect : m.complete.2 ≠ some .dismissed := by
  rw [complete]
  split
  · simp
  · split
    · simp
    · simp

lemma execute_effect (pick : ResultRow → Option Core.Action) :
    (m.execute pick).2 ≠ some .dismissed := by
  rw [execute]
  split
  · simp
  · split
    · simp
    · simp

lemma Agrees.cancel (ha : Agrees h m) :
    Agrees (h.read (.apply .cancel, .effect m.cancel.2)) m.cancel.1 := by
  rw [LauncherViewModel.cancel]
  split
  · exact ha.congr m.kept_closePage
  split
  · exact ha.congr m.kept_closeSettings
  split
  · exact ha.congr m.kept_closeActions
  split
  · rw [read_apply (retype_effect "")]
    exact ha.retype ""
  · exact ha.dismiss

lemma Agrees.apply (ha : Agrees h m) (command : UiCommand) :
    Agrees (h.read (.apply command, .effect (m.apply command).2)) (m.apply command).1 := by
  rw [apply.eq_def]
  split
  · exact ha
  cases command with
  | setQuery text =>
    rw [read_apply (retype_effect text)]
    exact ha.retype text
  | selectNext | selectPrevious | pageDown | pageUp => exact ha.select _
  | complete =>
    rw [read_apply complete_effect]
    exact ha.congr m.kept_complete
  | showActions => exact ha.congr m.kept_openActions
  | executeDefault | executeAlternate index =>
    rw [read_apply (execute_effect _)]
    exact ha.congr (m.kept_execute _)
  | cancel => exact ha.cancel
  | dismiss => exact ha.dismiss
  | openSettings =>
    rw [read_apply (by dsimp only; split <;> simp)]
    exact ha.congr (m.kept_openSettings none)
  | closeSettings => exact ha.congr m.kept_closeSettings
  | pageInput input | webInput input | webIme event => exact ha
  | closePage => exact ha.congr m.kept_closePage
  | resizePage width height =>
    rw [read_apply (by dsimp only; split <;> simp)]
    exact ha
  | setSetting key value | quit => exact ha

lemma Agrees.run (ha : Agrees h m) (op : LauncherOp) :
    Agrees (h.read (op, (op.run m).2)) (op.run m).1 := by
  cases op with
  | activate => exact ha.activate
  | dismiss => exact ha.dismiss
  | beginGeneration generation => exact ha.beginGeneration generation
  | publish generation rows pending => exact ha.publish generation rows pending
  | frame => exact ha.congr m.kept_frame
  | apply command => exact ha.apply command
  | setSelectedStatus status => exact ha.setSelectedStatus status
  | setSettings settings => exact ha.congr (m.kept_setSettings settings)
  | setShowHints shown => exact ha.congr (m.kept_setShowHints shown)
  | setRoundedCorners rounded => exact ha.congr (m.kept_setRoundedCorners rounded)
  | openSettings focus => exact ha.congr (m.kept_openSettings focus)
  | closeSettings => exact ha.congr m.kept_closeSettings
  | openPage surface => exact ha.congr (m.kept_openPage surface)
  | updatePage frame stale | declareWebSurface surfaceId | updateWebFrame frame
  | clearWebFrame surfaceId | updateWebCaretArea surfaceId area =>
    exact ha.congr (m.kept_editPage _)
  | closePage => exact ha.congr m.kept_closePage

/-! ## What is on the screen -/

section
variable {tr tr' : List (LauncherOp × LauncherOutput)} {entry : LauncherOp × LauncherOutput}

lemma historyOf_concat : historyOf (tr ++ [entry]) = (historyOf tr).read entry := by
  rw [historyOf, foldl_append]
  rfl

lemma displaysFrom_append : displaysFrom h (tr ++ tr') =
    displaysFrom h tr ++ displaysFrom (tr.foldl History.read h) tr' := by
  induction tr generalizing h with
  | nil => rfl
  | cons entry tr ih =>
    rw [cons_append, displaysFrom, displaysFrom, ih, append_assoc]
    rfl

lemma displays_concat : displays (tr ++ [entry]) = displays tr ++ shownBy (historyOf tr) entry := by
  rw [displays, displaysFrom_append, displaysFrom, displaysFrom, append_nil]
  rfl

lemma begun_subset_read : h.begun ⊆ (h.read entry).begun := by
  rw [History.read.eq_def]
  split
  · split
    · exact refl _
    · exact refl _
  · exact refl _
  · exact refl _
  · split
    · exact subset_cons_self _ _
    · exact refl _
  · split
    · exact refl _
    · exact refl _
  · exact refl _

lemma published_read {p : Generation × List ResultRow}
    (hp : (h.read entry).published.head? = some p) :
    h.published.head? = some p ∨ h.session.head? = some p.1 := by
  rw [History.read.eq_def] at hp
  split at hp
  · split at hp
    · exact .inl hp
    · cases hp
  · exact .inl hp
  · exact .inl hp
  · split at hp
    · exact .inl hp
    · exact .inl hp
  · split at hp
    case isTrue hnewest => exact .inr (Option.some.inj hp ▸ hnewest.2)
    case isFalse => exact .inl hp
  · exact .inl hp

lemma frame_rows {op : LauncherOp} {model : ViewModel}
    (hframe : (op.run m).2 = .frame (some model)) :
    model.rows = m.rows := by
  cases op with
  | frame =>
    simp only [LauncherOp.run, LauncherViewModel.frame] at hframe
    split at hframe
    · cases hframe
    · exact (congrArg ViewModel.rows (Option.some.inj (frame.inj hframe))).symm
  | _ => cases hframe

/-- The generations of the row sets shown so far, in the order of the frames. -/
structure Labels (tr : List (LauncherOp × LauncherOutput)) (labels : List Generation) : Prop where
  shown : List.Forall₂ ShownFor labels (displays tr)
  ordered : labels.Pairwise (· ≤ ·)
  begun : ∀ l ∈ labels, l ∈ (historyOf tr).begun
  current : ∀ p, (historyOf tr).published.head? = some p → ∀ l ∈ labels, l ≤ p.1

lemma Agrees.newest (ha : Agrees h m) {g l : Generation} (hg : h.session.head? = some g)
    (hl : l ∈ h.begun) : l ≤ g := by
  obtain ⟨rest, hrest⟩ := ha.recent
  have hdescending := ha.descending
  cases hsession : h.session with
  | nil => rw [hsession] at hg; cases hg
  | cons newest older =>
    rw [hsession] at hg hrest
    cases hg
    rw [← hrest, cons_append, pairwise_cons] at hdescending
    rw [← hrest, cons_append] at hl
    cases mem_cons.mp hl with
    | inl heq => exact heq.le
    | inr hl => exact (hdescending.1 l hl).le

lemma Labels.step {labels : List Generation} (hlabels : Labels tr labels)
    (ha : Agrees (historyOf tr) m) (op : LauncherOp) :
    ∃ labels', Labels (tr ++ [(op, (op.run m).2)]) labels' := by
  have hcurrent : ∀ p, ((historyOf tr).read (op, (op.run m).2)).published.head? = some p →
      ∀ l ∈ labels, l ≤ p.1 := by
    intro p hp l hl
    cases published_read hp with
    | inl hbefore => exact hlabels.current p hbefore l hl
    | inr hnewest => exact ha.newest hnewest (hlabels.begun l hl)
  have hbegun : ∀ l ∈ labels, l ∈ (historyOf (tr ++ [(op, (op.run m).2)])).begun := by
    intro l hl
    rw [historyOf_concat]
    exact begun_subset_read (hlabels.begun l hl)
  by_cases hshows : ∃ model, (op.run m).2 = .frame (some model) ∧ model.rows ≠ []
  · obtain ⟨model, hframe, hne⟩ := hshows
    have hrows := frame_rows hframe
    rw [hrows] at hne
    obtain ⟨-, published, hpublished, hsame⟩ := ha.rows hne
    have hread : (historyOf tr).read (op, (op.run m).2) = historyOf tr := by
      rw [hframe]
      cases op with
      | frame => rfl
      | _ => cases hframe
    refine ⟨labels ++ [published.1], ?_, ?_, ?_, ?_⟩
    · rw [displays_concat, hframe, shownBy, if_neg (hrows ▸ hne)]
      refine rel_append hlabels.shown (List.Forall₂.cons ?_ .nil)
      exact ⟨published.2, mem_of_mem_head? hpublished, hrows ▸ hsame⟩
    · rw [pairwise_append]
      refine ⟨hlabels.ordered, pairwise_singleton _ _, fun l hl g hg => ?_⟩
      rw [mem_singleton.mp hg]
      exact hlabels.current published hpublished l hl
    · intro l hl
      cases mem_append.mp hl with
      | inl hl => exact hbegun l hl
      | inr hl =>
        rw [mem_singleton.mp hl, historyOf_concat, hread]
        exact ha.known published (mem_of_mem_head? hpublished)
    · intro p hp l hl
      rw [historyOf_concat, hread, hpublished] at hp
      cases mem_append.mp hl with
      | inl hl => exact Option.some.inj hp ▸ hlabels.current published hpublished l hl
      | inr hl => rw [mem_singleton.mp hl, Option.some.inj hp]
  · refine ⟨labels, ?_, hlabels.ordered, hbegun, fun p hp => hcurrent p (historyOf_concat ▸ hp)⟩
    have hnothing : shownBy (historyOf tr) (op, (op.run m).2) = [] := by
      rw [shownBy.eq_def]
      split
      case h_1 model heq =>
        obtain ⟨-, hframe⟩ := Prod.mk.inj heq
        split
        · rfl
        case isFalse hne => exact absurd ⟨model, hframe, hne⟩ hshows
      case h_2 => rfl
    rw [displays_concat, hnothing, append_nil]
    exact hlabels.shown

end

/-! ## Generations of an ended session -/

/-- The generations in `old` are behind: none of them is in the running session. -/
structure Retired (old : List Generation) (h : History) : Prop where
  begun : old ⊆ h.begun
  behind : h.visible = true → ∀ g ∈ h.session, ∀ b ∈ old, b < g

variable {old : List Generation}

lemma Retired.read {entry : LauncherOp × LauncherOutput} (hr : Retired old h) :
    Retired old (h.read entry) := by
  rw [History.read.eq_def]
  split
  · split
    · exact hr
    · exact ⟨hr.begun, nofun⟩
  · exact ⟨hr.begun, nofun⟩
  · exact ⟨hr.begun, nofun⟩
  · split
    case isTrue hbegins =>
      refine ⟨fun b hb => mem_cons_of_mem _ (hr.begun hb), fun hvisible g hg b hb => ?_⟩
      cases mem_cons.mp hg with
      | inl heq => exact heq ▸ hbegins.2.2 b (hr.begun hb)
      | inr hg => exact hr.behind hvisible g hg b hb
    case isFalse => exact hr
  · split
    · exact ⟨hr.begun, hr.behind⟩
    · exact hr
  · exact hr

lemma Retired.run (hr : Retired old h) (tr : List (LauncherOp × LauncherOutput)) :
    Retired old (tr.foldl History.read h) := by
  induction tr generalizing h with
  | nil => exact hr
  | cons entry tr ih => exact ih hr.read

lemma Agrees.retired (ha : Agrees h m) (hr : Retired old h) {g : Generation} (hg : g ∈ old)
    (rows : List ResultRow) (pending : Bool) :
    m.beginGeneration g = m ∧ m.publish g rows pending = m := by
  have hnot : ¬ h.Begins g := fun hbegins => lt_irrefl g (hbegins.2.2 g (hr.begun hg))
  refine ⟨if_pos ((ha.refuses_iff g).mpr hnot), if_pos ?_⟩
  rw [Bool.or_eq_true, Bool.not_eq_true', decide_eq_true_eq, ha.visible, ha.active]
  cases hvisible : h.visible with
  | false => exact .inl rfl
  | true =>
    refine .inr fun heq => ?_
    have hhead : h.session.head? = some g := by simpa using heq
    exact lt_irrefl g (hr.behind hvisible g (mem_of_mem_head? hhead) g hg)

/-- In every run: each set of rows on the screen was published, for a generation begun since the
launcher was shown and the newest one at that moment; the generations of the row sets never go back;
and a generation begun before a dismissal is neither begun nor published again. -/
theorem late_results_stay_out {tr : List (LauncherOp × LauncherOutput)} {m : LauncherViewModel}
    (h : Exec launcherStep .new tr m) :
    (∃ labels : List Generation, List.Forall₂ ShownFor labels (displays tr) ∧
      labels.Pairwise (· ≤ ·)) ∧
    ∀ before entry after, tr = before ++ entry :: after → (historyOf before).visible = true →
      (historyOf (before ++ [entry])).visible = false →
      ∀ g ∈ (historyOf before).begun, ∀ rows pending,
        m.beginGeneration g = m ∧ m.publish g rows pending = m := by
  have hagrees : Agrees (historyOf tr) m ∧ ∃ labels, Labels tr labels := by
    refine h.invariant (fun tr m => Agrees (historyOf tr) m ∧ ∃ labels, Labels tr labels) ?_ ?_
    · exact ⟨agrees_start, [], .nil, .nil, nofun, nofun⟩
    · intro tr m op m' output _ hm hstep
      obtain ⟨ha, labels, hlabels⟩ := hm
      obtain ⟨hm', houtput⟩ := Prod.mk.inj (Option.some.inj hstep)
      rw [← hm', ← houtput, historyOf_concat]
      exact ⟨ha.run op, hlabels.step ha op⟩
  obtain ⟨ha, labels, hlabels⟩ := hagrees
  refine ⟨⟨labels, hlabels.shown, hlabels.ordered⟩, ?_⟩
  intro before entry after htr hshown hhidden g hg rows pending
  have hretired : Retired (historyOf before).begun (historyOf (before ++ [entry])) := by
    refine ⟨?_, fun hvisible => ?_⟩
    · rw [historyOf_concat]
      exact begun_subset_read
    · rw [hhidden] at hvisible
      cases hvisible
  have hlater : historyOf tr = after.foldl History.read (historyOf (before ++ [entry])) := by
    rw [htr, historyOf, historyOf, ← foldl_append, append_assoc]
    rfl
  exact ha.retired (hlater ▸ hretired.run after) hg rows pending

def foundRow : ResultRow :=
  { item := ⟨"notes"⟩, label := "Notes", description := "", iconReference := none,
    category := "application", pluginName := "files", highlights := [], argumentHint := none,
    status := none, defaultAction := none, alternateActions := [] }

/-- One row is shown, the launcher is dismissed and shown again: the row was the first generation's,
and nothing of that generation comes back. -/
theorem reopened_launcher_is_clean : ∃ tr m, Exec launcherStep .new tr m ∧ m.visible = true ∧
      (∃ g, (displays tr).length = 1 ∧ ∀ shown ∈ displays tr, ShownFor g shown) ∧
      ∀ rows pending, m.beginGeneration ⟨1⟩ = m ∧ m.publish ⟨1⟩ rows pending = m := by
  have hstart : Exec launcherStep .new [] .new := .start
  have hshown := hstart.next (i := .activate) rfl
  have htyped := hshown.next (i := .apply (.setQuery "a")) rfl
  have hbegun := htyped.next (i := .beginGeneration ⟨1⟩) rfl
  have hpublished := hbegun.next (i := .publish ⟨1⟩ [foundRow] false) rfl
  have hframe := hpublished.next (i := .frame) rfl
  have hdismissed := hframe.next (i := .dismiss) rfl
  have hreopened := hdismissed.next (i := .activate) rfl
  obtain ⟨⟨labels, hlabels, -⟩, hretired⟩ := late_results_stay_out hreopened
  refine ⟨_, _, hreopened, rfl, ?_, hretired _ (.dismiss, .done) [(.activate, .done)]
    (append_assoc _ [(LauncherOp.dismiss, done)]
      [(LauncherOp.activate, done)]) rfl rfl ⟨1⟩ mem_cons_self⟩
  cases hlabels with
  | cons hfirst hrest =>
    cases hrest with
    | nil => exact ⟨_, rfl, fun shown hmem => mem_singleton.mp hmem ▸ hfirst⟩

end CriKey.Ui
