import CriKey.Ui.Launcher

/-! What holds of the launcher's view model between any two operations. -/
namespace CriKey.Ui
open CriKey.Base CriKey.Core LauncherViewModel List Option

/-- The joint invariant of the query, the rows, the selection and what lies over them. -/
structure Sound (m : LauncherViewModel) : Prop where
  hidden : m.visible = false → m.rows = []
  untyped : m.query = "" → m.rows = []
  unselected : m.rows = [] → m.selected = 0
  selected : m.rows ≠ [] → m.selected < m.rows.length
  actions : m.actionsOpen = true → ∃ row, m.rows[m.selected]? = some row ∧ row.alternateActions ≠ []
  exclusive : m.settingsOpen = true → m.page = none
  pageless : m.visible = false → m.page = none

/-- A query is completed from a row that has a label. -/
def Labelled (m : LauncherViewModel) (op : LauncherOp) : Prop :=
  op = .apply .complete → ∀ row, m.rows[m.selected]? = some row → row.label ≠ ""

variable {m : LauncherViewModel}

lemma sound_new : Sound .new where
  hidden _ := rfl
  untyped _ := rfl
  unselected _ := rfl
  selected h := absurd rfl h
  actions h := by cases h
  exclusive h := by cases h
  pageless _ := rfl

namespace Sound

lemma activate (h : Sound m) : Sound m.activate := by
  rw [LauncherViewModel.activate]
  split
  · exact h
  · exact { h with hidden := nofun, pageless := nofun }

lemma dismiss (h : Sound m) : Sound m.dismiss := by
  rw [LauncherViewModel.dismiss]
  split
  · exact h
  · exact ⟨fun _ => rfl, fun _ => rfl, fun _ => rfl, fun hne => absurd rfl hne, nofun, nofun,
      fun _ => rfl⟩

lemma beginGeneration (h : Sound m) (generation : Generation) :
    Sound (m.beginGeneration generation) := by
  rw [LauncherViewModel.beginGeneration]
  split
  · exact h
  · exact { h with }

lemma resolveSelection_lt {incoming : List ResultRow} (generation : Generation)
    (hne : incoming ≠ []) : m.resolveSelection incoming generation < incoming.length := by
  have hpos : 0 < incoming.length := length_pos_iff.mpr hne
  rw [resolveSelection, if_neg hne]
  split
  · exact hpos
  split
  · exact hpos
  split
  · exact hpos
  case h_2 row hrow =>
    cases hfind : incoming.findIdx? fun candidate => candidate.item = row.item with
    | none =>
      rw [getD_none]
      omega
    | some index =>
      obtain ⟨hindex, -⟩ := findIdx?_eq_some_iff_getElem.mp hfind
      exact hindex

section
variable (h : Sound m)
include h

lemma publish (generation : Generation) (rows : List ResultRow) (pending : Bool) :
    Sound (m.publish generation rows pending) := by
  rw [LauncherViewModel.publish]
  split
  · exact h
  case isFalse haccepted =>
    have hvisible : m.visible = true := by
      by_contra hhidden
      exact haccepted (by simp [hhidden])
    refine ⟨fun hhidden => ?_, fun hempty => if_pos hempty, fun hnone => ?_,
      fun hne => resolveSelection_lt generation hne, nofun, h.exclusive, h.pageless⟩
    · rw [hvisible] at hhidden
      cases hhidden
    · exact if_pos hnone

lemma frame : Sound m.frame.1 := by
  rw [LauncherViewModel.frame]
  split
  · exact h
  · exact { h with }

lemma select (target : Nat) : Sound (m.select target) := by
  rw [LauncherViewModel.select]
  split
  · exact h
  case isFalse hne =>
    dsimp only
    split
    · exact h
    have hpos : 0 < m.rows.length := length_pos_iff.mpr hne
    exact { h with
      unselected := fun hnone => absurd hnone hne
      selected := fun _ => by dsimp only; omega
      actions := nofun }

lemma openActions : Sound m.openActions := by
  rw [LauncherViewModel.openActions]
  split
  · exact h
  split
  · exact h
  case h_2 row hrow =>
    split
    · exact h
    case isFalse halternates =>
      exact { h with actions := fun _ => ⟨row, hrow, halternates⟩ }

lemma closeActions : Sound m.closeActions := by
  rw [LauncherViewModel.closeActions]
  split
  · exact h
  · exact { h with actions := nofun }

lemma retype (text : String) : Sound (m.retype text).1 := by
  rw [LauncherViewModel.retype]
  split
  · exact h
  split
  · exact ⟨fun _ => rfl, fun _ => rfl, fun _ => rfl, fun hne => absurd rfl hne, nofun, h.exclusive,
      h.pageless⟩
  case isFalse htext =>
    exact { h with untyped := fun hempty => absurd hempty htext }

lemma complete
    (hlabel : ∀ row, m.rows[m.selected]? = some row → row.label ≠ "") : Sound m.complete.1 := by
  rw [LauncherViewModel.complete]
  split
  · exact h
  case h_2 row hrow =>
    split
    · exact h
    · exact { h with untyped := fun hempty => absurd hempty (hlabel row hrow) }

lemma setSelectedStatus (status : String) : Sound (m.setSelectedStatus status).1 := by
  rw [LauncherViewModel.setSelectedStatus]
  split
  · exact h
  case h_2 row hrow =>
    split
    · exact h
    have hempty : ∀ {new : ResultRow}, m.rows.set m.selected new = [] ↔ m.rows = [] :=
      set_eq_nil_iff ..
    refine ⟨fun hhidden => hempty.mpr (h.hidden hhidden),
      fun hquery => hempty.mpr (h.untyped hquery),
      fun hnone => h.unselected (hempty.mp hnone), fun hne => ?_, fun hopen => ?_, h.exclusive,
      h.pageless⟩
    · rw [length_set]
      exact h.selected fun hnone => hne (hempty.mpr hnone)
    · obtain ⟨open', hopen', halternates⟩ := h.actions hopen
      obtain rfl := some.inj (hrow.symm.trans hopen')
      have hlt : m.selected < m.rows.length := (List.getElem?_eq_some_iff.mp hrow).1
      exact ⟨_, getElem?_set_self hlt, halternates⟩

lemma setSettings (settings : List SettingRow) : Sound (m.setSettings settings) := by
  rw [LauncherViewModel.setSettings]
  split
  · exact h
  · exact { h with }

lemma setShowHints (shown : Bool) : Sound (m.setShowHints shown).1 := by
  rw [LauncherViewModel.setShowHints]
  split
  · exact h
  · exact { h with }

lemma setRoundedCorners (rounded : Bool) : Sound (m.setRoundedCorners rounded).1 := by
  rw [LauncherViewModel.setRoundedCorners]
  split
  · exact h
  · exact { h with }

lemma openSettings (focus : Option String) : Sound (m.openSettings focus).1 := by
  rw [LauncherViewModel.openSettings]
  split
  · exact h
  · exact { h with exclusive := fun _ => rfl, pageless := fun _ => rfl }

lemma closeSettings : Sound m.closeSettings := by
  rw [LauncherViewModel.closeSettings]
  split
  · exact h
  · exact { h with exclusive := nofun }

lemma openPage (surface : PageSurface) : Sound (m.openPage surface).1 := by
  rw [LauncherViewModel.openPage]
  split
  · exact h
  case isFalse hvisible =>
    refine { h with exclusive := nofun, pageless := fun hhidden => ?_ }
    exact absurd (by rw [hhidden]; rfl) hvisible

lemma closePage : Sound m.closePage.1 := by
  rw [LauncherViewModel.closePage]
  split
  · exact h
  · exact { h with exclusive := fun _ => rfl, pageless := fun _ => rfl }

lemma editPage (edit : PageSurface → Option PageSurface) : Sound (m.editPage edit).1 := by
  rw [LauncherViewModel.editPage]
  split
  · exact h
  case h_2 page hpage =>
    have hopen : m.page ≠ none := by
      intro hnone
      rw [hnone] at hpage
      cases hpage
    exact { h with
      exclusive := fun hsettings => absurd (h.exclusive hsettings) hopen
      pageless := fun hhidden => absurd (h.pageless hhidden) hopen }

lemma cancel : Sound m.cancel.1 := by
  rw [LauncherViewModel.cancel]
  split
  · exact h.closePage
  split
  · exact h.closeSettings
  split
  · exact h.closeActions
  split
  · exact h.retype ""
  · exact h.dismiss

lemma execute (pick : ResultRow → Option Core.Action) : Sound (m.execute pick).1 := by
  rw [LauncherViewModel.execute]
  split
  · exact h
  · split
    · exact h
    · exact h.closeActions

lemma apply (command : UiCommand) (hlabel : Labelled m (.apply command)) :
    Sound (m.apply command).1 := by
  rw [apply.eq_def]
  split
  · exact h
  cases command with
  | setQuery text => exact h.retype text
  | selectNext | selectPrevious | pageDown | pageUp => exact h.select _
  | complete => exact h.complete (hlabel rfl)
  | showActions => exact h.openActions
  | executeDefault | executeAlternate index => exact h.execute _
  | cancel => exact h.cancel
  | dismiss => exact h.dismiss
  | openSettings => exact h.openSettings none
  | closeSettings => exact h.closeSettings
  | pageInput input | webInput input | webIme event => exact h
  | closePage => exact h.closePage
  | resizePage width height | setSetting key value | quit => exact h

end

lemma run (h : Sound m) (op : LauncherOp) (hlabel : Labelled m op) : Sound (op.run m).1 := by
  cases op with
  | activate => exact h.activate
  | dismiss => exact h.dismiss
  | beginGeneration generation => exact h.beginGeneration generation
  | publish generation rows pending => exact h.publish generation rows pending
  | frame => exact h.frame
  | apply command => exact h.apply command hlabel
  | setSelectedStatus status => exact h.setSelectedStatus status
  | setSettings settings => exact h.setSettings settings
  | setShowHints shown => exact h.setShowHints shown
  | setRoundedCorners rounded => exact h.setRoundedCorners rounded
  | openSettings focus => exact h.openSettings focus
  | closeSettings => exact h.closeSettings
  | openPage surface => exact h.openPage surface
  | updatePage frame stale | declareWebSurface surfaceId | updateWebFrame frame
  | clearWebFrame surfaceId | updateWebCaretArea surfaceId area => exact h.editPage _
  | closePage => exact h.closePage

end Sound

lemma frame_hidden (h : m.visible = false) : m.frame.2 = none := by
  rw [LauncherViewModel.frame, h]
  rfl

/-- After every sequence of operations that completes a query only from labelled rows, the joint
invariant holds, and a hidden launcher has no frame. -/
theorem launcher_invariant {tr : List (LauncherOp × LauncherOutput)} {m : LauncherViewModel}
    (h : ExecWhen launcherStep Labelled .new tr m) :
    Sound m ∧ (m.visible = false → m.frame.2 = none) := by
  refine ⟨h.invariant (fun _ m => Sound m) sound_new ?_, frame_hidden⟩
  intro tr m op m' output hsound hlabel hstep
  obtain ⟨hm, -⟩ := Prod.mk.inj (some.inj hstep)
  exact hm ▸ hsound.run op hlabel

/-! ## Completing from one row -/

def plainRow (label : String) : ResultRow :=
  { item := ⟨"item"⟩, label := label, description := "", iconReference := none, category := "file",
    pluginName := "files", highlights := [], argumentHint := none, status := none,
    defaultAction := none, alternateActions := [] }

/-- A query is typed, answered with one row and completed from it. -/
def completion (label : String) : List LauncherOp :=
  [.activate, .apply (.setQuery "a"), .beginGeneration ⟨1⟩, .publish ⟨1⟩ [plainRow label] false,
    .apply .complete]

def afterOps (ops : List LauncherOp) : LauncherViewModel :=
  ops.foldl (fun m op => (op.run m).1) .new

theorem completed_sound : Sound (afterOps (completion "atlas")) := by
  have hlabel : Labelled (afterOps ((completion "atlas").take 4)) (.apply .complete) := by
    intro _ row hrow
    cases hrow
    decide
  have hstart : ExecWhen launcherStep Labelled .new [] .new := .start
  have hshown := hstart.next (i := .activate) nofun rfl
  have htyped := hshown.next (i := .apply (.setQuery "a")) nofun rfl
  have hbegun := htyped.next (i := .beginGeneration ⟨1⟩) nofun rfl
  have hpublished := hbegun.next (i := .publish ⟨1⟩ [plainRow "atlas"] false) nofun rfl
  exact (launcher_invariant (hpublished.next hlabel rfl)).1

/-- The label of the selected row is empty: completing clears the query and leaves the row
standing, where the next Enter would run it. -/
theorem completion_from_nothing :
    (afterOps (completion "")).visible = true ∧ (afterOps (completion "")).query = "" ∧
      (afterOps (completion "")).rows = [plainRow ""] ∧ ¬ Sound (afterOps (completion "")) := by
  refine ⟨rfl, rfl, rfl, fun h => ?_⟩
  cases h.untyped rfl

end CriKey.Ui
