import CriKey.Ui.Invariant

/-! The selection across waves of results. The rows of an older generation stay on the screen until
the first results of the new one, and a key pressed in that time counts as a choice among rows that
were not there yet. -/
namespace CriKey.Ui
open CriKey.Base CriKey.Core LauncherViewModel List

def accepts (m : LauncherViewModel) (g : Generation) : Bool := m.visible && m.active = some g

/-- The row that a navigation key asks for. -/
def asksFor (m : LauncherViewModel) : UiCommand → Option Nat
  | .selectNext => some (satAdd m.selected 1)
  | .selectPrevious => some (m.selected - 1)
  | .pageDown => some (satAdd m.selected pageSize)
  | .pageUp => some (m.selected - pageSize)
  | _ => none

/-- There are rows, and the selection is on another one than this, or the last. -/
def moved (m : LauncherViewModel) (target : Nat) : Bool :=
  m.rows ≠ [] && min target (m.rows.length - 1) ≠ m.selected

/-- A navigation key that moves the selection. -/
def moves (m : LauncherViewModel) : LauncherOp → Bool
  | .apply command => m.visible && (asksFor m command).any (moved m)
  | _ => false

/-- An edit that empties the query of a launcher that stays shown. -/
def empties (m : LauncherViewModel) (op : LauncherOp) : Bool :=
  m.visible && m.query ≠ "" && match op with
    | .apply (.setQuery text) => text = ""
    | .apply .complete => m.rows[m.selected]?.any (·.label = "")
    | .apply .cancel => m.page.isNone && !m.settingsOpen && !m.actionsOpen
    | _ => false

/-- The generations that had an accepted publish, and whether the user has moved the selection since
the first publish of the last of them. -/
structure Watch where
  answered : List Generation
  moved : Bool

def Watch.next (w : Watch) (m : LauncherViewModel) (op : LauncherOp) : Watch :=
  match op with
  | .publish g _ _ => if accepts m g ∧ g ∉ w.answered then ⟨g :: w.answered, false⟩ else w
  | _ => { w with moved := w.moved || moves m op }

def watchedStep (s : LauncherViewModel × Watch) (op : LauncherOp) :
    Option ((LauncherViewModel × Watch) × LauncherOutput) :=
  some (((op.run s.1).1, s.2.next s.1 op), (op.run s.1).2)

variable {m : LauncherViewModel} {w : Watch} {op : LauncherOp}

/-! ### What operations leave -/

/-- The generation is ended, or a navigation key that moves the selection is noted. -/
def Leaves (m m' : LauncherViewModel) (moves : Bool) : Prop :=
  m'.floor = m.floor ∧ (m'.active = none ∧ m'.published = none ∨ m'.active = m.active ∧
    m'.published = m.published ∧ m'.navigated = (m.navigated || moves))

lemma Kept.leaves {m' : LauncherViewModel} (h : Kept m m') : Leaves m m' false :=
  ⟨h.floor, .inr ⟨h.active, h.published, by rw [h.navigated, Bool.or_false]⟩⟩

lemma leaves_activate : Leaves m m.activate false := by
  unfold activate
  split
  · exact m.kept.leaves
  · exact ⟨rfl, .inr ⟨rfl, rfl, by rw [Bool.or_false]⟩⟩

lemma leaves_dismiss : Leaves m m.dismiss false := by
  unfold dismiss
  split
  · exact m.kept.leaves
  · exact ⟨rfl, .inl ⟨rfl, rfl⟩⟩

lemma leaves_setSelectedStatus (status : String) :
    Leaves m (m.setSelectedStatus status).1 false := by
  unfold setSelectedStatus
  split
  · exact m.kept.leaves
  · split <;> exact ⟨rfl, .inr ⟨rfl, rfl, by rw [Bool.or_false]⟩⟩

lemma leaves_retype {text : String} (h : text = "" → m.query = "") :
    Leaves m (m.retype text).1 false := by
  unfold retype
  split
  · exact m.kept.leaves
  case isFalse hnew =>
    have hne : text ≠ "" := fun hempty => hnew ((h hempty).trans hempty.symm)
    dsimp only
    rw [if_neg hne]
    exact Kept.leaves { m.kept with }

lemma leaves_select (target : Nat) : Leaves m (m.select target) (moved m target) := by
  unfold select moved
  split
  case isTrue hnone => simpa [hnone] using m.kept.leaves
  case isFalse hsome =>
    dsimp only
    split
    case isTrue hsame => simpa [hsame] using m.kept.leaves
    case isFalse hother => exact ⟨rfl, .inr ⟨rfl, rfl, by simp [hsome, hother]⟩⟩

lemma leaves_cancel (hkept : empties m (.apply .cancel) = false) (hvisible : m.visible = true) :
    Leaves m m.cancel.1 false := by
  unfold cancel
  split
  · exact m.kept_closePage.leaves
  split
  · exact m.kept_closeSettings.leaves
  split
  · exact m.kept_closeActions.leaves
  split
  · simp_all [empties]
  · exact leaves_dismiss

lemma leaves_apply {command : UiCommand} (hkept : empties m (.apply command) = false) :
    Leaves m (m.apply command).1 (moves m (.apply command)) := by
  unfold LauncherViewModel.apply
  split
  case isTrue hhidden =>
    have hnone : moves m (.apply command) = false := by
      simp_all [moves]
    exact hnone ▸ m.kept.leaves
  case isFalse hshown =>
    have hvisible (hnot : command ≠ .closePage) : m.visible = true := by simpa [hnot] using hshown
    have hselect (target : Nat) (hasks : asksFor m command = some target)
        (hnot : command ≠ .closePage) : Leaves m (m.select target) (moves m (.apply command)) := by
      rw [moves, hvisible hnot, hasks]
      exact leaves_select target
    have hrest {m' : LauncherViewModel} (hasks : asksFor m command = none)
        (h : Leaves m m' false) : Leaves m m' (moves m (.apply command)) := by
      rwa [moves, hasks, Option.any_none, Bool.and_false]
    cases command with
    | selectNext | selectPrevious | pageDown | pageUp => exact hselect _ rfl nofun
    | setQuery text =>
      refine hrest rfl (leaves_retype fun hempty => ?_)
      simpa [empties, hvisible, hempty] using hkept
    | cancel => exact hrest rfl (leaves_cancel hkept (hvisible nofun))
    | dismiss => exact hrest rfl leaves_dismiss
    | complete => exact hrest rfl m.kept_complete.leaves
    | showActions => exact hrest rfl m.kept_openActions.leaves
    | executeDefault | executeAlternate index => exact hrest rfl (m.kept_execute _).leaves
    | openSettings => exact hrest rfl (m.kept_openSettings none).leaves
    | closeSettings => exact hrest rfl m.kept_closeSettings.leaves
    | closePage => exact hrest rfl m.kept_closePage.leaves
    | _ => exact hrest rfl m.kept.leaves

lemma run_cases (hkept : empties m op = false) :
    (∃ g, op = .beginGeneration g) ∨ (∃ g rows pending, op = .publish g rows pending) ∨
      (∀ w : Watch, w.next m op = ⟨w.answered, w.moved || moves m op⟩) ∧
        Leaves m (op.run m).1 (moves m op) := by
  cases op with
  | beginGeneration g => exact .inl ⟨g, rfl⟩
  | publish g rows pending => exact .inr (.inl ⟨g, rows, pending, rfl⟩)
  | apply command => exact .inr (.inr ⟨fun w => rfl, leaves_apply hkept⟩)
  | activate => exact .inr (.inr ⟨fun w => rfl, leaves_activate⟩)
  | dismiss => exact .inr (.inr ⟨fun w => rfl, leaves_dismiss⟩)
  | setSelectedStatus status => exact .inr (.inr ⟨fun w => rfl, leaves_setSelectedStatus status⟩)
  | _ =>
    refine .inr (.inr ⟨fun w => rfl, Kept.leaves ?_⟩)
    first
      | exact m.kept_frame
      | exact m.kept_setSettings _
      | exact m.kept_setShowHints _
      | exact m.kept_setRoundedCorners _
      | exact m.kept_openSettings _
      | exact m.kept_closeSettings
      | exact m.kept_openPage _
      | exact m.kept_editPage _
      | exact m.kept_closePage

/-- The user moves the selection only among rows of the active generation and does not empty the
query. -/
def Attended (s : LauncherViewModel × Watch) (op : LauncherOp) : Prop :=
  (moves s.1 op = true → s.1.published = s.1.active) ∧ empties s.1 op = false

instance (s : LauncherViewModel × Watch) (op : LauncherOp) : Decidable (Attended s op) :=
  inferInstanceAs (Decidable ((_ → _) ∧ _))

/-- What the view model remembers of the keys is what the user did since the first publish. -/
structure Tracks (m : LauncherViewModel) (w : Watch) : Prop where
  known : ∀ g ∈ w.answered, ∃ f ∈ m.floor, g ≤ f
  active : ∀ g ∈ m.active, m.floor = some g
  published : ∀ g ∈ m.published, g ∈ w.answered
  current : ∀ g ∈ m.active, g ∈ w.answered → m.published = some g ∧ m.navigated = w.moved
  fresh : ∀ g ∈ m.active, g ∉ w.answered → m.navigated = false

lemma Tracks.step (h : Tracks m w) (hop : Attended (m, w) op) :
    Tracks (op.run m).1 (w.next m op) := by
  obtain ⟨known, active, published, current, fresh⟩ := h
  obtain ⟨g, rfl⟩ | ⟨g, rows, pending, rfl⟩ | ⟨hnext, hleaves⟩ := run_cases hop.2
  · have hnext : w.next m (.beginGeneration g) = w := by simp [Watch.next, moves]
    rw [hnext]
    show Tracks (m.beginGeneration g) w
    unfold LauncherViewModel.beginGeneration
    split
    · exact ⟨known, active, published, current, fresh⟩
    case isFalse hnew =>
      -- it is newer than every generation answered so far
      have hold : ∀ g' ∈ w.answered, g' < g := by
        intro g' hg'
        obtain ⟨floor, hfloor, hle⟩ := known g' hg'
        simp only [refuses, Option.mem_def.mp hfloor] at hnew
        exact hle.trans_lt (by simp_all)
      refine ⟨fun g' hg' => ⟨g, rfl, (hold g' hg').le⟩, by simp, published, fun g' hg' hmem => ?_,
        by simp⟩
      cases hg'
      exact absurd (hold g hmem) (lt_irrefl _)
  · unfold LauncherOp.run LauncherViewModel.publish Watch.next accepts
    constructor <;> grind
  · rw [hnext]
    have hmoves := hop.1
    unfold Leaves at hleaves
    constructor <;> grind

/-- After an accepted publish the selection is at the top unless the user has moved it since the
first one of its generation, and then it stays on its item as long as the new rows have it. -/
theorem selection_stable {tr : List (LauncherOp × LauncherOutput)} {m : LauncherViewModel}
    {w : Watch} (h : ExecWhen watchedStep Attended (.new, ⟨[], false⟩) tr (m, w)) (g : Generation)
    (rows : List ResultRow) (pending : Bool) (haccepts : accepts m g = true) :
    ((g ∈ w.answered → w.moved = false) → (m.publish g rows pending).selected = 0) ∧
      (g ∈ w.answered → w.moved = true → ∀ row, m.rows[m.selected]? = some row →
        row.item ∈ (m.publish g rows pending).rows.map (·.item) →
        ∃ row', (m.publish g rows pending).rows[(m.publish g rows pending).selected]? = some row' ∧
          row'.item = row.item) := by
  have htracks : Tracks m w := h.invariant (fun _ s => Tracks s.1 s.2)
    (by constructor <;> simp [LauncherViewModel.new]) fun _ _ _ _ _ ih hop hs => by
      cases hs
      exact ih.step hop
  obtain ⟨-, -, published, current, -⟩ := htracks
  have hactive : m.active = some g := by simp_all [accepts]
  have hpublish : (m.publish g rows pending).selected =
      m.resolveSelection (m.publish g rows pending).rows g := by
    grind [LauncherViewModel.publish, accepts]
  rw [hpublish]
  generalize (m.publish g rows pending).rows = incoming
  constructor
  · intro hunmoved
    grind [resolveSelection]
  · intro hanswered hmoved row hrow hmem
    obtain ⟨hpublished, hnavigated⟩ := current g hactive hanswered
    obtain ⟨candidate, hcandidate, hitem⟩ := mem_map.mp hmem
    obtain ⟨index, hindex⟩ : ∃ index, incoming.findIdx? (·.item = row.item) = some index := by
      rw [← Option.isSome_iff_exists, findIdx?_isSome]
      exact any_eq_true.mpr ⟨candidate, hcandidate, by simpa using hitem⟩
    obtain ⟨hlt, hfound, -⟩ := findIdx?_eq_some_iff_getElem.mp hindex
    refine ⟨incoming[index], ?_, by simpa using hfound⟩
    simp [resolveSelection, hpublished, hnavigated, hmoved, hrow, hindex, ne_nil_of_mem hcandidate]

def rowsOf (items : List String) : List ResultRow :=
  items.map fun item => { plainRow "" with item := ⟨item⟩ }

/-- A query with two rows on the screen, and a second one whose first rows arrive after `keys`. -/
def secondQuery (keys : List LauncherOp) : List LauncherOp :=
  [.activate, .apply (.setQuery "a"), .beginGeneration ⟨1⟩, .publish ⟨1⟩ (rowsOf ["x", "y"]) false,
    .apply (.setQuery "ab"), .beginGeneration ⟨2⟩] ++ keys ++
    [.publish ⟨2⟩ (rowsOf ["x", "y"]) false]

theorem unmoved_selection_on_top : ∃ m w tr,
    ExecWhen watchedStep Attended (.new, ⟨[], false⟩) tr (m, w) ∧
      (m.publish ⟨2⟩ (rowsOf ["y", "x"]) false).selected = 0 := by
  obtain ⟨tr, ⟨m, w⟩, hexec, haccepts, hmoved⟩ := execWhen_of_eval watchedStep Attended
    (.new, ⟨[], false⟩) (secondQuery []) (fun s => accepts s.1 ⟨2⟩ = true ∧ s.2.moved = false)
    (by decide)
  exact ⟨m, w, tr, hexec, (selection_stable hexec ⟨2⟩ _ false haccepts).1 fun _ => hmoved⟩

/-- A key pressed while the rows of the first query are still on the screen: the next results of the
second query take the selection off the top, though nobody moved it since its first ones. -/
theorem early_key_follows_item : ∃ s tr, run watchedStep (.new, ⟨[], false⟩)
    (secondQuery [.apply .selectNext]) = some (s, tr) ∧ accepts s.1 ⟨2⟩ = true ∧
      s.2.moved = false ∧ (s.1.publish ⟨2⟩ (rowsOf ["y", "x"]) false).selected = 1 :=
  ⟨_, _, rfl, rfl, rfl, rfl⟩

end CriKey.Ui
