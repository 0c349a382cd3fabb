import CriKey.Base.Machine
import CriKey.Core.Generation
import CriKey.Core.Item

/-! The launcher's view model: a state machine without a window. It is built once, shown and hidden,
and holds the query, the rows of the newest accepted results, the selection and what lies over
them. -/
namespace CriKey.Ui
open CriKey.Base CriKey.Core

structure ResultRow where
  item : ItemId
  label : String
  description : String
  iconReference : Option String
  category : String
  pluginName : String
  highlights : List (Nat × Nat)
  argumentHint : Option String
  status : Option String
  defaultAction : Option Core.Action
  alternateActions : List Core.Action
deriving DecidableEq, Repr

inductive SettingControl where
  | text
  | toggle (on : Bool)
deriving DecidableEq, Repr

structure SettingRow where
  key : String
  label : String
  value : String
  source : String
  control : SettingControl
deriving DecidableEq, Repr

/-- What a plugin drew, or the web document it declared. Frames are shared, and the same allocation
is the same frame. -/
structure PageFrame where
  address : Nat
  generation : Nat
  web : Option String

structure WebSurfaceFrame where
  surfaceId : Nat
  generation : Nat
  pixelWidth : Nat
  pixelHeight : Nat
  rgba8 : List UInt8

def WebSurfaceFrame.isValid (frame : WebSurfaceFrame) : Bool :=
  frame.surfaceId ≠ 0 && frame.generation ≠ 0 && frame.pixelWidth ≠ 0 && frame.pixelHeight ≠ 0 &&
    frame.pixelWidth * frame.pixelHeight * 4 = frame.rgba8.length

structure CaretArea where
  x : Float32
  y : Float32
  width : Float32
  height : Float32
deriving BEq

def CaretArea.isUsable (area : CaretArea) : Bool :=
  area.x.isFinite && area.y.isFinite && area.width.isFinite && area.height.isFinite &&
    (area.x + area.width).isFinite && (area.y + area.height).isFinite && !(area.width < 0) &&
    !(area.height < 0)

structure PageSurface where
  plugin : PluginId
  pageId : String
  pluginName : String
  frame : PageFrame
  stale : Bool
  answered : Bool
  webSurfaceId : Option Nat
  webFrame : Option WebSurfaceFrame
  webGeneration : Nat
  webCaretArea : Option CaretArea

/-- Everything the renderer needs for one frame. -/
structure ViewModel where
  generation : Generation
  query : String
  rows : List ResultRow
  selected : Nat
  pendingPlugins : Bool
  actionsOpen : Bool
  settingsOpen : Bool
  settings : List SettingRow
  settingsFocus : Option String
  showHints : Bool
  roundedCorners : Bool
  page : Option PageSurface

/-- An input event for a page or a web engine, passed on as it is. -/
structure Payload where
  bytes : List UInt8
deriving DecidableEq, Repr

inductive UiCommand where
  | setQuery (text : String)
  | selectNext
  | selectPrevious
  | pageDown
  | pageUp
  | complete
  | showActions
  | executeDefault
  | executeAlternate (index : Nat)
  | cancel
  | dismiss
  | openSettings
  | closeSettings
  | pageInput (input : Payload)
  | webInput (input : Payload)
  | webIme (event : Payload)
  | closePage
  | resizePage (width height : Nat)
  | setSetting (key value : String)
  | quit
deriving DecidableEq, Repr

inductive UiEffect where
  | query (text : String)
  | execute (item : ItemId) (action : ActionId)
  | dismissed
  | setSetting (key value : String)
  | pageInput (input : Payload)
  | webInput (input : Payload)
  | webIme (event : Payload)
  | closePage
  | resizePage (width height : Nat)
  | quit
deriving DecidableEq, Repr

structure LauncherViewModel where
  visible : Bool
  dirty : Bool
  query : String
  rows : List ResultRow
  selected : Nat
  navigated : Bool
  actionsOpen : Bool
  pendingPlugins : Bool
  settingsOpen : Bool
  settings : List SettingRow
  settingsFocus : Option String
  page : Option PageSurface
  showHints : Bool
  roundedCorners : Bool
  floor : Option Generation
  active : Option Generation
  published : Option Generation

namespace LauncherViewModel

def new : LauncherViewModel where
  visible := false
  dirty := false
  query := ""
  rows := []
  selected := 0
  navigated := false
  actionsOpen := false
  pendingPlugins := false
  settingsOpen := false
  settings := []
  settingsFocus := none
  page := none
  showHints := true
  roundedCorners := true
  floor := none
  active := none
  published := none

variable (m : LauncherViewModel)

def activate : LauncherViewModel :=
  if m.visible then m else { m with visible := true, dirty := true }

/-- Dismissal ends the session: only the settings rows, the preferences and the generation floor
stay. -/
def dismiss : LauncherViewModel :=
  if !m.visible then m
  else
    { m with
      visible := false, dirty := false, query := "", rows := [], selected := 0, navigated := false,
      actionsOpen := false, pendingPlugins := false, settingsOpen := false, settingsFocus := none,
      page := none, active := none, published := none }

/-- Only a generation newer than every one ever begun is accepted. -/
def refuses (generation : Generation) : Bool :=
  !m.visible || generation = Generation.zero || m.floor.any fun floor => generation ≤ floor

def beginGeneration (generation : Generation) : LauncherViewModel :=
  if m.refuses generation then m
  else
    { m with
      floor := some generation, navigated := false, active := some generation,
      pendingPlugins := true, dirty := true }

/-- Where the selection lands once the incoming rows replace the current ones. -/
def resolveSelection (incoming : List ResultRow) (generation : Generation) : Nat :=
  if incoming = [] then 0
  else if m.published ≠ some generation then 0
  else if !m.navigated then 0
  else
    match m.rows[m.selected]? with
    | none => 0
    | some row =>
      (incoming.findIdx? fun candidate => candidate.item = row.item).getD
        (min m.selected (incoming.length - 1))

def publish (generation : Generation) (rows : List ResultRow)
    (pendingPlugins : Bool) : LauncherViewModel :=
  if !m.visible || m.active ≠ some generation then m
  else
    let rows := if m.query = "" then [] else rows
    { m with
      selected := m.resolveSelection rows generation, rows := rows, actionsOpen := false,
      pendingPlugins := pendingPlugins, published := some generation, dirty := true }

def frame : LauncherViewModel × Option ViewModel :=
  if !m.visible || !m.dirty then (m, none)
  else
    ({ m with dirty := false }, some
      { generation := m.active.getD Generation.zero, query := m.query, rows := m.rows,
        selected := m.selected, pendingPlugins := m.pendingPlugins, actionsOpen := m.actionsOpen,
        settingsOpen := m.settingsOpen, settings := m.settings, settingsFocus := m.settingsFocus,
        showHints := m.showHints, roundedCorners := m.roundedCorners, page := m.page })

/-- The selection is clamped into the rows; an empty list has nothing to move. -/
def select (target : Nat) : LauncherViewModel :=
  if m.rows = [] then m
  else
    let target := min target (m.rows.length - 1)
    if target = m.selected then m
    else { m with selected := target, navigated := true, actionsOpen := false, dirty := true }

def openActions : LauncherViewModel :=
  if m.actionsOpen then m
  else
    match m.rows[m.selected]? with
    | none => m
    | some row =>
      if row.alternateActions = [] then m else { m with actionsOpen := true, dirty := true }

def closeActions : LauncherViewModel :=
  if !m.actionsOpen then m else { m with actionsOpen := false, dirty := true }

/-- An edit back to the empty query drops the rows. -/
def retype (text : String) : LauncherViewModel × Option UiEffect :=
  if m.query = text then (m, none)
  else
    let m := { m with query := text, dirty := true }
    let m := if text = "" then
        { m with rows := [], selected := 0, navigated := false, actionsOpen := false }
      else m
    (m, some (.query text))

/-- The query becomes the selected row's label. -/
def complete : LauncherViewModel × Option UiEffect :=
  match m.rows[m.selected]? with
  | none => (m, none)
  | some row =>
    if m.query = row.label then (m, none)
    else ({ m with query := row.label, dirty := true }, some (.query row.label))

def setSelectedStatus (status : String) : LauncherViewModel × Bool :=
  match m.rows[m.selected]? with
  | none => (m, false)
  | some row =>
    if row.status = some status then (m, true)
    else
      ({ m with rows := m.rows.set m.selected { row with status := some status }, dirty := true },
        true)

def setSettings (settings : List SettingRow) : LauncherViewModel :=
  if m.settings = settings then m
  else { m with settings := settings, dirty := m.dirty || m.visible }

def setShowHints (shown : Bool) : LauncherViewModel × Bool :=
  if m.showHints = shown then (m, false)
  else ({ m with showHints := shown, dirty := m.dirty || m.visible }, true)

def setRoundedCorners (rounded : Bool) : LauncherViewModel × Bool :=
  if m.roundedCorners = rounded then (m, false)
  else ({ m with roundedCorners := rounded, dirty := m.dirty || m.visible }, true)

/-- An open page closes; the answer says whether there was one. -/
def openSettings (focus : Option String) : LauncherViewModel × Bool :=
  if m.settingsOpen && m.settingsFocus = focus then (m, false)
  else
    ({ m with
        page := none, settingsOpen := true, settingsFocus := focus, dirty := m.dirty || m.visible },
      m.page.isSome)

def closeSettings : LauncherViewModel :=
  if !m.settingsOpen then m
  else { m with settingsOpen := false, settingsFocus := none, dirty := m.dirty || m.visible }

def openPage (surface : PageSurface) : LauncherViewModel × Bool :=
  if !m.visible then (m, false)
  else
    ({ m with settingsOpen := false, settingsFocus := none, page := some surface, dirty := true },
      true)

def closePage : LauncherViewModel × Bool :=
  if m.page.isNone then (m, false)
  else ({ m with page := none, dirty := m.dirty || m.visible }, true)

end LauncherViewModel

/-! ## The page's own updates -/

namespace PageSurface

variable (page : PageSurface)

def withoutWeb : PageSurface :=
  { page with webSurfaceId := none, webFrame := none, webGeneration := 0, webCaretArea := none }

/-- A frame older than the standing one is refused, and so is the same frame again. A frame that
crosses between a display list and a web document retires the engine's surface. -/
def update (frame : PageFrame) (stale : Bool) : Option PageSurface :=
  if frame.generation < page.frame.generation then none
  else if page.stale = stale && page.frame.address = frame.address then none
  else
    let next := { page with frame := frame, stale := stale, answered := true }
    some (if page.frame.web.isSome ≠ frame.web.isSome then next.withoutWeb else next)

def declareWeb (surfaceId : Nat) : Option PageSurface :=
  if surfaceId = 0 || page.frame.web.isNone || page.webSurfaceId = some surfaceId then none
  else some { page.withoutWeb with webSurfaceId := some surfaceId }

def updateWeb (frame : WebSurfaceFrame) : Option PageSurface :=
  if !frame.isValid || page.frame.web.isNone || page.webSurfaceId ≠ some frame.surfaceId ||
      frame.generation ≤ page.webGeneration then none
  else some { page with webGeneration := frame.generation, webFrame := some frame }

def clearWeb (surfaceId : Nat) : Option PageSurface :=
  if page.webSurfaceId ≠ some surfaceId then none
  else if page.webFrame.isNone && page.webCaretArea.isNone then none
  else some { page with webFrame := none, webCaretArea := none }

def updateCaret (surfaceId : Nat) (area : CaretArea) : Option PageSurface :=
  if page.webSurfaceId ≠ some surfaceId || !area.isUsable ||
      page.webCaretArea == some area then none
  else some { page with webCaretArea := some area }

end PageSurface

namespace LauncherViewModel

variable (m : LauncherViewModel)

/-- An update of the open page, if it takes it. -/
def editPage (edit : PageSurface → Option PageSurface) : LauncherViewModel × Bool :=
  match m.page.bind edit with
  | none => (m, false)
  | some page => ({ m with page := some page, dirty := true }, true)

/-! ## Commands -/

def pageSize : Nat := 8

/-- Cancelling backs out one rung: the page, the settings, the action list, the query, and at last
the launcher. -/
def cancel : LauncherViewModel × Option UiEffect :=
  if m.page.isSome then (m.closePage.1, some .closePage)
  else if m.settingsOpen then (m.closeSettings, none)
  else if m.actionsOpen then (m.closeActions, none)
  else if m.query ≠ "" then m.retype ""
  else (m.dismiss, some .dismissed)

def execute (pick : ResultRow → Option Core.Action) : LauncherViewModel × Option UiEffect :=
  match m.rows[m.selected]? with
  | none => (m, none)
  | some row =>
    match pick row with
    | none => (m, none)
    | some action => (m.closeActions, some (.execute row.item action.actionId))

def apply (command : UiCommand) : LauncherViewModel × Option UiEffect :=
  if !m.visible && command ≠ .closePage then (m, none)
  else
    match command with
    | .setQuery text => m.retype text
    | .selectNext => (m.select (satAdd m.selected 1), none)
    | .selectPrevious => (m.select (m.selected - 1), none)
    | .pageDown => (m.select (satAdd m.selected pageSize), none)
    | .pageUp => (m.select (m.selected - pageSize), none)
    | .complete => m.complete
    | .showActions => (m.openActions, none)
    | .executeDefault => m.execute (·.defaultAction)
    | .executeAlternate index => m.execute (·.alternateActions[index]?)
    | .openSettings =>
      let (m, hadPage) := m.openSettings none
      (m, if hadPage then some .closePage else none)
    | .closeSettings => (m.closeSettings, none)
    | .pageInput input => (m, some (.pageInput input))
    | .webInput input => (m, some (.webInput input))
    | .webIme event => (m, some (.webIme event))
    | .resizePage width height =>
      (m, if m.page.isSome then some (.resizePage width height) else none)
    | .closePage => (m.closePage.1, some .closePage)
    | .setSetting key value => (m, some (.setSetting key value))
    | .quit => (m, some .quit)
    | .cancel => m.cancel
    | .dismiss => (m.dismiss, some .dismissed)

end LauncherViewModel

/-! ## Runs -/

inductive LauncherOp where
  | activate
  | dismiss
  | beginGeneration (generation : Generation)
  | publish (generation : Generation) (rows : List ResultRow) (pendingPlugins : Bool)
  | frame
  | apply (command : UiCommand)
  | setSelectedStatus (status : String)
  | setSettings (settings : List SettingRow)
  | setShowHints (shown : Bool)
  | setRoundedCorners (rounded : Bool)
  | openSettings (focus : Option String)
  | closeSettings
  | openPage (surface : PageSurface)
  | updatePage (frame : PageFrame) (stale : Bool)
  | declareWebSurface (surfaceId : Nat)
  | updateWebFrame (frame : WebSurfaceFrame)
  | clearWebFrame (surfaceId : Nat)
  | updateWebCaretArea (surfaceId : Nat) (area : CaretArea)
  | closePage

inductive LauncherOutput where
  | done
  | answer (changed : Bool)
  | effect (effect : Option UiEffect)
  | frame (model : Option ViewModel)

open LauncherOutput in
def LauncherOp.run (m : LauncherViewModel) : LauncherOp → LauncherViewModel × LauncherOutput
  | activate => (m.activate, done)
  | dismiss => (m.dismiss, done)
  | beginGeneration generation => (m.beginGeneration generation, done)
  | publish generation rows pendingPlugins => (m.publish generation rows pendingPlugins, done)
  | frame => m.frame.map id LauncherOutput.frame
  | apply command => (m.apply command).map id effect
  | setSelectedStatus status => (m.setSelectedStatus status).map id answer
  | setSettings settings => (m.setSettings settings, done)
  | setShowHints shown => (m.setShowHints shown).map id answer
  | setRoundedCorners rounded => (m.setRoundedCorners rounded).map id answer
  | openSettings focus => (m.openSettings focus).map id answer
  | closeSettings => (m.closeSettings, done)
  | openPage surface => (m.openPage surface).map id answer
  | updatePage next stale => (m.editPage (·.update next stale)).map id answer
  | declareWebSurface surfaceId => (m.editPage (·.declareWeb surfaceId)).map id answer
  | updateWebFrame next => (m.editPage (·.updateWeb next)).map id answer
  | clearWebFrame surfaceId => (m.editPage (·.clearWeb surfaceId)).map id answer
  | updateWebCaretArea surfaceId area => (m.editPage (·.updateCaret surfaceId area)).map id answer
  | closePage => m.closePage.map id answer

def launcherStep (m : LauncherViewModel) (op : LauncherOp) :
    Option (LauncherViewModel × LauncherOutput) :=
  some (op.run m)

/-! ## What most operations leave alone -/

/-- The visibility, the rows and the marks of generations and keys stay. -/
structure Kept (m m' : LauncherViewModel) : Prop where
  visible : m'.visible = m.visible
  rows : m'.rows = m.rows
  navigated : m'.navigated = m.navigated
  floor : m'.floor = m.floor
  active : m'.active = m.active
  published : m'.published = m.published

namespace LauncherViewModel
variable (m : LauncherViewModel)

lemma kept : Kept m m := ⟨rfl, rfl, rfl, rfl, rfl, rfl⟩

lemma kept_frame : Kept m m.frame.1 := by
  unfold frame
  split <;> exact { m.kept with }

lemma kept_openActions : Kept m m.openActions := by
  unfold openActions
  split
  · exact m.kept
  split
  · exact m.kept
  · split <;> exact { m.kept with }

lemma kept_closeActions : Kept m m.closeActions := by
  unfold closeActions
  split <;> exact { m.kept with }

lemma kept_complete : Kept m m.complete.1 := by
  unfold complete
  split
  · exact m.kept
  · split <;> exact { m.kept with }

lemma kept_execute (pick : ResultRow → Option Core.Action) : Kept m (m.execute pick).1 := by
  unfold execute
  split
  · exact m.kept
  · split
    · exact m.kept
    · exact m.kept_closeActions

lemma kept_setSettings (settings : List SettingRow) : Kept m (m.setSettings settings) := by
  unfold setSettings
  split <;> exact { m.kept with }

lemma kept_setShowHints (shown : Bool) : Kept m (m.setShowHints shown).1 := by
  unfold setShowHints
  split <;> exact { m.kept with }

lemma kept_setRoundedCorners (rounded : Bool) : Kept m (m.setRoundedCorners rounded).1 := by
  unfold setRoundedCorners
  split <;> exact { m.kept with }

lemma kept_openSettings (focus : Option String) : Kept m (m.openSettings focus).1 := by
  unfold openSettings
  split <;> exact { m.kept with }

lemma kept_closeSettings : Kept m m.closeSettings := by
  unfold closeSettings
  split <;> exact { m.kept with }

lemma kept_openPage (surface : PageSurface) : Kept m (m.openPage surface).1 := by
  unfold openPage
  split <;> exact { m.kept with }

lemma kept_closePage : Kept m m.closePage.1 := by
  unfold closePage
  split <;> exact { m.kept with }

lemma kept_editPage (edit : PageSurface → Option PageSurface) : Kept m (m.editPage edit).1 := by
  unfold editPage
  split <;> exact { m.kept with }

end LauncherViewModel

end CriKey.Ui
