import CriKey.Ui.Launcher

/-! The rows the launcher keeps between turns, grouped by source. A plugin provider sends the rows
it was handed with the query and its own rows behind them. A fold tells the two apart by the
namespace of the owner. -/
open List Function
namespace CriKey.Ui
open CriKey.Core

inductive RowSource where
  | builtin
  | files
  | legacy
  | modern
  | native
deriving DecidableEq, Repr

def rowSource (pluginName : String) : RowSource :=
  if "legacy.".toList.isPrefixOf pluginName.toList then .legacy
  else if "modern.".toList.isPrefixOf pluginName.toList then .modern
  else if "native.".toList.isPrefixOf pluginName.toList then .native
  else .builtin

def ResultRow.source (row : ResultRow) : RowSource := rowSource row.pluginName

def providers : List RowSource := [.legacy, .modern, .native]

/-- The groups and the pending marks are a field for each source in the code. -/
structure RetainedRows where
  generation : Option Generation := none
  calculated : List ResultRow := []
  group : RowSource → List ResultRow := fun _ => []
  owes : RowSource → Bool := fun _ => false

namespace RetainedRows

variable (r : RetainedRows) (generation : Generation)

/-- A newer generation drops every group; an older one is not worth folding. -/
def begin : RetainedRows × Bool :=
  match r.generation with
  | some current =>
    if generation < current then (r, false)
    else if generation = current then (r, true)
    else ({ generation := some generation }, true)
  | none => ({ generation := some generation }, true)

def whenCurrent (refresh : RetainedRows → RetainedRows) : RetainedRows :=
  let (r, current) := r.begin generation
  if current then refresh r else r

def setCalculated (rows : List ResultRow) : RetainedRows :=
  r.whenCurrent generation ({ · with calculated := rows })

def setBuiltin (rows : List ResultRow) : RetainedRows :=
  r.whenCurrent generation fun r => { r with group := update r.group .builtin rows }

def markPending (source : RowSource) (pending : Bool) : RetainedRows :=
  r.whenCurrent generation fun r => { r with owes := update r.owes source pending }

/-- Only the group of the provider is refreshed. -/
def absorb (source : RowSource) (rows : List ResultRow) (pending : Bool) : RetainedRows :=
  r.whenCurrent generation fun r =>
    let own := rows.filter (·.source = source)
    let r := if source ∈ providers then { r with group := update r.group source own } else r
    r.markPending generation source pending

def merged : List ResultRow :=
  r.calculated ++ (r.group .builtin ++ providers.flatMap r.group)

/-- The answer to a query that the launcher has at once. Its merged rows go to the drivers. -/
def answer (calculated ranked : List ResultRow) (pending : Bool) : RetainedRows :=
  ((r.setCalculated generation calculated).setBuiltin generation ranked).markPending generation
    .builtin pending

/-- Who took the query on. -/
def outstanding (pending : RowSource → Bool) : RetainedRows :=
  [.legacy, .native, .modern, .files].foldl
    (fun r source => r.markPending generation source (pending source)) r

end RetainedRows

/-- One fold of the launcher loop: the outcome of a plugin driver, or that of the file search with
the answer its items were ranked into. -/
inductive Turn where
  | outcome (generation : Generation) (source : RowSource) (rows : List ResultRow) (pending : Bool)
  | files (generation : Generation) (ranked : Option (List ResultRow)) (pending : Bool)

namespace Turn

def generation : Turn → Generation
  | outcome generation .. => generation
  | files generation .. => generation

def run (r : RetainedRows) : Turn → RetainedRows
  | outcome generation source rows pending => r.absorb generation source rows pending
  | files generation ranked pending =>
    let r := match ranked with
      | some rows => r.setBuiltin generation rows
      | none => r
    r.markPending generation .files pending

/-- What a turn of the current generation makes of a group. -/
def refreshed (source : RowSource) (before : List ResultRow) : Turn → List ResultRow
  | outcome _ s rows _ =>
    if s = source ∧ s ∈ providers then rows.filter (·.source = source) else before
  | files _ (some rows) _ => if source = .builtin then rows else before
  | files _ none _ => before

/-- No outcome is newer than the query, and a driver answers the query with its frame. -/
def Expected (g : Generation) (frame : RowSource → List ResultRow) (turn : Turn) : Prop :=
  turn.generation ≤ g ∧ ∀ source rows pending, turn = outcome g source rows pending →
    rows = frame source

end Turn

/-- The ranked list after the turns of a generation. -/
def latest (g : Generation) (ranked : List ResultRow) (turns : List Turn) : List ResultRow :=
  (turns.filter (·.generation = g)).foldl (Turn.refreshed .builtin) ranked

variable {r : RetainedRows} {g g' : Generation} {source : RowSource}
  {frame : RowSource → List ResultRow} {turn : Turn} {turns : List Turn}

namespace RetainedRows

section
variable (h : r.generation = some g)
include h

lemma whenCurrent_older (hlt : g' < g)
    (refresh : RetainedRows → RetainedRows) : r.whenCurrent g' refresh = r := by
  simp [whenCurrent, begin, h, hlt]

lemma whenCurrent_same (refresh : RetainedRows → RetainedRows) :
    r.whenCurrent g refresh = refresh r := by
  simp [whenCurrent, begin, h]

lemma run_older (hlt : turn.generation < g) : turn.run r = r := by
  cases turn with
  | outcome =>
    rw [Turn.generation] at hlt
    rw [Turn.run, absorb, whenCurrent_older h hlt]
  | files g' ranked pending =>
    rw [Turn.generation] at hlt
    cases ranked <;> simp only [Turn.run, setBuiltin, markPending, whenCurrent_older h hlt]

lemma run_spec (hle : turn.generation ≤ g) :
    (turn.run r).generation = some g ∧ (turn.run r).calculated = r.calculated ∧
      ∀ source, (turn.run r).group source =
        if turn.generation = g then turn.refreshed source (r.group source) else r.group source := by
  rcases hle.lt_or_eq with hlt | heq
  · simp [run_older h hlt, h, hlt.ne]
  cases turn with
  | outcome g' s rows pending =>
    obtain rfl : g' = g := heq
    simp only [Turn.run, absorb, markPending, Turn.generation, Turn.refreshed]
    by_cases hs : s ∈ providers
    · simp [hs, whenCurrent, begin, h]
      grind
    · simp [hs, whenCurrent_same h, h]
  | files g' ranked pending =>
    obtain rfl : g' = g := heq
    cases ranked <;>
      simp [Turn.run, setBuiltin, markPending, whenCurrent, begin, h, Turn.generation,
        Turn.refreshed, update_apply]

lemma runs_spec (hle : ∀ turn ∈ turns, turn.generation ≤ g) :
    (turns.foldl Turn.run r).generation = some g ∧
      (turns.foldl Turn.run r).calculated = r.calculated ∧
      ∀ source, (turns.foldl Turn.run r).group source =
        (turns.filter (·.generation = g)).foldl (Turn.refreshed source) (r.group source) := by
  induction turns generalizing r with
  | nil => simp [h]
  | cons turn turns ih =>
    rw [forall_mem_cons] at hle
    obtain ⟨hg, hcalculated, hgroup⟩ := run_spec h hle.1
    obtain ⟨hg', hcalculated', hgroup'⟩ := ih hg hle.2
    refine ⟨hg', hcalculated'.trans hcalculated, fun source => ?_⟩
    rw [foldl_cons, hgroup', hgroup]
    by_cases hturn : turn.generation = g <;> simp [hturn]

end

lemma answer_spec (h : ∀ current, r.generation = some current → current < g)
    (calculated ranked : List ResultRow) (pending : Bool) :
    (r.answer g calculated ranked pending).generation = some g ∧
      (r.answer g calculated ranked pending).calculated = calculated ∧
      (r.answer g calculated ranked pending).group = update (fun _ => []) .builtin ranked := by
  have hset : r.setCalculated g calculated = { generation := some g, calculated } := by
    cases hr : r.generation with
    | none => simp [setCalculated, whenCurrent, begin, hr]
    | some current =>
      have hlt := h current hr
      simp [setCalculated, whenCurrent, begin, hr, hlt.not_gt, hlt.ne']
  simp [answer, hset, setBuiltin, markPending, whenCurrent, begin]

lemma outstanding_spec (h : r.generation = some g) (pending : RowSource → Bool) :
    (r.outstanding g pending).generation = some g ∧
      (r.outstanding g pending).calculated = r.calculated ∧
      (r.outstanding g pending).group = r.group := by
  simp [outstanding, markPending, whenCurrent, begin, h]

end RetainedRows

open RetainedRows

lemma foldl_refreshed (hsource : source ∈ providers)
    (hturns : ∀ turn ∈ turns, turn.Expected g frame) {before : List ResultRow}
    (h : before = (frame source).filter (·.source = source) ∨
      ∃ rows pending, .outcome g source rows pending ∈ turns) :
    (turns.filter (·.generation = g)).foldl (Turn.refreshed source) before =
      (frame source).filter (·.source = source) := by
  induction turns generalizing before with
  | nil => simpa using h
  | cons turn turns ih =>
    rw [forall_mem_cons] at hturns
    have hnot : source ≠ .builtin := by
      rintro rfl
      simp [providers] at hsource
    cases turn with
    | outcome g' s rows pending =>
      have hframe := hturns.1.2 s rows pending
      by_cases hg : g' = g <;> by_cases hs : s = source <;>
        grind [Turn.generation, Turn.refreshed]
    | files g' ranked pending =>
      cases ranked <;> by_cases hg : g' = g <;> grind [Turn.generation, Turn.refreshed]

lemma source_eq_builtin_iff (row : ResultRow) :
    row.source = .builtin ↔ ∀ source ∈ providers, row.source ≠ source := by
  simp only [ResultRow.source, rowSource]
  split_ifs <;> simp [providers]

/-- Once all three frames are folded, whatever the order and whatever was ranked in meanwhile, the
merged rows are the calculated ones, the latest ranking and the providers' own rows, exactly when
no row that was handed over is owned by a plugin of a provider's namespace. Outcomes of older
generations change nothing. -/
theorem merged_rows_iff (r : RetainedRows) (g : Generation) (calculated ranked : List ResultRow)
    (own : RowSource → List ResultRow) (turns : List Turn) (builtinPending : Bool)
    (pending : RowSource → Bool) (hnew : ∀ current, r.generation = some current → current < g)
    (hown : ∀ source ∈ providers, ∀ row ∈ own source, row.source = source)
    (hturns : ∀ turn ∈ turns, turn.Expected g fun source =>
      (r.answer g calculated ranked builtinPending).merged ++ own source)
    (hall : ∀ source ∈ providers, ∃ rows pending, .outcome g source rows pending ∈ turns) :
    let final := turns.foldl Turn.run
      ((r.answer g calculated ranked builtinPending).outstanding g pending)
    (final.merged = calculated ++ (latest g ranked turns ++ providers.flatMap own) ↔
      ∀ row ∈ calculated ++ ranked, row.source = .builtin) ∧
    ∀ turn : Turn, turn.generation < g → turn.run final = final := by
  intro final
  obtain ⟨hg, hcalculated, hgroup⟩ := answer_spec hnew calculated ranked builtinPending
  obtain ⟨hg', hcalculated', hgroup'⟩ := outstanding_spec hg pending
  obtain ⟨hg'', hcalculated'', hgroup''⟩ :=
    runs_spec hg' fun turn hturn => (hturns turn hturn).1
  refine ⟨?_, fun turn hlt => run_older hg'' hlt⟩
  have hhanded : (r.answer g calculated ranked builtinPending).merged = calculated ++ ranked := by
    simp [merged, hcalculated, hgroup, providers]
  -- a fold keeps the handed rows of the namespace before the rows of the provider
  have hkept : ∀ source ∈ providers,
      final.group source = (calculated ++ ranked).filter (·.source = source) ++ own source := by
    intro source hsource
    rw [hgroup'', foldl_refreshed hsource hturns (.inr (hall source hsource)), hhanded,
      filter_append,
      filter_eq_self.mpr fun row hrow => decide_eq_true (hown source hsource row hrow)]
  have hmerged : final.merged = calculated ++ (latest g ranked turns ++ providers.flatMap
      fun source => (calculated ++ ranked).filter (·.source = source) ++ own source) := by
    rw [merged, flatMap_congr hkept, hcalculated'', hcalculated', hcalculated,
      hgroup'', hgroup', hgroup]
    rfl
  rw [hmerged, append_cancel_left_eq, append_cancel_left_eq]
  simp only [source_eq_builtin_iff]
  constructor
  · intro heq row hrow source hsource hrs
    have hlen := congrArg length heq
    have hpos : 0 < ((calculated ++ ranked).filter (·.source = source)).length :=
      length_pos_of_mem (mem_filter.mpr ⟨hrow, decide_eq_true hrs⟩)
    simp only [providers, flatMap_cons, flatMap_nil, length_append,
      mem_cons, not_mem_nil, or_false] at hlen hsource
    rcases hsource with rfl | rfl | rfl <;> omega
  · intro hhost
    refine flatMap_congr fun source hsource => ?_
    rw [filter_eq_nil_iff.mpr fun row hrow => by simpa using hhost row hrow source hsource,
      nil_append]

def catalogRow (pluginName : String) : ResultRow :=
  ⟨⟨"note"⟩, "Note", "", none, "file", pluginName, [], none, none, none, []⟩

/-- The drivers answer a query, each with its own rows behind those it was handed. -/
def frames (own : RowSource → List ResultRow) (handed : List ResultRow) : List Turn :=
  [.modern, .legacy, .native].map fun source => .outcome ⟨1⟩ source (handed ++ own source) false

def oneRowEach : RowSource → List ResultRow
  | .legacy => [catalogRow "legacy.notes"]
  | .modern => [catalogRow "modern.notes"]
  | .native => [catalogRow "native.notes"]
  | _ => []

/-- An answer to the query before comes late, and the file search has a new ranking. -/
def lateAnswers : List Turn :=
  [.outcome ⟨0⟩ .legacy [catalogRow "legacy.old"] true,
    .files ⟨1⟩ (some [catalogRow "builtin.files", catalogRow "builtin.apps"]) false]

theorem host_row_kept : let row := catalogRow "builtin.apps"
    let earlier := answer {} ⟨0⟩ [] [catalogRow "builtin.old"] false
    ((lateAnswers ++ frames oneRowEach [row]).foldl Turn.run
      ((earlier.answer ⟨1⟩ [] [row] false).outstanding ⟨1⟩ fun _ => true)).merged =
        catalogRow "builtin.files" :: row :: providers.flatMap oneRowEach := by
  intro row earlier
  refine (merged_rows_iff earlier ⟨1⟩ [] [row] oneRowEach (lateAnswers ++ frames oneRowEach [row])
    false (fun _ => true) ?_ (by decide +kernel) ?_ ?_).1.mpr (by decide +kernel)
  · rintro current ⟨⟩
    decide
  · have hhanded : (earlier.answer ⟨1⟩ [] [row] false).merged = [row] := by decide +kernel
    have hle : (⟨0⟩ : Generation) ≤ ⟨1⟩ := by decide
    simp [lateAnswers, frames, Turn.Expected, Turn.generation, hhanded, hle]
  · simp [providers, lateAnswers, frames]

/-- A ranked row that a legacy plugin owns is shown twice. -/
theorem legacy_catalog_row_doubled : let row := catalogRow "legacy.notes"
    ((frames (fun _ => []) [row]).foldl Turn.run
      ((answer {} ⟨1⟩ [] [row] false).outstanding ⟨1⟩ fun _ => true)).merged =
        [row, row] := by
  decide +kernel

end CriKey.Ui
