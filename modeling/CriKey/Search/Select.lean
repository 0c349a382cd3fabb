import CriKey.Base.TopK
import CriKey.Catalog.Memory
import CriKey.Ranking.Score

/-! Bounded selection over the catalog: each owner is cut to its quota, then the survivors
compete for the quota of the generation. A heap is the list of its elements, best first. -/
namespace CriKey.Search
open CriKey.Base CriKey.Core CriKey.Query CriKey.Catalog CriKey.Ranking

structure SearchStats where
  candidatesExamined : Nat := 0
  matchesFound : Nat := 0
deriving DecidableEq

structure RankedCandidate where
  item : Item
  preparedLabel : PreparedLabel
  score : ℚ
deriving DecidableEq

/-- The order of an answer: score descending, then item, then plugin. -/
def RankedCandidate.rank (candidate : RankedCandidate) : ℚᵒᵈ ×ₗ String ×ₗ String :=
  toLex (OrderDual.toDual candidate.score,
    toLex (candidate.item.stableId.name, candidate.item.pluginId.name))

abbrev PositionCache := Table PluginId (List Nat)

structure SearchPlan where
  policy : MatchPolicy
  ranker : DefaultRanker
  nonPrefixUpper : Table PluginId ℚ
  query : NormalizedQuery
  previous : Option PositionCache
  history : SelectionHistory
  foregroundCategory : Option Category
  nowSecs : Nat
  perPluginLimit : Nat
  globalLimit : Nat
  batchLimit : Nat

/-- What the sweep over one owner has gathered. -/
structure PluginSelection where
  matchedPositions : List Nat := []
  stats : SearchStats := {}
  retained : List RankedCandidate := []

namespace SearchPlan
variable (plan : SearchPlan)

def signals (item : Item) : RankingSignals :=
  plan.history.augment item (plan.history.affinitiesFor plan.query) plan.nowSecs
    plan.foregroundCategory {}

/-- The leading token, when the index of label prefixes can answer it. -/
def prefixToken : Option Text :=
  plan.query.tokens.head?.filter fun token =>
    (token.take 2).length == 2 && (token.take 2).all (·.isAlphanum)

def prior (plugin : PluginId) : Option (List Nat) := plan.previous.bind (·.get? plugin)

/-- The remaining items cannot get past the weakest one retained. -/
def skipRemaining (plugin : PluginId) (selection : PluginSelection) : Bool :=
  plan.prefixToken.isSome && selection.retained.length == plan.perPluginLimit &&
    (plan.nonPrefixUpper.get? plugin).any fun upper =>
      selection.retained.getLast?.any fun weakest => upper < weakest.score

/-- The item's bound is below the weakest one retained. -/
def prunes (selection : PluginSelection) (item : Item) : Bool :=
  plan.prefixToken.isSome && selection.retained.length == plan.perPluginLimit &&
    selection.retained.getLast?.any fun weakest =>
      plan.ranker.nonPrefixUpperBound item < weakest.score

variable [Unicode]

def candidate (item : Item) (label : PreparedLabel) : Option RankedCandidate :=
  (scorePrepared plan.policy plan.query item label).map fun summary =>
    ⟨item, label, plan.ranker.scoreMatchWithSignals item summary (plan.signals item)⟩

def consider (selection : PluginSelection) (position : Nat) (item : Item) (label : PreparedLabel) :
    PluginSelection :=
  let examined := satAdd selection.stats.candidatesExamined 1
  match plan.candidate item label with
  | none => { selection with stats := { selection.stats with candidatesExamined := examined } }
  | some candidate =>
    { matchedPositions := selection.matchedPositions ++ [position]
      stats := ⟨examined, satAdd selection.stats.matchesFound 1⟩
      retained := retainBest RankedCandidate.rank plan.perPluginLimit selection.retained candidate }

/-- Passes an item over that may still match the next query. -/
def recordPruned (selection : PluginSelection) (position : Nat) (label : PreparedLabel)
    (alreadyFiltered : Bool) : PluginSelection :=
  { selection with
    stats := { selection.stats with
      candidatesExamined := satAdd selection.stats.candidatesExamined 1 }
    matchedPositions :=
      if alreadyFiltered || mayMatchWith label plan.query plan.policy then
        selection.matchedPositions ++ [position]
      else selection.matchedPositions }

def visitRemaining (sourceIsFiltered : Bool) (selection : PluginSelection)
    (visit : Nat × Item × ItemIndex) : PluginSelection :=
  let (position, item, entry) := visit
  if plan.prefixToken.any (·.isPrefixOf entry.prepared.normalized) then selection
  else if plan.prunes selection item then
    plan.recordPruned selection position entry.prepared sourceIsFiltered
  else plan.consider selection position item entry.prepared

variable (catalog : MemoryCatalog) (plugin : PluginId)

/-- The visits of the second pass, from the cache or from the catalog. -/
def remaining : Option (List (Nat × Item × ItemIndex)) :=
  match plan.prior plugin with
  | some positions =>
    some (catalog.visitPreparedPositionsWith plugin positions plan.query plan.policy)
  | none => catalog.visitPreparedCandidates plugin plan.query

/-- The first pass: labels that begin with the leading token. -/
def prefixPass : PluginSelection :=
  match plan.prefixToken with
  | none => {}
  | some token => (catalog.visitLabelPrefixes plugin token).foldl
      (fun selection visit => plan.consider selection visit.1 visit.2.1 visit.2.2.prepared) {}

/-- The sweep over one owner, and whether it saw all it had to remember. -/
def selectOwner : Option (PluginSelection × Bool) :=
  let selection := plan.prefixPass catalog plugin
  if plan.skipRemaining plugin selection then some (selection, false)
  else do
    let visits ← plan.remaining catalog plugin
    some (visits.foldl (plan.visitRemaining (plan.prior plugin).isSome) selection, true)

end SearchPlan

/-- Everything the loop over the owners carries. -/
structure Sweep where
  stats : SearchStats := {}
  global : List RankedCandidate := []
  matchedByOwner : PositionCache := .empty
  cacheComplete : Bool := true

variable [Unicode] (catalog : MemoryCatalog) (plan : SearchPlan)

def sweepOwner (sweep : Sweep) (plugin : PluginId) : Option Sweep := do
  let (selection, complete) ← plan.selectOwner catalog plugin
  some {
    stats := ⟨satAdd sweep.stats.candidatesExamined selection.stats.candidatesExamined,
      satAdd sweep.stats.matchesFound selection.stats.matchesFound⟩
    global := selection.retained.foldl
      (retainBest RankedCandidate.rank plan.globalLimit) sweep.global
    matchedByOwner := sweep.matchedByOwner.insert plugin selection.matchedPositions
    cacheComplete := sweep.cacheComplete && complete }

def selectBest (owners : List PluginId) : Option Sweep :=
  if plan.perPluginLimit = 0 || plan.globalLimit = 0 || plan.batchLimit = 0 then some {}
  else owners.foldlM (sweepOwner catalog plan) {}

/-- The matching items of one owner, with their scores. -/
def candidatesOf (plugin : PluginId) : List RankedCandidate :=
  (catalog.slice plugin).filterMap fun item => plan.candidate item (preparedLabel item)

/-- What a selection is for: every match of every owner is scored, each owner keeps its best,
and of these the best are kept. -/
def referenceSelection (owners : List PluginId) : List RankedCandidate :=
  best RankedCandidate.rank plan.globalLimit (owners.flatMap fun plugin =>
    best RankedCandidate.rank plan.perPluginLimit (candidatesOf catalog plan plugin))

end CriKey.Search
