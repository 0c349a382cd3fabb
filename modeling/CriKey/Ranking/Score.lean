import CriKey.Base.Table
import CriKey.Query.Matcher

/-! The default ranker: bounded signals added up with fixed weights. Scores are exact
rationals. -/
namespace CriKey.Ranking
open CriKey.Base CriKey.Core CriKey.Query Nat

structure RankingSignals where
  matchQuality : ℚ := 0
  exactPrefix : Bool := false
  matchPosition : Option Nat := none
  categoryWeight : ℚ := 0
  pluginScoreHint : Int := 0
  selectionFrequency : UInt32 := 0
  selectionRecencySecs : Option Nat := none
  queryHistory : ℚ := 0
  contextMatch : Bool := false
  userPreference : ℚ := 0

/-! Weights. -/

def wMatchQuality : ℚ := 1

def wExactPrefix : ℚ := 35 / 100

def wMatchPosition : ℚ := 2 / 100

def wCategory : ℚ := 25 / 100

def wPluginHint : ℚ := 20 / 100

def wFrequency : ℚ := 30 / 100

def wRecency : ℚ := 25 / 100

def wQueryHistory : ℚ := 20 / 100

def wContext : ℚ := 15 / 100

def wUserPreference : ℚ := 20 / 100

def minScore : ℚ := -wPluginHint

def maxScore : ℚ :=
  wMatchQuality + wExactPrefix + wMatchPosition + wCategory + wPluginHint + wFrequency + wRecency +
    wQueryHistory + wContext + wUserPreference

def positionHalfLife : ℚ := 4

def frequencyHalfLife : ℚ := 8

def recencyHalfLifeSecs : ℚ := 86400

def hintHalfScale : ℚ := 100

/-! Bounded curves. -/

def sanitize (value low high : ℚ) : ℚ := max low (min value high)

def saturatingRise (value half : ℚ) : ℚ := value / (value + half)

def saturatingDecay (value half : ℚ) : ℚ := half / (value + half)

def boundedSigned (value half : ℚ) : ℚ := value / half / (1 + |value / half|)

def categoryWeight : Category → ℚ
  | .application => 1
  | .keyword => 90 / 100
  | .command => 85 / 100
  | .expression => 80 / 100
  | .contact => 70 / 100
  | .url => 65 / 100
  | .directory => 60 / 100
  | .file => 55 / 100
  | .clipboardItem => 50 / 100
  | .pluginDefined _ => 50 / 100

/-- The ranker carries the history policy only. -/
structure DefaultRanker where
  historyEnabled : Bool

namespace DefaultRanker
variable (ranker : DefaultRanker)

/-- What the history adds, when it may. -/
def historyTerms (signals : RankingSignals) : ℚ :=
  if ranker.historyEnabled then
    wFrequency * saturatingRise signals.selectionFrequency.toNat frequencyHalfLife +
      (match signals.selectionRecencySecs with
        | some age => wRecency * saturatingDecay age recencyHalfLifeSecs
        | none => 0) +
      wQueryHistory * sanitize signals.queryHistory 0 1
  else 0

def scoreSignals (signals : RankingSignals) : ℚ :=
  let total := wMatchQuality * sanitize signals.matchQuality 0 1 +
    (if signals.exactPrefix then wExactPrefix else 0) +
    (match signals.matchPosition with
      | some position => wMatchPosition * saturatingDecay position positionHalfLife
      | none => 0) +
    wCategory * sanitize signals.categoryWeight 0 1 +
    wPluginHint * boundedSigned signals.pluginScoreHint hintHalfScale +
    ranker.historyTerms signals +
    (if signals.contextMatch then wContext else 0) +
    wUserPreference * sanitize signals.userPreference 0 1
  sanitize total minScore maxScore

def scoreMatchWithSignals (item : Item) (summary : MatchSummary) (signals : RankingSignals) : ℚ :=
  ranker.scoreSignals { signals with
    matchQuality := summary.score
    exactPrefix := summary.method == .exactPrefix
    matchPosition := summary.matchPosition
    categoryWeight := categoryWeight item.category
    pluginScoreHint := item.scoreHint }

/-- Meant as the highest score without a label-prefix match. -/
def nonPrefixUpperBound (item : Item) : ℚ :=
  ranker.scoreSignals {
    matchQuality := 73 / 100
    exactPrefix := false
    matchPosition := some 0
    categoryWeight := categoryWeight item.category
    pluginScoreHint := item.scoreHint
    selectionFrequency := 4294967295
    selectionRecencySecs := some 0
    queryHistory := 1
    contextMatch := true
    userPreference := 1 }

end DefaultRanker

/-! Selection history. -/

structure HistoryEntry where
  frequency : UInt32
  lastSelectedSecs : Option Nat

/-- Selections by item, and by query and item in the order of a sorted map. -/
structure SelectionHistory where
  entries : Table (PluginId × ItemId) HistoryEntry
  queryCounts : List ((String × PluginId × ItemId) × UInt32)

namespace SelectionHistory
variable (history : SelectionHistory)

/-- The counts of the query and of its continuations, by item. -/
def affinitiesFor (query : NormalizedQuery) : Table (PluginId × ItemId) Nat :=
  if query.normalized = [] then .empty
  else
    let range := (history.queryCounts.dropWhile fun entry =>
      entry.1.1 < String.ofList query.normalized).takeWhile fun entry =>
        query.normalized.isPrefixOf entry.1.1.toList
    range.foldl (fun totals entry =>
      totals.insert entry.1.2
        (min ((totals.get? entry.1.2).getD 0 + entry.2.toNat) (2 ^ 32 - 1))) .empty

def augment (item : Item) (affinity : Table (PluginId × ItemId) Nat) (nowSecs : Nat)
    (foregroundCategory : Option Category) (signals : RankingSignals) : RankingSignals :=
  let signals := match history.entries.get? (item.pluginId, item.stableId) with
    | some entry => { signals with
        selectionFrequency := entry.frequency
        selectionRecencySecs := entry.lastSelectedSecs.map (nowSecs - ·) }
    | none => signals
  { signals with
    queryHistory := match affinity.get? (item.pluginId, item.stableId) with
      | some count => saturatingRise count frequencyHalfLife
      | none => 0
    contextMatch := foregroundCategory == some item.category }

end SelectionHistory

/-! The bound. -/

lemma sanitize_mono {a b : ℚ} (h : a ≤ b) (low high : ℚ) :
    sanitize a low high ≤ sanitize b low high :=
  max_le_max le_rfl (min_le_min h le_rfl)

lemma sanitize_le {low high : ℚ} (h : low ≤ high) (a : ℚ) : sanitize a low high ≤ high :=
  max_le h (min_le_right _ _)

variable {half : ℚ}

lemma saturatingRise_mono {a b : Nat} (h : a ≤ b) (hh : 0 < half) :
    saturatingRise a half ≤ saturatingRise b half := by
  have hab : (a : ℚ) ≤ b := cast_le.mpr h
  rw [saturatingRise, saturatingRise, div_le_div_iff₀ (by linarith) (by linarith)]
  nlinarith

lemma saturatingDecay_le (a : Nat) (hh : 0 < half) :
    saturatingDecay a half ≤ saturatingDecay (0 : Nat) half := by
  rw [saturatingDecay, saturatingDecay, cast_zero, zero_add, div_self hh.ne',
    div_le_one (by linarith)]
  linarith

lemma saturatingDecay_nonneg (a : Nat) (hh : 0 < half) : 0 ≤ saturatingDecay a half := by
  exact div_nonneg hh.le (by linarith)

lemma historyTerms_le (ranker : DefaultRanker) (signals : RankingSignals)
    {signals' : RankingSignals} (hfrequency : signals'.selectionFrequency = 4294967295)
    (hrecency : signals'.selectionRecencySecs = some 0) (hquery : signals'.queryHistory = 1) :
    ranker.historyTerms signals ≤ ranker.historyTerms signals' := by
  have hfull : signals.selectionFrequency.toNat ≤ (4294967295 : UInt32).toNat :=
    le_of_lt_succ signals.selectionFrequency.toNat_lt
  have hhalf : 0 < frequencyHalfLife := by norm_num [frequencyHalfLife]
  have hrise := saturatingRise_mono hfull hhalf
  have hone : sanitize signals.queryHistory 0 1 ≤ sanitize 1 0 1 :=
    (sanitize_le zero_le_one _).trans (by norm_num [sanitize])
  have hage : (match signals.selectionRecencySecs with
      | some age => wRecency * saturatingDecay age recencyHalfLifeSecs
      | none => 0) ≤ wRecency * saturatingDecay (0 : Nat) recencyHalfLifeSecs := by
    have hw : (0 : ℚ) ≤ wRecency := by norm_num [wRecency]
    have hh : (0 : ℚ) < recencyHalfLifeSecs := by norm_num [recencyHalfLifeSecs]
    cases signals.selectionRecencySecs with
    | none => exact mul_nonneg hw (saturatingDecay_nonneg 0 hh)
    | some age => exact mul_le_mul_of_nonneg_left (saturatingDecay_le age hh) hw
  rw [DefaultRanker.historyTerms, DefaultRanker.historyTerms, hfrequency, hrecency, hquery]
  split
  · refine add_le_add (add_le_add ?_ hage) ?_
    · exact mul_le_mul_of_nonneg_left hrise (by norm_num [wFrequency])
    · exact mul_le_mul_of_nonneg_left hone (by norm_num [wQueryHistory])
  · exact le_rfl

/-- The bound holds for every match that is no exact one and earns at most the ceiling of the
word-prefix band. -/
lemma score_le_nonPrefixUpperBound (ranker : DefaultRanker) (item : Item)
    {summary : MatchSummary} (signals : RankingSignals) (hscore : summary.score ≤ 73 / 100)
    (hmethod : summary.method ≠ .exactPrefix) (hpreference : signals.userPreference ≤ 1) :
    ranker.scoreMatchWithSignals item summary signals ≤ ranker.nonPrefixUpperBound item := by
  rw [DefaultRanker.scoreMatchWithSignals, DefaultRanker.nonPrefixUpperBound,
    DefaultRanker.scoreSignals]
  have hexact : (summary.method == .exactPrefix) = false := beq_eq_false_iff_ne.mpr hmethod
  have hposition : (match summary.matchPosition with
      | some position => wMatchPosition * saturatingDecay position positionHalfLife
      | none => 0) ≤ wMatchPosition * saturatingDecay (0 : Nat) positionHalfLife := by
    have hw : (0 : ℚ) ≤ wMatchPosition := by norm_num [wMatchPosition]
    have hh : (0 : ℚ) < positionHalfLife := by norm_num [positionHalfLife]
    cases summary.matchPosition with
    | none => exact mul_nonneg hw (saturatingDecay_nonneg 0 hh)
    | some position => exact mul_le_mul_of_nonneg_left (saturatingDecay_le position hh) hw
  have hcontext : (if signals.contextMatch then wContext else 0) ≤ wContext := by
    split
    · exact le_rfl
    · norm_num [wContext]
  apply sanitize_mono
  simp only [hexact]
  refine add_le_add (add_le_add (add_le_add (add_le_add (add_le_add (add_le_add (add_le_add ?_ ?_)
    hposition) ?_) ?_) ?_) ?_) ?_
  · exact mul_le_mul_of_nonneg_left (sanitize_mono hscore 0 1) (by norm_num [wMatchQuality])
  · exact le_rfl
  · exact le_rfl
  · exact le_rfl
  · exact historyTerms_le ranker _ rfl rfl rfl
  · exact hcontext
  · exact mul_le_mul_of_nonneg_left (sanitize_mono hpreference 0 1) (by norm_num [wUserPreference])

end CriKey.Ranking
