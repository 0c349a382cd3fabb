import CriKey.Query.Label

/-! The default matcher. Every token has to match; each is credited with the strongest
reading it supports and the item with the weakest of its tokens. Scores are exact
rationals. -/
namespace CriKey.Query
open CriKey.Core

structure NormalizedQuery where
  raw : Text
  normalized : Text
  tokens : List Text
deriving DecidableEq, Repr

inductive MatchMethod where
  | exactPrefix | startsLabel | substring | fuzzy | wordPrefix | keyword
deriving DecidableEq, Repr

/-- Lower is stronger. -/
def MatchMethod.precedence : MatchMethod → Nat
  | .exactPrefix => 0
  | .startsLabel => 1
  | .wordPrefix => 2
  | .substring => 3
  | .keyword => 4
  | .fuzzy => 5

inductive MatchPolicy where
  | strict | subsequence
deriving DecidableEq, Repr

structure MatchSummary where
  score : ℚ
  method : MatchMethod
  matchPosition : Option Nat
deriving DecidableEq, Repr

/-! Necessary conditions. -/

def isOrderedSubsequence : Text → Text → Bool
  | _, [] => true
  | [], _ :: _ => false
  | character :: haystack, needle :: token =>
    if character = needle then isOrderedSubsequence haystack token
    else isOrderedSubsequence haystack (needle :: token)

/-- A word carries the first two characters, or a word with the first stands before one with
the second. -/
def mayDecompose (words : List Text) (token : Text) : Bool :=
  match token with
  | first :: second :: _ =>
    words.any (fun text => text.take 2 == [first, second]) ||
      match words.dropWhile (·.head? != some first) with
      | _ :: later => later.any (·.head? == some second)
      | [] => false
  | _ => false

/-! Word-prefix decomposition. -/

def wordSkipPenalty : ℚ := 3 / 5

/-- The longest common start, cut at a character boundary. -/
def commonPrefix : Text → Text → Text
  | a :: left, b :: right => if a = b then a :: commonPrefix left right else []
  | _, _ => []

/-- The value a chunk of a word earns, apart from what follows it. -/
def chunkValue (word chunk : Text) : ℚ :=
  byteLen chunk + if byteLen chunk = byteLen word then 1 else 0

/-- One cell of the grid: the best value that covers `token` with these words, `none` for
minus infinity. The chunk lengths are tried shortest first and a later one has to be better. -/
def gridValue : List Text → Text → Option ℚ
  | _, [] => some 0
  | [], _ :: _ => none
  | word :: words, c :: token =>
    let skipped := (gridValue words (c :: token)).map (· - wordSkipPenalty)
    (List.range (commonPrefix (c :: token) word).length).foldl (fun best k =>
      match gridValue words (token.drop k) with
      | none => best
      | some rest =>
        let value := chunkValue word ((c :: token).take (k + 1)) + rest
        match best with
        | none => some value
        | some old => if old < value then some value else some old) skipped

/-- The chunk length the grid credited at a cell, if any. -/
def takenLength (word : Text) (words : List Text) (token : Text) : Option Nat :=
  match gridValue (word :: words) token with
  | none => none
  | some expected =>
    ((List.range (commonPrefix token word).length).find? fun k =>
      match gridValue words (token.drop (k + 1)) with
      | none => false
      | some rest =>
        |chunkValue word (token.take (k + 1)) + rest - expected| < 1 / 10000).map (· + 1)

/-- The replay of the grid's choices: the chunks taken, each with the start of its word, and
the part of the token left over. -/
def replay : List (Nat × Text) → Text → List (Nat × Text) × Text
  | _, [] => ([], [])
  | [], token => ([], token)
  | (start, word) :: words, c :: token =>
    match takenLength word (words.map Prod.snd) (c :: token) with
    | none => replay words (c :: token)
    | some taken =>
      let (chunks, left) := replay words ((c :: token).drop taken)
      ((start, (c :: token).take taken) :: chunks, left)

/-! Scoring bands. -/

def band : MatchMethod → ℚ × ℚ
  | .exactPrefix => (90 / 100, 100 / 100)
  | .startsLabel => (75 / 100, 88 / 100)
  | .wordPrefix => (60 / 100, 73 / 100)
  | .substring => (45 / 100, 58 / 100)
  | .keyword => (30 / 100, 43 / 100)
  | .fuzzy => (5 / 100, 17 / 100)

def unit (value : ℚ) : ℚ := max 0 (min value 1)

def ratio (numerator denominator : Nat) : ℚ :=
  if denominator = 0 then 0 else unit (numerator / denominator)

def scoreFor (method : MatchMethod) (quality : ℚ) : ℚ :=
  let (low, high) := band method
  max low (min (low + (high - low) * unit quality) high)

abbrev Spans := List (Nat × Nat)

/-- The readings of one token, with the label ranges they highlight. -/
abbrev Found := MatchMethod × ℚ × Spans

variable (label : PreparedLabel)

def wordTexts : List (Nat × Text) :=
  label.words.map fun range => (range.1, wordText label.normalized range)

def wordPrefixQuality (token : Text) : Option (ℚ × Spans) := do
  let words := wordTexts label
  if token = [] || words = [] || maxWordPrefixWords < words.length ||
      maxWordPrefixToken < token.length then none
  else do
  let value ← gridValue (words.map Prod.snd) token
  let (chunks, left) := replay words token
  if left ≠ [] || chunks.length < 2 then none
  else
    let ideal : ℚ := token.length + words.length
    some (unit (max value 0 / ideal),
      chunks.filterMap fun (start, chunk) => label.toRaw start (start + byteLen chunk))

def matchLabel (token : Text) : Option Found :=
  if token.isPrefixOf label.normalized then
    some (.startsLabel, ratio token.length label.charLen, (label.toRaw 0 (byteLen token)).toList)
  else
    let decomposed :=
      if mayDecompose ((wordTexts label).map Prod.snd) token then wordPrefixQuality label token
      else none
    match decomposed with
    | some (quality, spans) => some (.wordPrefix, quality, spans)
    | none => do
      let before ← findText token label.normalized
      let at_ := byteLen before
      let coverage := ratio token.length label.charLen
      let position : ℚ := 1 / (before.length + 1)
      some (.substring, 1 / 2 * coverage + 1 / 2 * position,
        (label.toRaw at_ (at_ + byteLen token)).toList)

/-- The best containment in a plugin-supplied field. -/
def keywordQuality (fields : List Text) (token : Text) : Option ℚ :=
  fields.foldl (fun best field =>
    match findText token field with
    | none => best
    | some before =>
      let coverage := ratio token.length field.length
      let quality : ℚ :=
        if 0 < byteLen before then 1 / 2 * coverage
        else if byteLen token = byteLen field then 1
        else 1 / 2 + 1 / 2 * coverage
      some (max (best.getD 0) quality)) none

/-- The scan for the characters of a token in order: ordinal and byte offset of each hit. -/
def subsequenceHits : Nat → Nat → Text → Text → Option (List (Nat × Nat × Char))
  | _, _, _, [] => some []
  | _, _, [], _ :: _ => none
  | ordinal, offset, c :: haystack, needle :: token =>
    if c = needle then
      (subsequenceHits (ordinal + 1) (offset + c.utf8Size) haystack token).map
        ((ordinal, offset, c) :: ·)
    else subsequenceHits (ordinal + 1) (offset + c.utf8Size) haystack (needle :: token)

def subsequenceQuality (token : Text) : Option (ℚ × Spans) := do
  if token.length < 2 then none
  else do
  let hits ← subsequenceHits 0 0 label.normalized token
  let first := (hits.head?.map Prod.fst).getD 0
  let last := (hits.getLast?.map Prod.fst).getD 0
  let compactness := ratio hits.length (last - first + 1)
  let earliness : ℚ := 1 / (first + 1)
  some (1 / 2 * compactness + 1 / 2 * earliness,
    hits.filterMap fun (_, offset, c) => label.toRaw offset (offset + c.utf8Size))

variable [Unicode]

def keywordFields (item : Item) : List Text :=
  item.searchTerms.map (fun term => normalizeField term.toList) ++
    if item.description.toList = [] then [] else [normalizeField item.description.toList]

variable (policy : MatchPolicy)

def matchToken (item : Item) (label : PreparedLabel) (token : Text) : Option Found :=
  if token = [] then none
  else match matchLabel label token with
    | some found => some found
    | none =>
      let keyword :=
        if containsText label.keywords token then keywordQuality (keywordFields item) token
        else none
      match keyword with
      | some quality => some (.keyword, quality, [])
      | none =>
        match policy with
        | .strict => none
        | .subsequence =>
          (subsequenceQuality label token).map fun (quality, spans) => (.fuzzy, quality, spans)

/-- The character offset of a byte boundary of the raw label. -/
def rawCharacterPosition (label : Text) (offset : Nat) : Option Nat :=
  (splitAtByte offset label).map fun parts => min parts.1.length (2 ^ 32 - 1)

def retainValidSpans (label : Text) (spans : Spans) : Spans :=
  spans.filter fun (start, stop) => start < stop && (getRange label start stop).isSome

/-- The query's tokens are the words of its normalized text, and there is one. -/
def NormalizedQuery.usable (query : NormalizedQuery) : Bool :=
  query.tokens != [] && splitWhitespace query.normalized == query.tokens

/-- The readings of all tokens, or nothing when one does not match. -/
def matchTokens (policy : MatchPolicy) (item : Item) (label : PreparedLabel) :
    List Text → Option (List Found)
  | [] => some []
  | token :: tokens => do
    let found ← matchToken policy item label token
    let more ← matchTokens policy item label tokens
    some (found :: more)

def scorePrepared (query : NormalizedQuery) (item : Item)
    (label : PreparedLabel) : Option MatchSummary :=
  if !query.usable then none
  else
    let normalized := label.normalized
    let trimmed := trimText normalized
    let phrase := trimText query.normalized
    let positionOf (span : Option (Nat × Nat)) :=
      span.bind fun span => rawCharacterPosition item.label.toList span.1
    if trimmed ≠ [] && phrase = trimmed then
      let start := byteLen normalized - byteLen (trimStart normalized)
      some ⟨scoreFor .exactPrefix 1, .exactPrefix,
        positionOf (label.toRaw start (start + byteLen trimmed))⟩
    else if phrase.isPrefixOf normalized then
      some ⟨scoreFor .startsLabel (ratio phrase.length label.charLen), .startsLabel,
        positionOf (label.toRaw 0 (byteLen phrase))⟩
    else do
      let found ← matchTokens policy item label query.tokens
      let weakest := found.foldl (fun weakest f =>
        if weakest.precedence < f.1.precedence then f.1 else weakest) MatchMethod.exactPrefix
      let total := found.foldl (fun total f => total + unit f.2.1) (0 : ℚ)
      let spans := retainValidSpans item.label.toList (found.flatMap (·.2.2))
      let positions := spans.filterMap fun span => rawCharacterPosition item.label.toList span.1
      some ⟨scoreFor weakest (total / query.tokens.length), weakest, positions.min?⟩

/-- The prepared label of an item, as matching and the catalog build it. -/
def preparedLabel (item : Item) : PreparedLabel :=
  let (text, labelBytes) := searchableTextWithLabel item
  .fromSearchableText item.label.toList text labelBytes

/-- `match_item` finds the item. -/
def matchesItem (query : NormalizedQuery) (item : Item) : Bool :=
  (scorePrepared policy query item (preparedLabel item)).isSome

/-- Boolean counterpart of `matchToken` over the prepared text. -/
def tokenMayMatch (label : PreparedLabel) (policy : MatchPolicy) (token : Text) : Bool :=
  if token = [] then false
  else if containsText label.normalized token || containsText label.keywords token then true
  else if !isOrderedSubsequence label.normalized token then false
  else if mayDecompose ((wordTexts label).map Prod.snd) token then true
  else policy == .subsequence && decide (2 ≤ token.length)

def mayMatchWith (label : PreparedLabel) (query : NormalizedQuery) (policy : MatchPolicy) : Bool :=
  query.usable && query.tokens.all (tokenMayMatch label policy)

end CriKey.Query
