import CriKey.Base.Bits
import CriKey.Base.Table
import CriKey.Query.Matcher

/-! One plugin's catalog slice: the items in stable order, and the indexes over them that
let a query skip items it cannot match. A failed index access (`none`) is a panic. -/
namespace CriKey.Catalog
open CriKey.Base CriKey.Core CriKey.Query List

/-- An item's prepared label, and the characters of its searchable text. -/
structure ItemIndex where
  prepared : PreparedLabel
  mask : Word
deriving DecidableEq

def orderedPairCount : Nat := dedicatedBits * dedicatedBits

def orderedPairWords : Nat := (orderedPairCount + 63) / 64

/-- Adds the pairs of every earlier letter or digit with this one. -/
def addPairs (state : Bits × Word) (c : Char) : Bits × Word :=
  match dedicatedIndex c with
  | none => state
  | some after =>
    ((bitsOf state.2).foldl (fun signature before =>
        signature.put true (before * dedicatedBits + after)) state.1,
      putBit true after state.2)

/-- Adds the pair with the character just before. -/
def addAdjacent (state : Bits × Option Nat) (c : Char) : Bits × Option Nat :=
  let current := dedicatedIndex c
  (match state.2, current with
    | some before, some after => state.1.put true (before * dedicatedBits + after)
    | _, _ => state.1,
    current)

/-- Ordered pairs of the label, and adjacent pairs of the keywords. -/
def orderedPairSignature (label : PreparedLabel) : Bits :=
  let signature := (label.normalized.foldl addPairs (replicate orderedPairWords 0, 0)).1
  (label.keywords.foldl addAdjacent (signature, none)).1

def addTokenPair (state : List Nat × Option Nat) (c : Char) : List Nat × Option Nat :=
  let current := dedicatedIndex c
  (match state.2, current with
    | some before, some after =>
      let pair := before * dedicatedBits + after
      if pair ∈ state.1 then state.1 else state.1 ++ [pair]
    | _, _ => state.1,
    current)

/-- The adjacent pairs of one token, after those found so far. -/
def addTokenPairs (pairs : List Nat) (token : Text) : List Nat :=
  (token.foldl addTokenPair (pairs, none)).1

def queryOrderedPairs (query : NormalizedQuery) : List Nat := query.tokens.foldl addTokenPairs []

def prefixPair (text : Text) : Option Nat :=
  match text with
  | first :: second :: _ => do
    let before ← dedicatedIndex first
    let after ← dedicatedIndex second
    some (before * dedicatedBits + after)
  | _ => none

structure PluginCatalog where
  items : List Item
  index : List ItemIndex
  positions : Table ItemId Nat
  postings : List Bits
  orderedPairPostings : List Bits
  prefixPostings : List (List Nat)

/-- One presence bit of every posting, set or cleared at a position. -/
def setPostings (position : Nat) (mask : Word) (postings : List Bits) : List Bits :=
  postings.mapIdx fun bit posting => (posting.grow (position / 64)).put (mask.getLsbD bit) position

/-- A bit that is cleared needs no room. -/
def markPosition (position : Nat) (present : Bool) (posting : Bits) : Bits :=
  if present then (posting.grow (position / 64)).put true position else posting.put false position

def setOrderedPairPostings (position : Nat) (signature : Bits) (present : Bool)
    (postings : List Bits) : List Bits :=
  signature.elements.foldl (fun postings pair =>
    postings.modify pair (markPosition position present)) postings

namespace PluginCatalog

def empty : PluginCatalog where
  items := []
  index := []
  positions := .empty
  postings := replicate dedicatedBits []
  orderedPairPostings := replicate orderedPairCount []
  prefixPostings := replicate orderedPairCount []

/-- The positions whose label starts with a pair, in stable order. -/
def prefixPositions (index : List ItemIndex) (pair : Nat) : List Nat :=
  (range index.length).filter fun position =>
    index[position]?.any fun entry => prefixPair entry.prepared.normalized == some pair

end PluginCatalog

variable [Unicode]

def ItemIndex.new (item : Item) : ItemIndex where
  prepared := preparedLabel item
  mask := presenceMask (searchableTextWithLabel item).1

/-- Whether the item could match a query with these characters. -/
def ItemIndex.admits (entry : ItemIndex) (wanted : Word) : Bool := wanted &&& ~~~entry.mask == 0

namespace PluginCatalog
variable (catalog : PluginCatalog)

/-- One turn of the loop of `merge`, with the items added and the dirty prefix buckets. -/
def mergeOne (state : PluginCatalog × Nat × List Nat) (item : Item) :
    Option (PluginCatalog × Nat × List Nat) :=
  let (catalog, added, dirty) := state
  let entry := ItemIndex.new item
  let newPairs := orderedPairSignature entry.prepared
  let newPrefix := prefixPair entry.prepared.normalized
  match catalog.positions.get? item.stableId with
  | some position => do
    let old ← catalog.index[position]?
    let _ ← catalog.items[position]?
    let oldPairs := orderedPairSignature old.prepared
    let oldPrefix := prefixPair old.prepared.normalized
    some ({ catalog with
        items := catalog.items.set position item
        index := catalog.index.set position entry
        postings := setPostings position entry.mask catalog.postings
        orderedPairPostings := setOrderedPairPostings position newPairs true
          (setOrderedPairPostings position oldPairs false catalog.orderedPairPostings) },
      added,
      if oldPrefix = newPrefix then dirty else oldPrefix.toList ++ newPrefix.toList ++ dirty)
  | none =>
    let position := catalog.items.length
    some ({
        items := catalog.items ++ [item]
        index := catalog.index ++ [entry]
        positions := catalog.positions.insert item.stableId position
        postings := setPostings position entry.mask catalog.postings
        orderedPairPostings :=
          setOrderedPairPostings position newPairs true catalog.orderedPairPostings
        prefixPostings := match newPrefix with
          | some pair => catalog.prefixPostings.modify pair (· ++ [position])
          | none => catalog.prefixPostings },
      added + 1, dirty)

/-- Appends or replaces items; dirty prefix buckets are rebuilt at the end. -/
def merge (items : List Item) : Option (PluginCatalog × Nat) := do
  let (catalog, added, dirty) ← items.foldlM mergeOne (catalog, 0, [])
  some ({ catalog with
    prefixPostings := catalog.prefixPostings.mapIdx fun pair posting =>
      if pair ∈ dirty then prefixPositions catalog.index pair else posting }, added)

def fromItems (items : List Item) : Option PluginCatalog := do
  let (catalog, _) ← empty.merge items
  some catalog

/-- The candidates of one word of positions. -/
def candidateWord (dedicated : Word) (orderedPairs : List Nat) (wordIndex : Nat) : Option Word := do
  let positions ← (bitsOf dedicated).foldlM (fun positions bit => do
    let posting ← catalog.postings[bit]?
    let word ← posting[wordIndex]?
    some (positions &&& word)) (BitVec.allOnes 64)
  orderedPairs.foldlM (fun positions pair => do
    let posting ← catalog.orderedPairPostings[pair]?
    some (positions &&& posting.getD wordIndex 0)) positions

/-- The visit of a position, when the item there has the wanted characters. -/
def visitPosition (wanted : Word) (position : Nat) : Option (Nat × Item × ItemIndex) := do
  let item ← catalog.items[position]?
  let entry ← catalog.index[position]?
  if entry.admits wanted then some (position, item, entry) else none

/-- The positions, items and entries `visit_candidates` hands on, in order. -/
def visitCandidates (wanted : Word) (orderedPairs : List Nat) :
    Option (List (Nat × Item × ItemIndex)) :=
  let dedicated := wanted &&& (BitVec.twoPow 64 dedicatedBits - 1)
  if dedicated = 0 && orderedPairs = [] then
    some ((range catalog.items.length).filterMap (catalog.visitPosition wanted))
  else do
    let words ← (range ((catalog.items.length + 63) / 64)).mapM fun wordIndex => do
      let word ← catalog.candidateWord dedicated orderedPairs wordIndex
      some ((bitsOf word).map (wordIndex * 64 + ·))
    some (words.flatten.filterMap (catalog.visitPosition wanted))

def visitPrefix (token : Text) : List (Nat × Item × ItemIndex) :=
  if token = [] then []
  else
    let positions := match prefixPair token with
      | some pair => catalog.prefixPostings.getD pair []
      | none => range catalog.items.length
    positions.filterMap fun position => do
      let item ← catalog.items[position]?
      let entry ← catalog.index[position]?
      if token.isPrefixOf entry.prepared.normalized then some (position, item, entry) else none

end PluginCatalog

def wantedMask (query : NormalizedQuery) : Word :=
  query.tokens.foldl (fun wanted token => wanted ||| presenceMask token) 0

end CriKey.Catalog
