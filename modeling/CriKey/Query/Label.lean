import CriKey.Core.Item
import CriKey.Query.Text

/-! Labels prepared for matching: the folded searchable text of an item, the ranges of the
label's words and the map from folded offsets back to raw ones. Offsets are stored as
32-bit numbers, as `as u32` makes them. -/
namespace CriKey.Query
open CriKey.Core

/-- `value as u32`. -/
def asU32 (value : Nat) : Nat := value % 2 ^ 32

def maxWordPrefixWords : Nat := 8

def maxWordPrefixToken : Nat := 12

/-- One spare slot, so that a label over the cap is seen from the stored list. -/
def wordCapacity : Nat := maxWordPrefixWords + 1

def maxRunBytes : Nat := 128

/-- One normalized character and the raw byte range it was folded from. -/
structure Mark where
  norm : Nat
  srcStart : Nat
  srcEnd : Nat
deriving DecidableEq, Repr

inductive OffsetMap where
  | marks (marks : List Mark) (mappedEnd : Nat)
  | unavailable
deriving DecidableEq, Repr

structure PreparedLabel where
  text : Text
  labelBytes : Nat
  map : Option OffsetMap
  charLen : Nat
  words : List (Nat × Nat)
deriving DecidableEq, Repr

section
variable [Unicode]

/-! Word segmentation. -/

def isWordChar (c : Char) : Bool := isAlphanumeric c || isMark c

/-- Whether `previous` then `current` opens a new word. -/
def opensWord (previous : Option Char) (current : Char) (next : Option Char) : Bool :=
  if !isAlphanumeric current then false
  else match previous with
    | none => true
    | some previous =>
      !isWordChar previous || (isLowercase previous && isUppercase current) ||
        (isAlphabetic previous && isNumeric current) ||
        (isNumeric previous && isAlphabetic current) ||
        (isUppercase previous && isUppercase current && next.any isLowercase)

/-- How far the word of an ASCII label goes on after `previous`. -/
def asciiWordRest (previous : Char) : Text → Nat
  | [] => 0
  | candidate :: bytes =>
    if !isAlphanumeric candidate || opensWord (some previous) candidate bytes.head? then 0
    else asciiWordRest candidate bytes + 1

/-- The loop over the bytes of an ASCII label; every turn takes at least one byte. -/
def asciiWords (labelLen : Nat) : Nat → Option Char → Nat → Text → List (Nat × Nat) →
    List (Nat × Nat)
  | 0, _, _, _, ranges => ranges
  | _ + 1, _, _, [], ranges => ranges
  | fuel + 1, previous, index, current :: bytes, ranges =>
    if wordCapacity ≤ ranges.length then ranges
    else if opensWord previous current bytes.head? then
      let more := asciiWordRest current bytes
      let stop := index + (more + 1)
      let ranges := if stop ≤ labelLen then ranges ++ [(asU32 index, asU32 stop)] else ranges
      asciiWords labelLen fuel (current :: bytes.take more).getLast? stop (bytes.drop more) ranges
    else asciiWords labelLen fuel (some current) (index + 1) bytes ranges

/-- The first raw character of a mark. -/
def markChar (raw : Text) (mark : Mark) : Option Char :=
  ((getRange raw mark.srcStart mark.srcEnd).getD []).head?

/-- What is left open at the end of the mapped text. -/
def closeWord (mappedEnd : Nat) (started : Option Nat) (ranges : List (Nat × Nat)) :
    List (Nat × Nat) :=
  match started with
  | some start => if ranges.length < wordCapacity then ranges ++ [(start, mappedEnd)] else ranges
  | none => ranges

def pushWord (started : Option Nat) (stop : Nat) (ranges : List (Nat × Nat)) : List (Nat × Nat) :=
  match started with
  | some start => ranges ++ [(start, stop)]
  | none => ranges

/-- The loop over the marks of a label whose offsets moved. -/
def markWords (raw : Text) (mappedEnd : Nat) :
    List Mark → Option Nat → Option Char → List (Nat × Nat) → List (Nat × Nat)
  | [], started, _, ranges => closeWord mappedEnd started ranges
  | mark :: marks, started, previous, ranges =>
    if mappedEnd ≤ mark.norm then closeWord mappedEnd started ranges
    else match markChar raw mark with
      | none => markWords raw mappedEnd marks started previous ranges
      | some current =>
        let next := marks.head?.bind (markChar raw)
        let normEnd := (marks.head?.map Mark.norm).getD mappedEnd
        let opens := opensWord previous current next
        let closes := opens || !isWordChar current
        let ranges := if closes then pushWord started mark.norm ranges else ranges
        let started := if closes then none else started
        if opens && decide (wordCapacity ≤ ranges.length) then ranges
        else
          let started := if opens then some mark.norm else started
          if started.isSome && marks.isEmpty then
            markWords raw mappedEnd marks none (some current) (pushWord started normEnd ranges)
          else markWords raw mappedEnd marks started (some current) ranges

/-- Segmentation of the folded text, for a label too large to address. -/
def foldedWords (labelLen : Nat) : Nat → Text → Option Nat → List (Nat × Nat) → List (Nat × Nat)
  | _, [], started, ranges =>
    match started with
    | some start => ranges ++ [(asU32 start, asU32 labelLen)]
    | none => ranges
  | offset, current :: text, started, ranges =>
    if isWordChar current then
      foldedWords labelLen (offset + current.utf8Size) text (some (started.getD offset)) ranges
    else match started with
      | some start =>
        let ranges := ranges ++ [(asU32 start, asU32 offset)]
        if wordCapacity ≤ ranges.length then ranges
        else foldedWords labelLen (offset + current.utf8Size) text none ranges
      | none => foldedWords labelLen (offset + current.utf8Size) text none ranges

def wordRanges (raw label : Text) (map : Option OffsetMap) : List (Nat × Nat) :=
  let ranges := match map with
    | none => asciiWords (byteLen label) raw.length none 0 raw []
    | some (.marks marks mappedEnd) => markWords raw mappedEnd marks none none []
    | some .unavailable => foldedWords (byteLen label) 0 label none []
  ranges.take wordCapacity

/-! Alignment of the folded label with the raw one. -/

/-- One mark for each character of a resolved run. -/
def runMarks (cursor runStart runEnd : Nat) : Nat → Text → List Mark
  | _, [] => []
  | offset, c :: scratch =>
    ⟨asU32 (cursor + offset), asU32 runStart, asU32 runEnd⟩ ::
      runMarks cursor runStart runEnd (offset + c.utf8Size) scratch

/-- The loop over the raw characters: `run` is the open run, `rest` the text from `cursor`. -/
def alignLoop : Text → Text → Nat → Nat → Nat → Text → List Mark → List Mark × Nat
  | [], _, _, _, cursor, _, marks => (marks, asU32 cursor)
  | c :: raw, run, runStart, index, cursor, rest, marks =>
    let run := run ++ [c]
    let runEnd := index + c.utf8Size
    let scratch := normalizeText run
    if scratch.isPrefixOf rest then
      alignLoop raw [] runEnd runEnd (cursor + byteLen scratch) (rest.drop scratch.length)
        (marks ++ runMarks cursor runStart runEnd 0 scratch)
    else if maxRunBytes ≤ runEnd - runStart then (marks, asU32 cursor)
    else alignLoop raw run runStart runEnd cursor rest marks

def alignMarks (raw text : Text) : List Mark × Nat := alignLoop raw [] 0 0 0 text []

/-! Searchable text. -/

def pushSearchableField (out raw : Text) : Text :=
  if raw = [] then out
  else (if out = [] then out else out ++ [' ']) ++ normalizeField raw

/-- The folded fields, and the length of the folded label in front. -/
def searchableTextWithLabel (item : Item) : Text × Nat :=
  let label := pushSearchableField [] item.label.toList
  let out := pushSearchableField label item.description.toList
  (item.searchTerms.foldl (fun out term => pushSearchableField out term.toList) out, byteLen label)

namespace PreparedLabel

/-- The prepared label over a text whose label part is `label`. -/
def build (raw text label : Text) (labelBytes : Nat) : PreparedLabel :=
  let map :=
    if isAscii raw then none
    else if byteLen raw < 2 ^ 32 && byteLen label < 2 ^ 32 then
      let (marks, mappedEnd) := alignMarks raw label
      some (.marks marks mappedEnd)
    else some .unavailable
  { text, labelBytes, map, charLen := label.length, words := wordRanges raw label map }

/-- A length that is no character boundary falls back to the label on its own. -/
def fromSearchableText (raw text : Text) (labelBytes : Nat) : PreparedLabel :=
  match splitAtByte labelBytes text with
  | some (label, _) => build raw text label labelBytes
  | none => build raw (normalizeField raw) (normalizeField raw) (byteLen (normalizeField raw))

end PreparedLabel

end

namespace PreparedLabel

def normalized (label : PreparedLabel) : Text :=
  ((splitAtByte label.labelBytes label.text).map Prod.fst).getD []

def keywords (label : PreparedLabel) : Text :=
  let tail := ((splitAtByte label.labelBytes label.text).map Prod.snd).getD []
  match tail with
  | ' ' :: rest => rest
  | _ => tail

/-- The raw byte range a range of the folded label came from. -/
def toRaw (label : PreparedLabel) (start stop : Nat) : Option (Nat × Nat) :=
  if stop ≤ start then none
  else match label.map with
    | none => some (start, stop)
    | some .unavailable => none
    | some (.marks marks mappedEnd) =>
      if mappedEnd < stop then none
      else
        -- marks ascend, so the partition points count the marks below a bound
        let first := (marks.takeWhile (·.norm < start)).length
        let past := (marks.takeWhile (·.norm < stop)).length
        if past ≤ first then none
        else do
          let source ← marks[first]?
          let last ← marks[past - 1]?
          if source.srcStart < last.srcEnd then some (source.srcStart, last.srcEnd) else none

end PreparedLabel

/-- The text of a stored word range. -/
def wordText (label : Text) (range : Nat × Nat) : Text := (getRange label range.1 range.2).getD []

/-! Presence masks. -/

def dedicatedBits : Nat := 36

def scramble (code : BitVec 32) : BitVec 32 :=
  let hash := code ^^^ 0x9e3779b9#32
  let hash := hash * 0x85ebca6b#32
  let hash := hash ^^^ (hash >>> 13)
  let hash := hash * 0xc2b2ae35#32
  hash ^^^ (hash >>> 16)

/-- The bit of a letter or a digit. -/
def dedicatedIndex (c : Char) : Option Nat :=
  if 'a'.toNat ≤ c.toNat && c.toNat ≤ 'z'.toNat then some (c.toNat - 'a'.toNat)
  else if '0'.toNat ≤ c.toNat && c.toNat ≤ '9'.toNat then
    some (dedicatedBits - 10 + (c.toNat - '0'.toNat))
  else none

/-- The bit of a normalized character; white space has none. -/
def charBit (c : Char) : Option Nat :=
  match dedicatedIndex c with
  | some bit => some bit
  | none =>
    if isWhitespace c then none
    else some (dedicatedBits + (scramble (BitVec.ofNat 32 c.toNat)).toNat % (64 - dedicatedBits))

def maskOf (text : Text) : BitVec 64 :=
  text.foldl (fun mask c => mask ||| match charBit c with
    | some bit => BitVec.twoPow 64 bit
    | none => 0) 0

def presenceMask [Unicode] (text : Text) : BitVec 64 :=
  if isAscii text then maskOf (text.map Char.toLower) else maskOf (normalizeText text)

end CriKey.Query
