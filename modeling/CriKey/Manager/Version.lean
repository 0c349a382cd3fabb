import CriKey.Base.Decimal
import CriKey.Base.Separated
import CriKey.Core.Text

/-! Versions of indexed packages: how they are read, and in which order they are. -/
namespace CriKey.Manager
open CriKey.Base Char
open CriKey.Core (trim)

inductive PrePart where
  | numeric (number : Nat)
  | text (label : String)
deriving DecidableEq, Repr

structure Version where
  epoch : Nat
  release : List Nat
  pre : Option (List PrePart)
  post : Option Nat
  dev : Option Nat
deriving DecidableEq, Repr

def Version.isPrerelease (version : Version) : Bool := version.pre.isSome || version.dev.isSome

/-! ### Order -/

/-- Missing segments count as zero. -/
def cmpRelease (left right : List Nat) : Ordering :=
  (List.range (max left.length right.length)).foldr
    (fun index rest => (compare (left.getD index 0) (right.getD index 0)).then rest) .eq

def preLabelRank (label : String) : Nat :=
  if label = "a" || label = "alpha" then 0
  else if label = "b" || label = "beta" then 1
  else if label = "c" || label = "rc" || label = "pre" || label = "preview" then 2
  else 3

def PrePart.cmp : PrePart → PrePart → Ordering
  | .numeric left, .numeric right => compare left right
  | .numeric _, .text _ => .lt
  | .text _, .numeric _ => .gt
  | .text left, .text right =>
    (compare (preLabelRank left) (preLabelRank right)).then (compare left right)

def cmpPreRelease : List PrePart → List PrePart → Ordering
  | left :: lefts, right :: rights => (left.cmp right).then (cmpPreRelease lefts rights)
  | lefts, rights => compare lefts.length rights.length

/-- A component that only one of two versions has puts that one on the given side. -/
def cmpComponent {α : Type} (present : Ordering) (cmp : α → α → Ordering) :
    Option α → Option α → Ordering
  | some left, some right => cmp left right
  | some _, none => present
  | none, some _ => present.swap
  | none, none => .eq

def Version.cmp (left right : Version) : Ordering :=
  (compare left.epoch right.epoch).then <|
  (cmpRelease left.release right.release).then <|
  (cmpComponent .lt compare left.dev right.dev).then <|
  (cmpComponent .lt cmpPreRelease left.pre right.pre).then <|
  cmpComponent .gt compare left.post right.post

/-! ### Reading -/

/-- A text before and after the first occurrence of a character. -/
def splitOnce (c : Char) (text : List Char) : Option (List Char × List Char) :=
  match text.dropWhile (· ≠ c) with
  | [] => none
  | _ :: rest => some (text.takeWhile (· ≠ c), rest)

def trimEndDots (text : List Char) : List Char := (text.reverse.dropWhile (· = '.')).reverse

def stripLabel (label : String) (text : List Char) : Option (List Char) :=
  text.dropPrefix? label.toList

abbrev VersionSuffix := Option (List PrePart) × Option Nat × Option Nat

def suffixNumber (number : List Char) : Except String Nat :=
  if number = [] then .ok 0
  else
    match parseUnsigned (2 ^ 64) number with
    | some value => .ok value
    | none => .error "suffix number is not a valid integer"

def preLabels : List String := ["a", "alpha", "b", "beta", "c", "rc", "pre", "preview"]

def preNumber (number : List Char) : Except String PrePart :=
  match parseUnsigned (2 ^ 64) number with
  | some value => .ok (.numeric value)
  | none => .error "pre-release number is not a valid integer"

/-- One dot-free part of a pre-release: a number, a label, or a label with a number behind it. -/
def preParts (raw : List Char) : Except String (List PrePart) :=
  if raw = [] then .error "pre-release contains an empty segment"
  else if raw.all isDigit then (preNumber raw).map ([·])
  else
    let label := raw.takeWhile (!isDigit ·)
    let number := raw.dropWhile (!isDigit ·)
    if number = [] then .ok [.text (String.ofList raw)]
    else if !number.all isDigit then .ok [.text (String.ofList raw)]
    else (preNumber number).map fun part => [.text (String.ofList label), part]

/-- The prefixes are tried in this order. -/
def numberedSuffixes : List (String × Bool) :=
  [("post", true), ("rev", true), ("r", true), ("dev", false)]

def parseSuffix (suffix : List Char) (allowArbitraryPre : Bool) : Except String VersionSuffix :=
  if suffix = [] then .ok (none, none, none)
  else
    let lower := suffix.map toLower
    match numberedSuffixes.findSome? fun entry =>
      (stripLabel entry.1 lower).map fun number => (number, entry.2) with
    | some (number, isPost) => do
      let value ← suffixNumber number
      return if isPost then (none, some value, none) else (none, none, some value)
    | none =>
      if !allowArbitraryPre && !preLabels.any fun label =>
          (stripLabel label lower).any fun rest => rest.all isDigit then
        .error "unknown pre-release suffix"
      else do
        let parts ← (lower.splitOn '.').mapM preParts
        return (some parts.flatten, none, none)

def releaseSegment (segment : List Char) : Except String Nat :=
  if segment = [] then .error "release contains an empty segment"
  else
    match parseUnsigned (2 ^ 64) segment with
    | some number => .ok number
    | none => .error "release segment is not a valid integer"

def publicPart (value : List Char) : Except String (List Char) :=
  match splitOnce '+' value with
  | none => .ok value
  | some (shown, label) =>
    if label = [] || '+' ∈ label then .error "local version label is malformed" else .ok shown

def epochPart (base : List Char) : Except String (Nat × List Char) :=
  match splitOnce '!' base with
  | none => .ok (0, base)
  | some (epoch, rest) =>
    match parseUnsigned (2 ^ 64) epoch with
    | some epoch => .ok (epoch, rest)
    | none => .error "epoch is not numeric"

def dropV : List Char → List Char
  | 'v' :: text => text
  | text => text

def isReleaseChar (c : Char) : Bool := c.isDigit || c = '.'

def parseVersion (value : String) : Except String Version := do
  let value := (trim value).toList
  if value = [] then throw "version is empty"
  let shown ← publicPart value
  let (base, hyphenPre) : List Char × Option (List Char) :=
    match splitOnce '-' shown with
    | some (base, pre) => (base, some pre)
    | none => (shown, none)
  if hyphenPre = some [] then throw "pre-release label is empty"
  let (epoch, rest) ← epochPart base
  let rest := dropV rest
  let releaseText := trimEndDots (rest.takeWhile isReleaseChar)
  if releaseText = [] then throw "release segment is missing"
  let release ← (releaseText.splitOn '.').mapM releaseSegment
  let written := rest.dropWhile isReleaseChar
  let suffix ←
    match written, hyphenPre with
    | [], some pre => pure pre
    | _ :: _, some _ => throw "version has two pre-release suffixes"
    | written, none => pure written
  let (pre, post, dev) ← parseSuffix suffix hyphenPre.isSome
  return ⟨epoch, release, pre, post, dev⟩

end CriKey.Manager
