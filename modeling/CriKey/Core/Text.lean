import Mathlib

/-! The text operations that query gating reads. White space is the Unicode
property the standard library uses; lower-casing stays a parameter. -/
namespace CriKey.Core

/-- The Unicode lower-case mapping of whole strings. -/
class Lowercase where
  toLowercase : String → String

export Lowercase (toLowercase)

/-- The mapping on ASCII letters, for concrete runs. -/
@[reducible] def Lowercase.ascii : Lowercase where
  toLowercase s := String.ofList (s.toList.map Char.toLower)

def eqIgnoreAsciiCase (a b : List Char) : Bool := a.map Char.toLower = b.map Char.toLower

def isWhitespace (c : Char) : Bool :=
  let n := c.toNat
  (0x9 ≤ n && n ≤ 0xD) || n == 0x20 || n == 0x85 || n == 0xA0 || n == 0x1680 ||
    (0x2000 ≤ n && n ≤ 0x200A) || n == 0x2028 || n == 0x2029 || n == 0x202F || n == 0x205F ||
    n == 0x3000

def trim (s : String) : String :=
  String.ofList ((s.toList.dropWhile isWhitespace).reverse.dropWhile isWhitespace).reverse

/-- The first item of `split_whitespace`. -/
def firstWord (s : String) : Option String :=
  match (s.toList.dropWhile isWhitespace).takeWhile (!isWhitespace ·) with
  | [] => none
  | cs => some (String.ofList cs)

def startsWith (s start : String) : Bool := start.toList.isPrefixOf s.toList

def charCount (s : String) : Nat := s.toList.length

structure PluginId where
  name : String
deriving DecidableEq, Repr

/-- A compiled activation pattern: the declaration and its matcher. -/
structure ActivationPattern where
  source : String
  isMatch : String → Bool

end CriKey.Core
