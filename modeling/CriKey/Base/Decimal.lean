import Mathlib

/-! Decimal numbers as text. One sign is allowed where a parser allows it, and nothing else. -/
namespace CriKey.Base
open Nat

def digits? (text : List Char) : Option Nat :=
  if text ≠ [] && text.all Char.isDigit then some (Nat.ofDigitChars 10 text 0) else none

def dropPlus : List Char → List Char
  | '+' :: text => text
  | text => text

def parseUnsigned (bound : Nat) (text : List Char) : Option Nat :=
  (digits? (dropPlus text)).filter (· < bound)

/-- Signed numbers from `-bound` up to `bound - 1`. -/
def parseSigned (bound : Nat) : List Char → Option Int
  | '-' :: text => ((digits? text).filter (· ≤ bound)).map fun n => -(n : Int)
  | text => (parseUnsigned bound text).map Int.ofNat

lemma digits?_toDigits (n : Nat) : digits? (Nat.toDigits 10 n) = some n := by
  have hall : (toDigits 10 n).all Char.isDigit = true := by
    rw [List.all_eq_true]
    exact fun c hc => isDigit_of_mem_toDigits (by omega) (by omega) hc
  have hne : toDigits 10 n ≠ [] := toDigits_ne_nil
  rw [digits?, hall, ofDigitChars_ten_toDigits]
  simp [hne]

lemma dropPlus_of_digits {text : List Char} (h : ∀ c ∈ text, c.isDigit = true) :
    dropPlus text = text := by
  match text with
  | [] => rfl
  | c :: rest =>
    have hc : c ≠ '+' := by
      intro heq
      have := h c List.mem_cons_self
      rw [heq] at this
      exact absurd this (by decide)
    unfold dropPlus
    split
    · rename_i heq
      exact absurd (List.cons.inj heq).1 hc
    · rfl

lemma parseUnsigned_toDigits {bound n : Nat} (h : n < bound) :
    parseUnsigned bound (Nat.toDigits 10 n) = some n := by
  rw [parseUnsigned, dropPlus_of_digits fun c hc =>
    isDigit_of_mem_toDigits (by omega) (by omega) hc, digits?_toDigits]
  simp [h]

end CriKey.Base
