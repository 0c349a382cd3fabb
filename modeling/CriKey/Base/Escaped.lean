import Mathlib

/-! Texts in which one unit marks the start of an escape. All escapes have the same width; what they
stand for, and which of them are refused, is left to the reader of a single escape. -/
namespace CriKey.Base
open List
variable {α ε : Type*} [DecidableEq α] (mark : α) (width : Nat) (read : List α → Nat → Except ε α)

/-- The text behind its escapes. `read` gets an escape with all that follows it, and its offset. -/
def unescape (offset : Nat) : List α → Except ε (List α)
  | [] => .ok []
  | unit :: rest =>
    if unit = mark then do
      let named ← read (unit :: rest) offset
      let text ← unescape (offset + (width + 1)) (rest.drop width)
      .ok (named :: text)
    else do
      let text ← unescape (offset + 1) rest
      .ok (unit :: text)
termination_by text => text.length
decreasing_by
  · simp only [List.length_drop, List.length_cons]
    omega
  · simp only [List.length_cons]
    omega

/-- `written` is read as `text`, wherever it stands and whatever follows. -/
def ReadsAs (written text : List α) : Prop :=
  ∀ offset rest, unescape mark width read offset (written ++ rest) =
    (unescape mark width read (offset + written.length) rest).map (text ++ ·)

namespace ReadsAs
variable {mark width read} {written text written' text' : List α}

lemma nil : ReadsAs mark width read [] [] := fun offset rest => by
  cases h : unescape mark width read offset rest with
  | error e | ok text => simp [h, Except.map]

lemma append (h : ReadsAs mark width read written text)
    (h' : ReadsAs mark width read written' text') :
    ReadsAs mark width read (written ++ written') (text ++ text') := fun offset rest => by
  rw [append_assoc, h, h', length_append, Nat.add_assoc]
  cases unescape mark width read (offset + (written.length + written'.length)) rest with
  | error e => rfl
  | ok tail => simp [Except.map]

lemma plain {unit : α} (h : unit ≠ mark) : ReadsAs mark width read [unit] [unit] :=
  fun offset rest => by
    rw [singleton_append, unescape, if_neg h]
    rfl

lemma escape {code : List α} {named : α} (hwidth : code.length = width)
    (hread : ∀ offset rest, read (mark :: code ++ rest) offset = .ok named) :
    ReadsAs mark width read (mark :: code) [named] := fun offset rest => by
  have hdrop : (code ++ rest).drop width = rest := by rw [← hwidth, drop_left]
  rw [cons_append, unescape, if_pos rfl, ← cons_append, hread, hdrop, length_cons, hwidth]
  rfl

lemma flatMap {β : Type*} {f g : β → List α} {xs : List β}
    (h : ∀ x ∈ xs, ReadsAs mark width read (f x) (g x)) :
    ReadsAs mark width read (xs.flatMap f) (xs.flatMap g) := by
  induction xs with
  | nil => exact nil
  | cons x xs ih =>
    rw [flatMap_cons, flatMap_cons]
    exact (h x mem_cons_self).append (ih fun y hy => h y (mem_cons_of_mem x hy))

lemma verbatim {units : List α} (h : mark ∉ units) : ReadsAs mark width read units units := by
  have hunits : ∀ unit ∈ units, ReadsAs mark width read [unit] [unit] := fun unit hmem =>
    plain fun heq => h (heq ▸ hmem)
  have hall := flatMap hunits
  rwa [flatMap_singleton'] at hall

lemma whole (h : ReadsAs mark width read written text) (offset : Nat) :
    unescape mark width read offset written = .ok text := by
  have hread := h offset []
  rwa [append_nil, unescape, Except.map, append_nil] at hread

end ReadsAs

end CriKey.Base
