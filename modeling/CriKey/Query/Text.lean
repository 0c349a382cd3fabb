import CriKey.Core.Text

/-! Text as the matcher reads it: characters in order, addressed by byte offset. -/
namespace CriKey.Query
open CriKey.Core List Option

abbrev Text := List Char

variable (text : Text)

/-- `str::len`. -/
def byteLen : Nat := (text.map Char.utf8Size).sum

/-- The text before and after a byte offset, when the offset is a character boundary. -/
def splitAtByte : Nat → Text → Option (Text × Text)
  | 0, text => some ([], text)
  | _ + 1, [] => none
  | n + 1, c :: text =>
    if c.utf8Size ≤ n + 1 then
      (splitAtByte (n + 1 - c.utf8Size) text).map fun parts => (c :: parts.1, parts.2)
    else none

/-- `str::get(start..stop)`. -/
def getRange (start stop : Nat) : Option Text := do
  let (_, tail) ← splitAtByte start text
  if stop < start then none else do
  let (middle, _) ← splitAtByte (stop - start) tail
  some middle

def isAscii : Bool := text.all (·.toNat < 128)

def trimStart : Text := text.dropWhile isWhitespace

def trimText : Text := (trimStart text).rdropWhile isWhitespace

/-- `split_whitespace`. -/
def splitWhitespace : List Text := (text.splitOnP isWhitespace).filter (· != [])

/-- The text before the first occurrence of `needle`. -/
def findText (needle : Text) : Text → Option Text
  | [] => if needle = [] then some [] else none
  | c :: text =>
    if needle.isPrefixOf (c :: text) then some []
    else (findText needle text).map (c :: ·)

def containsText (text needle : Text) : Bool := (findText needle text).isSome

/-- The character properties and the caseless normal form the Unicode tables give. -/
class Unicode where
  /-- `nfkc`, `case_fold` and `nfkc` again. -/
  normalizeText : Text → Text
  isAlphabetic : Char → Bool
  isNumeric : Char → Bool
  isLowercase : Char → Bool
  isUppercase : Char → Bool
  /-- The general categories of nonspacing, spacing and enclosing marks. -/
  isMarkCategory : Char → Bool

export Unicode (normalizeText isAlphabetic isNumeric isLowercase isUppercase isMarkCategory)

section
variable [Unicode]

def isAlphanumeric (c : Char) : Bool := isAlphabetic c || isNumeric c

def isMark (c : Char) : Bool := 128 ≤ c.toNat && isMarkCategory c

def normalizeField (raw : Text) : Text :=
  if isAscii raw then raw.map Char.toLower else normalizeText raw

end

/-- Tables that know ASCII only. -/
@[reducible] def Unicode.ascii : Unicode where
  normalizeText := List.map Char.toLower
  isAlphabetic := Char.isAlpha
  isNumeric := Char.isDigit
  isLowercase := Char.isLower
  isUppercase := Char.isUpper
  isMarkCategory := fun _ => false

/-! Byte offsets. -/

@[simp] lemma byteLen_nil : byteLen [] = 0 := rfl

@[simp] lemma byteLen_cons (c : Char) (text : Text) :
    byteLen (c :: text) = c.utf8Size + byteLen text := by
  rw [byteLen, map_cons]
  rfl

lemma byteLen_toList (value : String) : byteLen value.toList = value.utf8ByteSize := by
  rw [← String.utf8Len_toList]
  induction value.toList with
  | nil => rfl
  | cons c text ih => rw [byteLen_cons, ih, String.utf8Len_cons, Nat.add_comm]

@[simp] lemma byteLen_append (a b : Text) : byteLen (a ++ b) = byteLen a + byteLen b := by
  rw [byteLen, map_append, sum_append]
  rfl

variable {text : Text}

lemma byteLen_eq_zero : byteLen text = 0 ↔ text = [] := by
  cases text with
  | nil => simp
  | cons c text =>
    have hpos := c.utf8Size_pos
    simp only [byteLen_cons, reduceCtorEq, iff_false]
    omega

lemma splitAtByte_eq_some {n : Nat} {before after : Text} :
    splitAtByte n text = some (before, after) ↔ text = before ++ after ∧ byteLen before = n := by
  induction text generalizing n before with
  | nil =>
    cases n with
    | zero =>
      constructor
      · intro h
        cases h
        exact ⟨rfl, rfl⟩
      · rintro ⟨h, -⟩
        obtain ⟨rfl, rfl⟩ := append_eq_nil_iff.mp h.symm
        rfl
    | succ n =>
      constructor
      · intro h
        cases h
      · rintro ⟨h, hlen⟩
        obtain ⟨rfl, rfl⟩ := append_eq_nil_iff.mp h.symm
        cases hlen
  | cons c text ih =>
    cases n with
    | zero =>
      rw [splitAtByte, byteLen_eq_zero]
      constructor
      · intro h
        cases h
        exact ⟨rfl, rfl⟩
      · rintro ⟨h, rfl⟩
        rw [h]
        rfl
    | succ n =>
      rw [splitAtByte]
      constructor
      · intro h
        split at h
        · rw [map_eq_some_iff] at h
          obtain ⟨⟨before', after'⟩, hsplit, heq⟩ := h
          obtain ⟨rfl, rfl⟩ := Prod.mk.inj heq
          obtain ⟨rfl, hlen⟩ := ih.mp hsplit
          refine ⟨rfl, ?_⟩
          show byteLen (c :: before') = n + 1
          rw [byteLen_cons]
          omega
        · cases h
      · rintro ⟨h, hlen⟩
        cases before with
        | nil => cases hlen
        | cons d before =>
          obtain ⟨rfl, rfl⟩ := h
          rw [byteLen_cons] at hlen
          rw [if_pos (by omega), ih.mpr ⟨rfl, by omega⟩]
          rfl

lemma splitAtByte_append (a b : Text) : splitAtByte (byteLen a) (a ++ b) = some (a, b) :=
  splitAtByte_eq_some.mpr ⟨rfl, rfl⟩

lemma getRange_eq_some {middle : Text} {start stop : Nat} : getRange text start stop = some middle ↔
      ∃ before after, text = before ++ middle ++ after ∧ byteLen before = start ∧
        start + byteLen middle = stop := by
  simp only [getRange, bind_eq_bind, bind_eq_some_iff]
  constructor
  · rintro ⟨⟨before, tail⟩, hsplit, h⟩
    obtain ⟨rfl, hstart⟩ := splitAtByte_eq_some.mp hsplit
    split at h
    · cases h
    rw [bind_eq_some_iff] at h
    obtain ⟨⟨middle', after⟩, hsplit', hmiddle⟩ := h
    obtain rfl : middle' = middle := some.inj hmiddle
    obtain ⟨rfl, hlen⟩ := splitAtByte_eq_some.mp hsplit'
    refine ⟨before, after, by simp, hstart, by omega⟩
  · rintro ⟨before, after, rfl, rfl, rfl⟩
    refine ⟨(before, middle ++ after), splitAtByte_eq_some.mpr ⟨by simp, rfl⟩, ?_⟩
    rw [if_neg (by omega), bind_eq_some_iff]
    exact ⟨(middle, after), splitAtByte_eq_some.mpr ⟨rfl, by simp⟩, rfl⟩

/-! Searching. -/

variable {needle : Text}

lemma findText_eq_some {before : Text} (h : findText needle text = some before) :
    ∃ after, text = before ++ needle ++ after := by
  induction text generalizing before with
  | nil =>
    rw [findText] at h
    split at h
    · rename_i hn
      cases h
      exact ⟨[], by rw [hn]; rfl⟩
    · cases h
  | cons c text ih =>
    rw [findText] at h
    split at h
    · rename_i hp
      cases h
      obtain ⟨after, ha⟩ := isPrefixOf_iff_prefix.mp hp
      exact ⟨after, ha.symm⟩
    · rw [map_eq_some_iff] at h
      obtain ⟨before', hfind, rfl⟩ := h
      obtain ⟨after, rfl⟩ := ih hfind
      exact ⟨after, rfl⟩

lemma findText_isSome (before after : Text) :
    (findText needle (before ++ needle ++ after)).isSome := by
  induction before with
  | nil =>
    cases needle with
    | nil =>
      cases after <;> rfl
    | cons c needle =>
      have hp : (c :: needle).isPrefixOf (c :: (needle ++ after)) :=
        isPrefixOf_iff_prefix.mpr ⟨after, rfl⟩
      rw [nil_append, cons_append, findText, if_pos hp]
      rfl
  | cons c before ih =>
    rw [cons_append, cons_append, findText]
    split
    · rfl
    · rw [isSome_map]
      exact ih

lemma containsText_iff : containsText text needle ↔ needle <:+: text := by
  constructor
  · intro h
    obtain ⟨before, hb⟩ := isSome_iff_exists.mp h
    obtain ⟨after, ha⟩ := findText_eq_some hb
    exact ⟨before, after, ha.symm⟩
  · rintro ⟨before, after, rfl⟩
    exact findText_isSome before after

end CriKey.Query
