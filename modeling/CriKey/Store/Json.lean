import CriKey.Query.Text

/-! The hand-written JSON of the per-user state files: a writer of strings, and a cursor over
the text still to be read. What the writer wrote, the cursor reads back. -/
namespace CriKey.Store
open CriKey.Core CriKey.Query List Option Nat Char

/-! Writing. -/

/-- A character inside a JSON string. -/
def escapeChar (c : Char) : Text :=
  if c = '\x22' then ['\x5c', '\x22']
  else if c = '\x5c' then ['\x5c', '\x5c']
  else if c = '\n' then ['\x5c', 'n']
  else if c = '\r' then ['\x5c', 'r']
  else if c = '\t' then ['\x5c', 't']
  else if c.toNat < 0x20 then
    ['\x5c', 'u', Nat.digitChar (c.toNat / 4096 % 16), Nat.digitChar (c.toNat / 256 % 16),
      Nat.digitChar (c.toNat / 16 % 16), Nat.digitChar (c.toNat % 16)]
  else [c]

def writeJsonString (value : Text) : Text :=
  '\x22' :: (value.flatMap escapeChar ++ ['\x22'])

def writeKey (name : String) : Text := writeJsonString name.toList ++ [':']

/-- Elements with a comma before every one but the first. -/
def writeElements (elements : List Text) : Text := List.intercalate [','] elements

/-! Reading. The cursor is the text it has not passed yet. -/

abbrev Cursor := Text

def isJsonSpace (c : Char) : Bool := c == ' ' || c == '\t' || c == '\n' || c == '\r'

variable (cursor : Cursor)

def skipWhitespace : Cursor := cursor.dropWhile isJsonSpace

def consume (expected : Char) (cursor : Cursor) : Bool × Cursor :=
  match skipWhitespace cursor with
  | [] => (false, [])
  | c :: rest => if c = expected then (true, rest) else (false, c :: rest)

def expect (expected : Char) (cursor : Cursor) : Option Cursor :=
  match consume expected cursor with
  | (true, rest) => some rest
  | (false, _) => none

def null (cursor : Cursor) : Bool × Cursor :=
  let rest := skipWhitespace cursor
  if "null".toList.isPrefixOf rest then (true, rest.drop 4) else (false, rest)

/-- An unsigned decimal integer; one that is too large is an error. -/
def numberU64 : Option (UInt64 × Cursor) :=
  let rest := skipWhitespace cursor
  let digits := rest.takeWhile isDigit
  if digits = [] then none
  else
    let value := Nat.ofDigitChars 10 digits 0
    if value < 2 ^ 64 then some (UInt64.ofNat value, rest.dropWhile isDigit) else none

def number : Option (UInt32 × Cursor) := do
  let (value, cursor) ← numberU64 cursor
  if value.toNat < 2 ^ 32 then some (UInt32.ofNat value.toNat, cursor) else none

/-- `char::to_digit(16)`. -/
def hexDigit (c : Char) : Option Nat :=
  if c.isDigit then some (c.toNat - 48)
  else if 97 ≤ c.toNat && c.toNat ≤ 102 then some (c.toNat - 87)
  else if 65 ≤ c.toNat && c.toNat ≤ 70 then some (c.toNat - 55)
  else none

/-- `char::from_u32`. -/
def charFromU32 (code : Nat) : Option Char :=
  if code.isValidChar then some (ofNat code) else none

def simpleEscape (c : Char) : Option Char :=
  if c = '\x22' then some '\x22'
  else if c = '\x5c' then some '\x5c'
  else if c = '/' then some '/'
  else if c = 'b' then some '\x08'
  else if c = 'f' then some '\x0c'
  else if c = 'n' then some '\n'
  else if c = 'r' then some '\r'
  else if c = 't' then some '\t'
  else none

/-- The text of a string after its opening quote. -/
def stringBody : Cursor → Option (Text × Cursor)
  | [] => none
  | c :: rest =>
    if c = '\x22' then some ([], rest)
    else if c = '\x5c' then
      match rest with
      | 'u' :: a :: b :: d :: e :: rest => do
        let a ← hexDigit a
        let b ← hexDigit b
        let d ← hexDigit d
        let e ← hexDigit e
        let escaped ← charFromU32 (((a * 16 + b) * 16 + d) * 16 + e)
        let (value, cursor) ← stringBody rest
        some (escaped :: value, cursor)
      | escape :: rest => do
        let escaped ← simpleEscape escape
        let (value, cursor) ← stringBody rest
        some (escaped :: value, cursor)
      | [] => none
    else if c.toNat < 0x20 then none
    else do
      let (value, cursor) ← stringBody rest
      some (c :: value, cursor)

def string : Option (Text × Cursor) := do
  let cursor ← expect '\x22' cursor
  stringBody cursor

section loops
variable {α : Type}

/-- Elements separated by commas. A turn passes a character at least, so the length of the text
is fuel enough. -/
def elementLoop (element : Cursor → Option (α × Cursor)) : Nat → Cursor → Option (List α × Cursor)
  | 0, _ => none
  | fuel + 1, cursor => do
    let (first, cursor) ← element cursor
    match consume ',' cursor with
    | (true, cursor) => do
      let (more, cursor) ← elementLoop element fuel cursor
      some (first :: more, cursor)
    | (false, cursor) => some ([first], cursor)

def array (element : Cursor → Option (α × Cursor)) (cursor : Cursor) :
    Option (List α × Cursor) := do
  let cursor ← expect '[' cursor
  match consume ']' cursor with
  | (true, cursor) => some ([], cursor)
  | (false, cursor) => do
    let (values, cursor) ← elementLoop element cursor.length cursor
    let cursor ← expect ']' cursor
    some (values, cursor)

def field (value : Text → α → Cursor → Option (α × Cursor)) (record : α) (cursor : Cursor) :
    Option (α × Cursor) := do
  let (key, cursor) ← string cursor
  let cursor ← expect ':' cursor
  value key record cursor

/-- Fields separated by commas, with the same fuel. -/
def fieldLoop (value : Text → α → Cursor → Option (α × Cursor)) :
    Nat → α → Cursor → Option (α × Cursor)
  | 0, _, _ => none
  | fuel + 1, record, cursor => do
    let (record, cursor) ← field value record cursor
    match consume ',' cursor with
    | (true, cursor) => fieldLoop value fuel record cursor
    | (false, cursor) => some (record, cursor)

end loops

/-! What the cursor makes of written text. -/

variable {c : Char}

@[simp] lemma skipWhitespace_cons (h : isJsonSpace c = false) (rest : Text) :
    skipWhitespace (c :: rest) = c :: rest := by
  rw [skipWhitespace, dropWhile_cons_of_neg (Bool.eq_false_iff.mp h)]

lemma consume_self (h : isJsonSpace c = false) (rest : Text) :
    consume c (c :: rest) = (true, rest) := by
  rw [consume, skipWhitespace_cons h]
  exact if_pos rfl

lemma consume_other {d : Char} (h : isJsonSpace d = false) (hne : d ≠ c) (rest : Text) :
    consume c (d :: rest) = (false, d :: rest) := by
  rw [consume, skipWhitespace_cons h]
  exact if_neg hne

lemma expect_self (h : isJsonSpace c = false) (rest : Text) : expect c (c :: rest) = some rest := by
  rw [expect, consume_self h]

/-! Strings. -/

lemma hexDigit_digitChar : ∀ n < 16, hexDigit (Nat.digitChar n) = some n := by decide

lemma stringBody_escape_u {a b d e code : Nat} (ha : a < 16) (hb : b < 16) (hd : d < 16)
    (he : e < 16) (hcode : ((a * 16 + b) * 16 + d) * 16 + e = code) (hvalid : code.isValidChar)
    (rest : Text) :
    stringBody ('\x5c' :: 'u' :: Nat.digitChar a :: Nat.digitChar b :: Nat.digitChar d ::
      Nat.digitChar e :: rest) =
      (stringBody rest).map fun read => (ofNat code :: read.1, read.2) := by
  have hslash : ('\x5c' : Char) ≠ '\x22' := by decide
  rw [stringBody]
  simp only [hexDigit_digitChar a ha, hexDigit_digitChar b hb, hexDigit_digitChar d hd,
    hexDigit_digitChar e he, hcode, charFromU32, if_pos hvalid, bind_eq_bind, bind_some]
  cases stringBody rest <;> rfl

lemma stringBody_escapeChar (c : Char) (rest : Text) :
    stringBody (escapeChar c ++ rest) = (stringBody rest).map fun read =>
      (c :: read.1, read.2) := by
  have hsimple {escape : Char} (hu : escape ≠ 'u') (h : simpleEscape escape = some c) :
      stringBody ('\x5c' :: escape :: rest) =
        (stringBody rest).map fun read => (c :: read.1, read.2) := by
    have hslash : ('\x5c' : Char) ≠ '\x22' := by decide
    rw [stringBody.eq_def]
    simp only [if_neg hslash, if_true]
    split
    · rename_i heq
      injection heq with hfirst
      exact absurd hfirst hu
    · rename_i heq
      injection heq with hfirst hrest
      subst hfirst hrest
      rw [h]
      cases stringBody rest <;> rfl
    · rename_i heq
      cases heq
  rw [escapeChar]
  iterate 5
    split
    · rename_i hc
      exact hsimple (by decide) (by rw [hc]; rfl)
  split
  · -- a control character comes back from its code
    have hvalid : c.toNat.isValidChar := Or.inl (by omega)
    have hread := stringBody_escape_u (mod_lt (c.toNat / 4096) (by omega))
      (mod_lt (c.toNat / 256) (by omega)) (mod_lt (c.toNat / 16) (by omega))
      (mod_lt c.toNat (by omega)) (show _ = c.toNat by omega) hvalid rest
    rwa [ofNat_toNat] at hread
  · rename_i hquote hslash _ _ _ hcontrol
    rw [cons_append, nil_append, stringBody.eq_def]
    simp only [if_neg hquote, if_neg hslash, if_neg hcontrol]
    cases stringBody rest <;> rfl

lemma stringBody_write (value rest : Text) :
    stringBody (value.flatMap escapeChar ++ '\x22' :: rest) = some (value, rest) := by
  induction value with
  | nil =>
    rw [flatMap_nil, stringBody.eq_def]
    exact if_pos rfl
  | cons c value ih =>
    rw [flatMap_cons, append_assoc, stringBody_escapeChar, ih]
    rfl

lemma string_write (value rest : Text) :
    string (writeJsonString value ++ rest) = some (value, rest) := by
  rw [string, writeJsonString, cons_append, append_assoc]
  exact stringBody_write value rest

/-! Numbers. -/

def NoDigit (rest : Text) : Prop := ∀ c ∈ rest.head?, c.isDigit = false

variable {rest : Text}

lemma takeWhile_digits {digits : Text} (hd : ∀ c ∈ digits, c.isDigit) (hr : NoDigit rest) :
    (digits ++ rest).takeWhile isDigit = digits ∧ (digits ++ rest).dropWhile isDigit = rest := by
  rw [takeWhile_append_of_pos hd, dropWhile_append_of_pos hd]
  cases rest with
  | nil => exact ⟨append_nil digits, rfl⟩
  | cons c rest =>
    have hc : ¬c.isDigit := Bool.eq_false_iff.mp (hr c rfl)
    rw [takeWhile_cons_of_neg hc, dropWhile_cons_of_neg hc]
    exact ⟨append_nil digits, rfl⟩

lemma not_space_of_isDigit (h : c.isDigit) : isJsonSpace c = false := by
  cases hs : isJsonSpace c with
  | false => rfl
  | true =>
    simp only [isJsonSpace, Bool.or_eq_true, beq_iff_eq] at hs
    rcases hs with ((hs | hs) | hs) | hs <;> (rw [hs] at h; cases h)

lemma numberU64_write {n : Nat} (h : n < 2 ^ 64) (hr : NoDigit rest) :
    numberU64 (Nat.toDigits 10 n ++ rest) = some (UInt64.ofNat n, rest) := by
  have hdigits : ∀ c ∈ toDigits 10 n, c.isDigit := fun c hc =>
    isDigit_of_mem_toDigits (by omega) (by omega) hc
  have hskip : skipWhitespace (toDigits 10 n ++ rest) = toDigits 10 n ++ rest := by
    cases hn : toDigits 10 n with
    | nil => exact absurd hn toDigits_ne_nil
    | cons c digits =>
      exact skipWhitespace_cons (not_space_of_isDigit (hdigits c (hn ▸ mem_cons_self))) _
  obtain ⟨htake, hdrop⟩ := takeWhile_digits hdigits hr
  rw [numberU64, hskip]
  simp only [htake, hdrop, if_neg toDigits_ne_nil, ofDigitChars_ten_toDigits, if_pos h]

lemma number_write (n : UInt32) (hr : NoDigit rest) :
    number (Nat.toDigits 10 n.toNat ++ rest) = some (n, rest) := by
  have hn : n.toNat < 2 ^ 32 := n.toNat_lt
  have hwide : n.toNat < 2 ^ 64 := by omega
  have hvalue : (UInt64.ofNat n.toNat).toNat = n.toNat := mod_eq_of_lt hwide
  rw [number, numberU64_write hwide hr]
  simp only [bind_eq_bind, bind_some, hvalue, if_pos hn, UInt32.ofNat_toNat]

/-! Arrays and objects. -/

section loops
variable {α : Type}

/-- A reader takes exactly what a writer wrote, whatever follows. -/
def Reads (read : Cursor → Option (α × Cursor)) (written : Text) (value : α) : Prop :=
  ∀ rest, read (written ++ rest) = some (value, rest)

lemma writeElements_cons (first second : Text) (rest : List Text) :
    writeElements (first :: second :: rest) = first ++ ',' :: writeElements (second :: rest) := by
  simp [writeElements]

variable {element : Cursor → Option (α × Cursor)}

lemma elementLoop_write {write : α → Text}
    {values : List α} (h : ∀ value ∈ values, Reads element (write value) value)
    (hne : values ≠ []) {fuel : Nat} (hfuel : values.length ≤ fuel) (rest : Text) :
    elementLoop element fuel (writeElements (values.map write) ++ ']' :: rest) =
      some (values, ']' :: rest) := by
  induction values generalizing fuel with
  | nil => exact absurd rfl hne
  | cons first values ih =>
    cases fuel with
    | zero => cases hfuel
    | succ fuel =>
      have hfirst := h first List.mem_cons_self
      have hlater : ∀ value ∈ values, Reads element (write value) value := fun value hvalue =>
        h value (List.mem_cons_of_mem first hvalue)
      cases values with
      | nil =>
        have hone : writeElements (List.map write [first]) = write first := by
          simp [writeElements]
        rw [hone, elementLoop, hfirst]
        simp only [Option.bind_eq_bind, Option.bind_some,
          consume_other (c := ',') (d := ']') (by decide) (by decide)]
      | cons second values =>
        have hrest := ih hlater (cons_ne_nil _ _) (le_of_succ_le_succ hfuel)
        rw [map_cons, map_cons, writeElements_cons, append_assoc, elementLoop, hfirst]
        simp only [bind_eq_bind, bind_some, cons_append, consume_self (c := ',') (by decide)]
        rw [← map_cons, hrest]
        rfl

lemma length_le_writeElements {elements : List Text} (h : ∀ element ∈ elements, element ≠ []) :
    elements.length ≤ (writeElements elements).length := by
  induction elements with
  | nil => exact zero_le _
  | cons first elements ih =>
    have hfirst := length_pos_of_ne_nil (h first mem_cons_self)
    have hrest := ih fun element he => h element (mem_cons_of_mem first he)
    cases elements with
    | nil =>
      have hone : writeElements [first] = first := by simp [writeElements]
      rw [hone]
      exact hfirst
    | cons second elements =>
      rw [writeElements_cons]
      simp only [length_append, length_cons] at hrest ⊢
      omega

lemma array_write {write : α → Text} {values : List α}
    (h : ∀ value ∈ values, Reads element (write value) value)
    (hhead : ∀ value ∈ values, ∃ c text, write value = c :: text ∧ isJsonSpace c = false ∧
      c ≠ ']') :
    Reads (array element) ('[' :: (writeElements (values.map write) ++ [']'])) values := by
  intro rest
  rw [List.cons_append, List.append_assoc, array, expect_self (by decide)]
  simp only [Option.bind_eq_bind, Option.bind_some, List.cons_append, List.nil_append]
  cases values with
  | nil =>
    have hnone : writeElements (List.map write []) = [] := rfl
    rw [hnone, List.nil_append, consume_self (by decide)]
  | cons first values =>
    obtain ⟨c, text, hfirst, hspace, hne⟩ := hhead first List.mem_cons_self
    have hnotEmpty : ∀ part ∈ (first :: values).map write, part ≠ [] := by
      intro part hpart
      obtain ⟨value, hvalue, hwrite⟩ := List.mem_map.mp hpart
      obtain ⟨d, more, hd, -⟩ := hhead value hvalue
      rw [← hwrite, hd]
      exact List.cons_ne_nil _ _
    have hbegin : ∃ more, writeElements ((first :: values).map write) = c :: more := by
      cases values with
      | nil => exact ⟨text, by simp [writeElements, hfirst]⟩
      | cons second values =>
        rw [List.map_cons, List.map_cons, hfirst]
        exact ⟨_, rfl⟩
    obtain ⟨more, hmore⟩ := hbegin
    have hconsume : consume ']' (writeElements ((first :: values).map write) ++ ']' :: rest) =
        (false, writeElements ((first :: values).map write) ++ ']' :: rest) := by
      rw [hmore]
      exact consume_other hspace hne _
    have hlength := length_le_writeElements hnotEmpty
    rw [List.length_map] at hlength
    have hfuel : (first :: values).length ≤
        (writeElements ((first :: values).map write) ++ ']' :: rest).length := by
      rw [List.length_append]
      omega
    rw [hconsume]
    simp only
    rw [elementLoop_write h (List.cons_ne_nil _ _) hfuel]
    simp only [Option.bind_some, expect_self (c := ']') (by decide)]

lemma field_write {value : Text → α → Cursor → Option (α × Cursor)} {name : String}
    {record record' : α} {written rest' : Text}
    (h : value name.toList record (written ++ rest) = some (record', rest')) :
    field value record (writeKey name ++ (written ++ rest)) = some (record', rest') := by
  rw [field, writeKey, append_assoc, string_write]
  exact h

end loops

end CriKey.Store
