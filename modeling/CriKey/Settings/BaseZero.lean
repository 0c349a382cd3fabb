import CriKey.Base.Fallible
import CriKey.Base.Word

/-! Integer settings of legacy packages, in the grammar of Python's `int(text, base=0)`. -/
namespace CriKey.Settings
open CriKey.Base List Option

variable (radix : Nat)

/-- `char::to_digit`. -/
def toDigit (c : Char) : Option Nat :=
  (if c.isDigit then some (c.toNat - 48)
    else if 97 ≤ c.toNat && c.toNat ≤ 122 then some (c.toNat - 87)
    else if 65 ≤ c.toNat && c.toNat ≤ 90 then some (c.toNat - 55)
    else none).filter (· < radix)

/-- The radix that a letter after a zero announces. -/
def radixOf : Char → Option Nat
  | 'x' | 'X' => some 16
  | 'o' | 'O' => some 8
  | 'b' | 'B' => some 2
  | _ => none

/-- Radix, digits, and whether a letter announced the radix. -/
def splitRadix (unsigned : List Char) : Nat × List Char × Bool :=
  match unsigned with
  | '0' :: letter :: rest =>
    match radixOf letter with
    | some radix => (radix, rest, true)
    | none => (10, unsigned, false)
  | _ => (10, unsigned, false)

structure Scan where
  previousWasDigit : Bool := false
  sawDigit : Bool := false
  hasUnderscore : Bool := false
deriving DecidableEq

def scanStep (scan : Scan) (c : Char) : Option Scan :=
  if c = '_' then
    if scan.previousWasDigit then
      some { scan with previousWasDigit := false, hasUnderscore := true }
    else none
  else (toDigit radix c).map fun _ => { scan with previousWasDigit := true, sawDigit := true }

def addDigit (radix magnitude : Nat) (c : Char) : Option Nat :=
  (toDigit radix c).map (magnitude * radix + ·)

/-- `u64::from_str_radix` of digits. -/
def fromStrRadix (text : List Char) : Option Nat :=
  (text.foldlM (addDigit radix) 0).filter (· ≤ u64Max)

/-- The scan over the digits, and their magnitude. -/
def parseDigits (digits : List Char) : Option Nat := do
  let scan ← digits.foldlM (scanStep radix) {}
  if !scan.sawDigit || !scan.previousWasDigit then none else
  let normalized := if scan.hasUnderscore then digits.filter (· != '_') else digits
  if radix = 10 && normalized.head? = some '0' && normalized.any (· ≠ '0') then none else
  fromStrRadix radix normalized

def parseUnsigned (unsigned : List Char) : Option Nat :=
  let (radix, digits, prefixed) := splitRadix unsigned
  parseDigits radix (if prefixed && digits.head? = some '_' then digits.tail else digits)

def parseBaseZero : List Char → Option (Bool × Nat)
  | '+' :: unsigned => (parseUnsigned unsigned).map (false, ·)
  | '-' :: unsigned => (parseUnsigned unsigned).map (true, ·)
  | unsigned => (parseUnsigned unsigned).map (false, ·)

/-! ### The grammar -/

/-- Digits with single underscores between them, or with one at the end. -/
def Opening (t : List Char) : Prop :=
  (∀ c ∈ t, c = '_' ∨ toDigit radix c ≠ none) ∧ t.head? ≠ some '_' ∧
    t.IsChain fun a b => a ≠ '_' ∨ b ≠ '_'

def Digits (t : List Char) : Prop :=
  Opening radix t ∧ ∃ c, t.getLast? = some c ∧ c ≠ '_'

/-- The value of digits, the most significant first. -/
def valueOf (t : List Char) : Nat :=
  (t.filterMap (toDigit radix)).foldl (fun value digit => value * radix + digit) 0

/-- A numeral without its sign. A decimal one that starts with a zero is zero. -/
inductive Unsigned : List Char → Nat → Prop
  | based {letter : Char} {radix : Nat} {t : List Char} (hr : radixOf letter = some radix)
      (h : Digits radix t) : Unsigned ('0' :: letter :: t) (valueOf radix t)
  | under {letter : Char} {radix : Nat} {t : List Char} (hr : radixOf letter = some radix)
      (h : Digits radix t) : Unsigned ('0' :: letter :: '_' :: t) (valueOf radix t)
  | decimal {t : List Char} (h : Digits 10 t)
      (hzero : t.head? = some '0' → ∀ c ∈ t, c = '0' ∨ c = '_') : Unsigned t (valueOf 10 t)

inductive Numeral : List Char → Bool → Nat → Prop
  | plain {t : List Char} {m : Nat} (h : Unsigned t m) : Numeral t false m
  | plus {t : List Char} {m : Nat} (h : Unsigned t m) : Numeral ('+' :: t) false m
  | minus {t : List Char} {m : Nat} (h : Unsigned t m) : Numeral ('-' :: t) true m

variable {radix m : Nat} {t : List Char}

lemma toDigit_underscore : toDigit radix '_' = none := rfl

lemma scan_iff {scan : Scan} : t.foldlM (scanStep radix) {} = some scan ↔ Opening radix t ∧
    scan = ⟨t.getLast?.any (· ≠ '_'), !t.isEmpty, t.contains '_'⟩ := by
  induction t using reverseRecOn generalizing scan with
  | nil => simp [Opening, eq_comm]
  | append_singleton t c ih =>
    rw [foldlM_append, bind_eq_bind, bind_eq_some_iff]
    simp only [ih, foldlM_cons, foldlM_nil, bind_pure, scanStep, Opening, isChain_append]
    cases t with
    | nil => by_cases hc : c = '_' <;> cases hd : toDigit radix c <;> simp [hc, hd, eq_comm]
    | cons first rest =>
      obtain ⟨l, hlast⟩ : ∃ l, (first :: rest).getLast? = some l := by simp [getLast?_cons]
      by_cases hc : c = '_'
      · simp [hc, hlast]
        grind
      · cases hd : toDigit radix c <;> simp [hc, hd, hlast]
        grind

lemma foldlM_addDigit (h : ∀ c ∈ t, c = '_' ∨ toDigit radix c ≠ none) :
    (t.filter (· != '_')).foldlM (addDigit radix) m =
      some ((t.filterMap (toDigit radix)).foldl (fun value digit => value * radix + digit) m) := by
  induction t generalizing m with
  | nil => rfl
  | cons c t ih =>
    obtain ⟨hc, ht⟩ := forall_mem_cons.mp h
    rcases hc with rfl | hc
    · exact ih ht
    · obtain ⟨d, hd⟩ := ne_none_iff_exists'.mp hc
      have hne : (c != '_') = true := bne_iff_ne.mpr fun heq => by
        simp [heq, toDigit_underscore] at hd
      simp [hne, hd, addDigit, ih ht]

lemma parseDigits_eq (h : Digits radix t) : parseDigits radix t =
    if radix = 10 ∧ t.head? = some '0' ∧ ∃ c ∈ t, c ≠ '_' ∧ c ≠ '0' then none
    else (some (valueOf radix t)).filter (· ≤ u64Max) := by
  obtain ⟨hopening, last, hlast, hne⟩ := h
  have hfirst := hopening.2.1
  have hplain : (if t.contains '_' then t.filter (· != '_') else t) = t.filter (· != '_') := by
    split
    · rfl
    · exact (filter_eq_self.mpr (by grind)).symm
  have hhead : (t.filter (· != '_')).head? = t.head? := by cases t <;> simp_all
  have hne' : t ≠ [] := by rintro rfl; cases hlast
  rw [parseDigits, scan_iff.mpr ⟨hopening, rfl⟩]
  simp only [bind_eq_bind, bind_some, hplain, hhead, fromStrRadix,
    foldlM_addDigit hopening.1, valueOf]
  simp [hlast, hne, hne', and_assoc]

lemma parseDigits_iff : parseDigits radix t = some m ↔ Digits radix t ∧
    (radix = 10 → t.head? = some '0' → ∀ c ∈ t, c = '0' ∨ c = '_') ∧
      valueOf radix t = m ∧ m ≤ u64Max := by
  constructor
  · intro h
    have hdigits : Digits radix t := by
      obtain ⟨_, hscan, h⟩ := bind_eq_some_iff.mp h
      obtain ⟨hopening, rfl⟩ := scan_iff.mp hscan
      refine ⟨hopening, ?_⟩
      cases hlast : t.getLast? <;> simp [hlast] at h ⊢
      grind
    rw [parseDigits_eq hdigits] at h
    split at h
    · cases h
    · grind
  · rintro ⟨hdigits, hzero, rfl, hle⟩
    rw [parseDigits_eq hdigits]
    grind

lemma radixOf_spec {letter : Char} (h : radixOf letter = some radix) :
    radix ≠ 10 ∧ letter ≠ '_' ∧ toDigit 10 letter = none := by
  unfold radixOf at h
  split at h <;> cases h <;> decide

lemma parseUnsigned_iff : parseUnsigned t = some m ↔ Unsigned t m ∧ m ≤ u64Max := by
  by_cases hbased : ∃ letter radix rest, t = '0' :: letter :: rest ∧ radixOf letter = some radix
  · obtain ⟨letter, radix, rest, rfl, hr⟩ := hbased
    obtain ⟨hten, hunder, hdigit⟩ := radixOf_spec hr
    simp only [parseUnsigned, splitRadix, hr, Bool.true_and, decide_eq_true_eq, parseDigits_iff]
    constructor
    · rintro ⟨h, -, rfl, hle⟩
      split at h
      case isTrue hhead =>
        obtain ⟨rest, rfl⟩ := head?_eq_some_iff.mp hhead
        exact ⟨.under hr h, hle⟩
      case isFalse hhead =>
        rw [if_neg hhead] at hle ⊢
        exact ⟨.based hr h, hle⟩
    · rintro ⟨h, hle⟩
      cases h with
      | based hr' h =>
        obtain rfl := some.inj (hr.symm.trans hr')
        rw [if_neg h.1.2.1]
        exact ⟨h, fun heq => absurd heq hten, rfl, hle⟩
      | under hr' h =>
        obtain rfl := some.inj (hr.symm.trans hr')
        exact ⟨h, fun heq => absurd heq hten, rfl, hle⟩
      | decimal h _ => grind [h.1.1 letter (by simp)]
  · have hsplit : splitRadix t = (10, t, false) := by
      unfold splitRadix
      grind
    simp only [parseUnsigned, hsplit, Bool.false_and, Bool.false_eq_true, if_false, parseDigits_iff]
    constructor
    · rintro ⟨h, hzero, rfl, hle⟩
      exact ⟨.decimal h (hzero trivial), hle⟩
    · rintro ⟨h, hle⟩
      cases h with
      | based hr _ | under hr _ => exact absurd ⟨_, _, _, rfl, hr⟩ hbased
      | decimal h hzero => exact ⟨h, fun _ => hzero, rfl, hle⟩

lemma Unsigned.head {c : Char} (h : Unsigned (c :: t) m) : c = '_' ∨ toDigit 10 c ≠ none := by
  cases h with
  | based | under => decide
  | decimal h _ => exact h.1.1 c mem_cons_self

lemma parseBaseZero_iff {negative : Bool} :
    parseBaseZero t = some (negative, m) ↔ Numeral t negative m ∧ m < 2 ^ 64 := by
  have hmax : m < 2 ^ 64 ↔ m ≤ u64Max := Nat.lt_succ_iff
  rw [hmax]
  constructor
  · intro h
    unfold parseBaseZero at h
    split at h
    all_goals
      obtain ⟨m, hm, ⟨⟩⟩ := map_eq_some_iff.mp h
      rw [parseUnsigned_iff] at hm
    · exact ⟨.plus hm.1, hm.2⟩
    · exact ⟨.minus hm.1, hm.2⟩
    · exact ⟨.plain hm.1, hm.2⟩
  · rintro ⟨h, hle⟩
    cases h with
    | plus h | minus h => simp [parseBaseZero, parseUnsigned_iff.mpr ⟨h, hle⟩]
    | plain h =>
      have hparsed := parseUnsigned_iff.mpr ⟨h, hle⟩
      unfold parseBaseZero
      split
      · exact absurd h.head (by decide)
      · exact absurd h.head (by decide)
      · rw [hparsed]
        rfl

/-! ### The accessors -/

structure Entry where
  key : String
  value : String

structure Section where
  name : String
  entries : List Entry

structure LegacySettings where
  sections : List Section

inductive SettingsError where
  | missing (sectionName key : String)
  | invalidInteger (sectionName key value : String)
deriving DecidableEq

def sameName (stored wanted : String) : Bool :=
  stored.toList.map Char.toLower = wanted.toList.map Char.toLower

namespace LegacySettings
variable (settings : LegacySettings) (sectionName key : String)

def get : Option String := do
  let found ← settings.sections.find? (sameName ·.name sectionName)
  let entry ← found.entries.find? (sameName ·.key key)
  return entry.value

def required : Except SettingsError String :=
  match settings.get sectionName key with
  | some value => .ok value
  | none => .error (.missing sectionName key)

def getInt : Except SettingsError Int := do
  let value ← settings.required sectionName key
  match parseBaseZero value.toList with
  | none => .error (.invalidInteger sectionName key value)
  | some (negative, magnitude) =>
    if negative then
      if magnitude = 2 ^ 63 then .ok (-2 ^ 63)
      else if magnitude < 2 ^ 63 then .ok (-magnitude)
      else .error (.invalidInteger sectionName key value)
    else if magnitude < 2 ^ 63 then .ok magnitude
    else .error (.invalidInteger sectionName key value)

def getUint : Except SettingsError Nat := do
  let value ← settings.required sectionName key
  match parseBaseZero value.toList with
  | none => .error (.invalidInteger sectionName key value)
  | some (negative, magnitude) =>
    if negative then .error (.invalidInteger sectionName key value) else .ok magnitude

/-- Integers are read exactly as the grammar says, up to what 64 bits hold. -/
theorem integers_iff : (∀ value negative m, parseBaseZero value = some (negative, m) ↔
      Numeral value negative m ∧ m < 2 ^ 64) ∧
    (∀ n, settings.getInt sectionName key = .ok n ↔
      ∃ value, settings.required sectionName key = .ok value ∧ ∃ negative, ∃ m : Nat,
        Numeral value.toList negative m ∧ n = (if negative then -(m : Int) else m) ∧
        -2 ^ 63 ≤ n ∧ n < 2 ^ 63) ∧
    ∀ n, settings.getUint sectionName key = .ok n ↔
      ∃ value, settings.required sectionName key = .ok value ∧
        Numeral value.toList false n ∧ n < 2 ^ 64 := by
  refine ⟨fun _ _ _ => parseBaseZero_iff, fun n => ?_, fun n => ?_⟩
  · rw [getInt, bind_eq_ok]
    refine exists_congr fun value => and_congr_right fun _ => ?_
    constructor
    · intro h
      split at h
      case h_1 => cases h
      case h_2 negative m hparsed => exact ⟨negative, m, (parseBaseZero_iff.mp hparsed).1, by grind⟩
    · rintro ⟨negative, m, hnumeral, hn, hlow, hhigh⟩
      have hparsed := parseBaseZero_iff.mpr ⟨hnumeral, by split at hn <;> omega⟩
      rw [hparsed]
      cases negative <;> grind
  · rw [getUint, bind_eq_ok]
    refine exists_congr fun value => and_congr_right fun _ => ?_
    rw [← parseBaseZero_iff]
    cases parseBaseZero value.toList with
    | none => simp
    | some parsed =>
      obtain ⟨negative, m⟩ := parsed
      cases negative <;> simp

end LegacySettings

end CriKey.Settings
