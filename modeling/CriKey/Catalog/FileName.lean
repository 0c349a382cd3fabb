import CriKey.Core.Text
import CriKey.Core.Bytes

/-! File names of cached slices. A plugin id is an arbitrary string; its file name is an
escaped form of its bytes that can be read back and that no file system folds, splits or
reserves. -/
namespace CriKey.Catalog
open CriKey.Core List Char

def sliceSuffix : String := ".slice"

def escapeMark : UInt8 := 0x25

def hexDigits : List UInt8 :=
  [0x30, 0x31, 0x32, 0x33, 0x34, 0x35, 0x36, 0x37, 0x38, 0x39, 0x61, 0x62, 0x63, 0x64, 0x65, 0x66]

/-- Bytes a file name carries as they are: `a`-`z`, `0`-`9` and `.`, `-`, `_`. -/
def isLiteral (byte : UInt8) : Bool :=
  (0x61 ≤ byte && byte ≤ 0x7a) || (0x30 ≤ byte && byte ≤ 0x39) ||
    (byte == 0x2e || byte == 0x2d || byte == 0x5f)

def windowsDevices : List String :=
  ["con", "prn", "aux", "nul", "com1", "com2", "com3", "com4", "com5", "com6", "com7", "com8",
    "com9", "lpt1", "lpt2", "lpt3", "lpt4", "lpt5", "lpt6", "lpt7", "lpt8", "lpt9"]

/-- The part before the first dot, without dots and spaces at its end. -/
def deviceStem (id : String) : String :=
  String.ofList ((id.toList.takeWhile (· != '.')).rdropWhile fun c => c == '.' || c == ' ')

def isWindowsReservedId (id : String) : Bool := windowsDevices.contains (deviceStem id)

/-- The characters written for one byte of an id. -/
def escapeByte (literal : Bool) (byte : UInt8) : List Char :=
  if literal then [Char.ofUInt8 byte]
  else [Char.ofUInt8 escapeMark, Char.ofUInt8 (hexDigits.getD (byte >>> 4).toNat 0),
    Char.ofUInt8 (hexDigits.getD (byte &&& 0x0f).toNat 0)]

def escapePluginId (plugin : PluginId) : String :=
  let id := bytesOf plugin.name
  let reserved := isWindowsReservedId plugin.name
  String.ofList (id.zipIdx.flatMap fun (byte, index) =>
    escapeByte (isLiteral byte && !(reserved && index == 0)) byte) ++ sliceSuffix

def hexValue (digit : UInt8) : Option UInt8 :=
  if 0x30 ≤ digit && digit ≤ 0x39 then some (digit - 0x30)
  else if 0x61 ≤ digit && digit ≤ 0x66 then some (digit - 0x61 + 10)
  else none

def stripSuffix (name ending : String) : Option String :=
  if ending.toList.isSuffixOf name.toList then
    some (String.ofList (name.toList.take (name.toList.length - ending.toList.length)))
  else none

/-- The loop of `plugin_from_file_name` over the bytes of the stem. -/
def unescape : List UInt8 → Option (List UInt8)
  | [] => some []
  | byte :: bytes =>
    if byte = escapeMark then
      match bytes with
      | first :: second :: bytes => do
        let high ← hexValue first
        let low ← hexValue second
        let id ← unescape bytes
        some ((high <<< 4 ||| low) :: id)
      | _ => none
    else if isLiteral byte then do
      let id ← unescape bytes
      some (byte :: id)
    else none

def pluginFromFileName (name : String) : Option PluginId := do
  let stem ← stripSuffix name sliceSuffix
  let id ← unescape (bytesOf stem)
  let plugin : PluginId := ⟨← fromUtf8 id⟩
  if escapePluginId plugin = name then some plugin else none

example : escapePluginId ⟨"Widget"⟩ = "%57idget.slice" := by decide
example : escapePluginId ⟨"con"⟩ = "%63on.slice" := by decide

/-! Facts about single bytes. -/

lemma toUInt8_ofUInt8 (b : UInt8) : (Char.ofUInt8 b).toUInt8 = b :=
  byte_cases (P := fun b => (ofUInt8 b).toUInt8 = b) (by decide +kernel) b

variable {b : UInt8}

lemma isLiteral_ne_escapeMark (h : isLiteral b) : b ≠ escapeMark := by
  rintro rfl
  exact absurd h (by decide)

lemma isLiteral_low (h : isLiteral b) : b < 128 := by
  revert h
  exact byte_cases (P := fun b => isLiteral b → b < 128) (by decide +kernel) b

lemma hexValue_digits (b : UInt8) :
    ∃ high low, hexValue (hexDigits.getD (b >>> 4).toNat 0) = some high ∧
      hexValue (hexDigits.getD (b &&& 0x0f).toNat 0) = some low ∧ high <<< 4 ||| low = b := by
  refine ⟨b >>> 4, b &&& 0x0f, ?_, ?_, ?_⟩
  · exact byte_cases (P := fun b => hexValue (hexDigits.getD (b >>> 4).toNat 0) = some (b >>> 4))
      (by decide +kernel) b
  · exact byte_cases (P := fun b => hexValue (hexDigits.getD (b &&& 0x0f).toNat 0) =
      some (b &&& 0x0f)) (by decide +kernel) b
  · exact byte_cases (P := fun b => b >>> 4 <<< 4 ||| b &&& 0x0f = b) (by decide +kernel) b

/-! The characters of a file name. -/

/-- A lower-case letter, a digit or one of `.`, `-`, `_`, `%`. -/
def nameChar (c : Char) : Bool := c.toNat < 128 && (isLiteral c.toUInt8 || c == '%')

variable {c : Char}

lemma ofUInt8_toUInt8 (h : c.toNat < 128) : Char.ofUInt8 c.toUInt8 = c := by
  have hlt : c.val.toNat < 256 := Nat.lt_trans h (by decide)
  apply ext
  apply UInt32.toNat_inj.mp
  show c.val.toNat % 256 = c.val.toNat
  exact Nat.mod_eq_of_lt hlt

lemma nameChar_escapeByte {literal : Bool} (hl : literal → isLiteral b) :
    ∀ c ∈ escapeByte literal b, nameChar c := by
  cases literal with
  | true =>
    have hb : isLiteral b → nameChar (ofUInt8 b) :=
      byte_cases (P := fun b => isLiteral b → nameChar (ofUInt8 b)) (by decide +kernel) b
    intro c hc
    rw [escapeByte, if_pos rfl, mem_singleton] at hc
    exact hc ▸ hb (hl rfl)
  | false =>
    have hb : (escapeByte false b).all nameChar :=
      byte_cases (P := fun b => (escapeByte false b).all nameChar) (by decide +kernel) b
    exact all_eq_true.mp hb

lemma nameChar_ne {d : Char} (h : nameChar c) (hd : nameChar d = false) : c ≠ d := by
  rintro rfl
  exact absurd h (by simp [hd])

lemma nameChar_ascii (h : nameChar c) : c.toNat < 128 := by
  rw [nameChar, Bool.and_eq_true, decide_eq_true_eq] at h
  exact h.1

lemma nameChar_toLower (h : nameChar c) : c.toLower = c := by
  obtain ⟨b, rfl⟩ : ∃ b, c = ofUInt8 b :=
    ⟨c.toUInt8, (ofUInt8_toUInt8 (nameChar_ascii h)).symm⟩
  exact byte_cases (P := fun b => nameChar (ofUInt8 b) →
    (ofUInt8 b).toLower = ofUInt8 b) (by decide +kernel) _ h

/-- The bytes of an id as the loop writes them, each with its position. -/
def escapeAll (reserved : Bool) (xs : List (UInt8 × Nat)) : List Char :=
  xs.flatMap fun (byte, index) => escapeByte (isLiteral byte && !(reserved && index == 0)) byte

lemma toList_escapePluginId (p : PluginId) : (escapePluginId p).toList =
    escapeAll (isWindowsReservedId p.name) (bytesOf p.name).zipIdx ++ sliceSuffix.toList := by
  rw [escapePluginId, String.toList_append, String.toList_ofList]
  rfl

lemma nameChar_escapeAll (reserved : Bool) (xs : List (UInt8 × Nat)) :
    ∀ c ∈ escapeAll reserved xs, nameChar c := by
  intro c hc
  obtain ⟨⟨b, i⟩, -, hb⟩ := mem_flatMap.mp hc
  refine nameChar_escapeByte (fun h => ?_) c hb
  rw [Bool.and_eq_true] at h
  exact h.1

lemma nameChar_escapePluginId (p : PluginId) : ∀ c ∈ (escapePluginId p).toList, nameChar c := by
  intro c hc
  rw [toList_escapePluginId, mem_append] at hc
  rcases hc with hc | hc
  · exact nameChar_escapeAll _ _ c hc
  · have hs : sliceSuffix.toList.all nameChar := by decide +kernel
    exact all_eq_true.mp hs c hc

/-! Reading a name back. -/

lemma unescape_escapeByte {literal : Bool} (hl : literal → isLiteral b) (rest : List UInt8) :
    unescape ((escapeByte literal b).map Char.toUInt8 ++ rest) = (unescape rest).map (b :: ·) := by
  cases literal with
  | true =>
    have hb := hl rfl
    rw [escapeByte, if_pos rfl, map_singleton, toUInt8_ofUInt8, singleton_append, unescape.eq_def]
    simp only [if_neg (isLiteral_ne_escapeMark hb), if_pos hb]
    cases unescape rest <;> rfl
  | false =>
    obtain ⟨high, low, hh, hw, hb⟩ := hexValue_digits b
    rw [escapeByte, if_neg Bool.false_ne_true]
    simp only [map_cons, map_nil, toUInt8_ofUInt8, cons_append, nil_append]
    rw [unescape]
    simp only [hh, hw, Option.bind_eq_bind, Option.bind_some, hb]
    cases unescape rest <;> rfl

lemma unescape_escapeAll (reserved : Bool) (xs : List (UInt8 × Nat)) :
    unescape ((escapeAll reserved xs).map Char.toUInt8) = some (xs.map Prod.fst) := by
  induction xs with
  | nil => rfl
  | cons x xs ih =>
    obtain ⟨b, i⟩ := x
    have hl : isLiteral b && !(reserved && i == 0) → isLiteral b := by
      intro h
      rw [Bool.and_eq_true] at h
      exact h.1
    rw [escapeAll, flatMap_cons, map_append, unescape_escapeByte hl]
    rw [escapeAll] at ih
    rw [ih, Option.map_some, map_cons]

lemma stripSuffix_append (s ending : String) : stripSuffix (s ++ ending) ending = some s := by
  rw [stripSuffix, String.toList_append]
  simp

lemma pluginFromFileName_escape (p : PluginId) :
    pluginFromFileName (escapePluginId p) = some p := by
  have hstem : stripSuffix (escapePluginId p) sliceSuffix = some (String.ofList
      (escapeAll (isWindowsReservedId p.name) (bytesOf p.name).zipIdx)) := stripSuffix_append _ _
  have hbytes : bytesOf (String.ofList _) = _ :=
    bytesOf_ascii fun c hc => nameChar_ascii (nameChar_escapeAll (isWindowsReservedId p.name)
      (bytesOf p.name).zipIdx c hc)
  have hid : fromUtf8 (bytesOf p.name) = some p.name := fromUtf8_eq_some.mpr rfl
  rw [pluginFromFileName, hstem]
  simp only [Option.bind_eq_bind, Option.bind_some, hbytes, unescape_escapeAll,
    zipIdx_map_fst, hid, if_true]

lemma pluginFromFileName_eq_some (n : String) (p : PluginId) :
    pluginFromFileName n = some p ↔ n = escapePluginId p := by
  constructor
  · intro h
    simp only [pluginFromFileName, Option.bind_eq_bind, Option.bind_eq_some_iff] at h
    obtain ⟨stem, -, id, -, name, -, h⟩ := h
    split at h
    · rename_i he
      rw [← Option.some.inj h, he]
    · exact absurd h (by simp)
  · rintro rfl
    exact pluginFromFileName_escape p

/-! Names as a file system compares them. -/

/-- A name with its ASCII letters in lower case. -/
def foldCase (name : String) : String := String.ofList (name.toList.map Char.toLower)

lemma foldCase_escapePluginId (p : PluginId) : foldCase (escapePluginId p) = escapePluginId p := by
  have hmap : (escapePluginId p).toList.map toLower = (escapePluginId p).toList.map id :=
    map_congr_left fun c hc => nameChar_toLower (nameChar_escapePluginId p c hc)
  rw [foldCase, hmap, map_id, String.ofList_toList]

lemma escapeAll_literal (i : Nat) (xs : List (UInt8 × Nat)) (h : isLiteral b) :
    escapeAll false ((b, i) :: xs) = Char.ofUInt8 b :: escapeAll false xs := by
  simp only [escapeAll, flatMap_cons, h, escapeByte, Bool.false_and, Bool.not_false,
    Bool.and_true, if_true, singleton_append]

lemma mark_mem_takeWhile {reserved : Bool} {i : Nat} (xs : List (UInt8 × Nat)) (cs : List Char)
    (h : (isLiteral b && !(reserved && i == 0)) = false) :
    '%' ∈ (escapeAll reserved ((b, i) :: xs) ++ cs).takeWhile (· != '.') := by
  have hmark : (ofUInt8 escapeMark != '.') = true := by decide
  rw [escapeAll, flatMap_cons]
  simp only [h]
  exact mem_cons_self

lemma takeWhile_escapeAll (cs : List Char) (i : Nat)
    (h : '%' ∉ (escapeAll false ((cs.flatMap String.utf8EncodeChar).zipIdx i) ++
      sliceSuffix.toList).takeWhile (· != '.')) :
    (escapeAll false ((cs.flatMap String.utf8EncodeChar).zipIdx i) ++
      sliceSuffix.toList).takeWhile (· != '.') = cs.takeWhile (· != '.') := by
  induction cs generalizing i with
  | nil => rfl
  | cons c cs ih =>
    obtain ⟨b, bs, hc⟩ : ∃ b bs, String.utf8EncodeChar c = b :: bs :=
      exists_cons_of_ne_nil String.utf8EncodeChar_ne_nil
    rw [flatMap_cons, hc, cons_append, zipIdx_cons] at h ⊢
    have hb : isLiteral b := by
      by_contra hn
      exact h (mark_mem_takeWhile _ _ (by simp [hn]))
    have hascii : c.toNat < 128 := by
      by_contra hn
      have hhigh := high_of_mem_utf8EncodeChar (Nat.le_of_not_lt hn) b (hc ▸ mem_cons_self)
      exact absurd (isLiteral_low hb) (UInt8.not_lt.mpr hhigh)
    rw [utf8EncodeChar_ascii hascii] at hc
    obtain ⟨rfl, rfl⟩ := hc
    rw [escapeAll_literal _ _ hb, ofUInt8_toUInt8 hascii, nil_append, cons_append,
      takeWhile_cons] at h ⊢
    rw [takeWhile_cons]
    split
    · rename_i hdot
      rw [if_pos hdot, mem_cons, not_or] at h
      rw [ih (i + 1) h.2]
    · rfl

lemma deviceStem_of_nameChar {s : String} (hs : ∀ c ∈ s.toList.takeWhile (· != '.'), nameChar c) :
    deviceStem s = String.ofList (s.toList.takeWhile (· != '.')) := by
  rw [deviceStem, rdropWhile_eq_self_iff.mpr]
  intro hne hlast
  have hmem := getLast_mem hne
  have hdot := mem_takeWhile_imp hmem
  have hspace := nameChar_ne (d := ' ') (hs _ hmem) (by decide)
  simp only [Bool.or_eq_true, beq_iff_eq] at hlast
  rcases hlast with h | h
  · simp [h] at hdot
  · exact hspace h

lemma mark_notMem_device {w : List Char} (h : windowsDevices.contains (String.ofList w)) :
    '%' ∉ w := by
  have hall : ∀ d ∈ windowsDevices, '%' ∉ d.toList := by decide +kernel
  rw [contains_iff_mem] at h
  simpa using hall _ h

lemma isWindowsReservedId_escape (p : PluginId) :
    isWindowsReservedId (escapePluginId p) = false := by
  by_contra hres
  rw [Bool.not_eq_false, isWindowsReservedId, deviceStem_of_nameChar fun c hc =>
    nameChar_escapePluginId p c (takeWhile_subset _ hc)] at hres
  have hmark := mark_notMem_device hres
  rw [toList_escapePluginId] at hres hmark
  -- the id itself is reserved: its first byte would be escaped
  cases hr : isWindowsReservedId p.name with
  | true =>
    rw [hr] at hmark hres
    cases hid : bytesOf p.name with
    | nil =>
      rw [hid] at hres
      exact absurd hres (by decide)
    | cons b bs =>
      rw [hid] at hmark
      exact hmark (mark_mem_takeWhile _ _ (by simp))
  -- otherwise the stem of the name is the stem of the id
  | false =>
    rw [hr] at hmark hres
    have hstem := takeWhile_escapeAll p.name.toList 0 hmark
    rw [← bytesOf] at hstem
    have hchars : ∀ c ∈ p.name.toList.takeWhile (· != '.'), nameChar c := by
      intro c hc
      rw [← hstem, ← hr, ← toList_escapePluginId] at hc
      exact nameChar_escapePluginId p c (takeWhile_subset _ hc)
    rw [isWindowsReservedId, deviceStem_of_nameChar hchars, ← hstem, hres] at hr
    exact absurd hr (by decide)

/-- A file name is accepted exactly when it is the one written for the plugin it names;
names stay apart when case is ignored; and no name leaves its directory or is a device. -/
theorem fileName_canonical : (∀ n p, pluginFromFileName n = some p ↔ n = escapePluginId p) ∧
    (∀ p q, p ≠ q → foldCase (escapePluginId p) ≠ foldCase (escapePluginId q)) ∧
    ∀ p, '/' ∉ (escapePluginId p).toList ∧ '\\' ∉ (escapePluginId p).toList ∧
      escapePluginId p ≠ "." ∧ escapePluginId p ≠ ".." ∧
      isWindowsReservedId (foldCase (escapePluginId p)) = false := by
  have hchar (p : PluginId) {d : Char} (hd : nameChar d = false) : d ∉ (escapePluginId p).toList :=
    fun h => nameChar_ne (nameChar_escapePluginId p d h) hd rfl
  have hread (p : PluginId) {n : String} (hn : pluginFromFileName n = none) :
      escapePluginId p ≠ n := by
    rintro rfl
    rw [pluginFromFileName_escape] at hn
    exact absurd hn (by simp)
  refine ⟨pluginFromFileName_eq_some, fun p q hne heq => hne ?_, fun p => ⟨hchar p (by decide),
    hchar p (by decide), hread p (by decide), hread p (by decide), ?_⟩⟩
  · rw [foldCase_escapePluginId, foldCase_escapePluginId] at heq
    have hp := pluginFromFileName_escape p
    rw [heq, pluginFromFileName_escape] at hp
    exact (Option.some.inj hp).symm
  · rw [foldCase_escapePluginId]
    exact isWindowsReservedId_escape p

theorem fileName_canonical_case :
    foldCase (escapePluginId ⟨"Widget"⟩) ≠ foldCase (escapePluginId ⟨"widget"⟩) :=
  fileName_canonical.2.1 ⟨"Widget"⟩ ⟨"widget"⟩ (by decide)

end CriKey.Catalog
