import CriKey.Base.Decimal
import CriKey.Base.Document
import CriKey.Base.Fallible
import CriKey.Base.Separated

/-! Between a TOML document and a flat map from dotted keys to text. -/
namespace CriKey.Config
open CriKey.Base Document List Option String

/-- Any TOML value that is not a table. A float and a datetime are the text they render to; the
elements of an array are never read. -/
inductive Scalar where
  | string (text : String)
  | integer (number : Int)
  | float (text : String)
  | boolean (flag : Bool)
  | datetime (text : String)
  | array
deriving DecidableEq, Repr

abbrev Value := Document String Scalar

abbrev TomlTable := List (String × Value)

/-- A layer: text by dotted key, in key order. -/
abbrev Flat := List (String × String)

inductive ConfigError where
  | parse (path detail : String)
  | unsupportedValue (path key : String)
  | keyConflict (path key : String)
deriving DecidableEq, Repr

/-! ### Reading -/

def renderScalar : Scalar → Option String
  | .string text => some text
  | .integer number => some (toString number)
  | .float text => some text
  | .boolean flag => some (if flag then "true" else "false")
  | .datetime text => some text
  | .array => none

def joinKey (scope name : String) : String := if scope = "" then name else scope ++ "." ++ name

mutual

def flattenValue (path key : String) (out : Flat) : Value → Except ConfigError Flat
  | .table nested => flatten path key out nested
  | .leaf other =>
    match renderScalar other with
    | some text => .ok (insertEntry key text out)
    | none => .error (.unsupportedValue path key)

/-- A table is flattened under a scope, which is empty for a whole document. -/
def flatten (path scope : String) (out : Flat) : TomlTable → Except ConfigError Flat
  | [] => .ok out
  | (name, value) :: rest => do
    let out ← flattenValue path (joinKey scope name) out value
    flatten path scope out rest

end

/-! ### Writing -/

/-- Integers and booleans are written unquoted, where that renders back to the same text. -/
def typed (text : String) : Scalar :=
  match (parseSigned (2 ^ 63) text.toList).filter fun number => toString number = text with
  | some number => .integer number
  | none =>
    if text = "true" then .boolean true
    else if text = "false" then .boolean false
    else .string text

def segments (key : String) : List String := (key.toList.splitOn '.').map ofList

def nestEntry (path : String) (root : TomlTable) (entry : String × String) :
    Except ConfigError TomlTable :=
  match Document.put (typed entry.2) (segments entry.1) root with
  | some root => .ok root
  | none => .error (.keyConflict path entry.1)

def nest (flat : Flat) (path : String) : Except ConfigError TomlTable :=
  flat.foldlM (nestEntry path) []

/-! ### Text of a value -/

lemma renderScalar_typed (text : String) : renderScalar (typed text) = some text := by
  rw [typed]
  split
  case h_1 number h =>
    rw [filter_eq_some_iff] at h
    rw [renderScalar]
    simpa using h.2
  case h_2 =>
    split
    case isTrue h => rw [h]; rfl
    case isFalse =>
      split
      case isTrue h => rw [h]; rfl
      case isFalse => rfl

/-! ### Segments of a key -/

lemma segments_ne_nil (key : String) : segments key ≠ [] := by
  rw [segments, ne_eq, map_eq_nil_iff]
  exact splitOn_ne_nil _ _

variable {key : String}

lemma dot_notMem_segments {segment : String} (h : segment ∈ segments key) :
    '.' ∉ segment.toList := by
  obtain ⟨part, hpart, heq⟩ := mem_map.mp h
  rw [← heq, toList_ofList]
  exact notMem_of_mem_splitOn hpart

lemma segments_toList (key : String) :
    (segments key).map String.toList = key.toList.splitOn '.' := by
  rw [segments, List.map_map]
  exact map_id'' (fun part => toList_ofList) _

lemma segments_injective {key' : String} (h : segments key = segments key') : key = key' := by
  have hlist := congrArg (map String.toList) h
  rw [segments_toList, segments_toList] at hlist
  exact toList_injective (splitOn_injective hlist)

/-- One key is another one followed by a dot and more text. -/
def Extends (key longer : String) : Prop := ∃ rest, longer = key ++ "." ++ rest

lemma extends_iff_segments (key longer : String) :
    Extends key longer ↔ segments key ≠ segments longer ∧ segments key <+: segments longer := by
  have hlists : Extends key longer ↔ ∃ rest, longer.toList = key.toList ++ '.' :: rest := by
    constructor
    · intro ⟨rest, hrest⟩
      refine ⟨rest.toList, ?_⟩
      rw [hrest, toList_append, toList_append, List.append_assoc]
      rfl
    · intro ⟨rest, hrest⟩
      refine ⟨ofList rest, toList_injective ?_⟩
      simp [hrest]
  rw [hlists, ← splitOn_append_iff]
  constructor
  · intro ⟨rest, hne, hsplit⟩
    have hsegments : segments longer = segments key ++ rest.map ofList := by
      rw [segments, hsplit, map_append]
      rfl
    refine ⟨fun heq => hne ?_, ⟨_, hsegments.symm⟩⟩
    rw [← heq] at hsegments
    simpa using hsegments
  · intro ⟨hne, rest, hrest⟩
    refine ⟨rest.map String.toList, fun hnil => hne ?_, ?_⟩
    · rw [map_eq_nil_iff.mp hnil, append_nil] at hrest
      exact hrest
    · rw [← segments_toList, ← hrest, map_append, segments_toList]

/-! ### Nesting -/

/-- A document holds the values of a flat map, each at the segments of its key. -/
structure Nests (flat : Flat) (root : TomlTable) : Prop where
  canonical : Document.Canonical root
  holds : ∀ path scalar, Document.find? path root = some scalar ↔
    ∃ key text, (key, text) ∈ flat ∧ path = segments key ∧ scalar = typed text

variable {flat : Flat} {root : TomlTable}

lemma Nests.put {after : TomlTable} {text : String} (h : Nests flat root)
    (hnew : key ∉ flat.map Prod.fst)
    (hput : Document.put (typed text) (segments key) root = some after) :
    Nests (flat ++ [(key, text)]) after := by
  refine ⟨(h.canonical.put (segments_ne_nil key) hput).1, fun path scalar => ?_⟩
  rw [find?_put hput (segments_ne_nil key)]
  by_cases hpath : path = segments key
  · rw [if_pos hpath, some_inj]
    constructor
    · intro hscalar
      exact ⟨key, text, by simp, hpath, hscalar.symm⟩
    · intro ⟨key', text', hmem, hpath', hscalar⟩
      have hkey : key = key' := segments_injective (hpath.symm.trans hpath')
      cases mem_append.mp hmem with
      | inl hold => exact absurd (hkey ▸ mem_map_of_mem hold) hnew
      | inr hlast =>
        rw [mem_singleton, Prod.mk.injEq] at hlast
        rw [hscalar, hlast.2]
  · rw [if_neg hpath, h.holds]
    constructor
    · intro ⟨key', text', hmem, hrest⟩
      exact ⟨key', text', mem_append_left _ hmem, hrest⟩
    · intro ⟨key', text', hmem, hpath', hscalar⟩
      cases mem_append.mp hmem with
      | inl hold => exact ⟨key', text', hold, hpath', hscalar⟩
      | inr hlast =>
        rw [mem_singleton, Prod.mk.injEq] at hlast
        exact absurd (hlast.1 ▸ hpath') hpath

lemma Nests.put_eq_none_iff (h : Nests flat root) (key text : String) :
    Document.put (typed text) (segments key) root = none ↔
      ∃ other ∈ flat.map Prod.fst, Extends other key ∨ Extends key other := by
  rw [Document.put_eq_none_iff h.canonical _ (segments_ne_nil key)]
  constructor
  · intro ⟨path, scalar, hfind, hne, hrelated⟩
    obtain ⟨other, text', hmem, hpath, -⟩ := (h.holds path scalar).mp hfind
    refine ⟨other, mem_map_of_mem hmem, ?_⟩
    rw [extends_iff_segments, extends_iff_segments, ← hpath]
    exact hrelated.imp (⟨hne, ·⟩) (⟨Ne.symm hne, ·⟩)
  · intro ⟨other, hother, hextends⟩
    obtain ⟨⟨key', text'⟩, hmem, rfl⟩ := mem_map.mp hother
    rw [extends_iff_segments, extends_iff_segments] at hextends
    refine ⟨segments key', typed text', (h.holds _ _).mpr ⟨key', text', hmem, rfl, rfl⟩, ?_, ?_⟩
    · exact hextends.elim (·.1) (Ne.symm ·.1)
    · exact hextends.imp (·.2) (·.2)

def Conflicting (flat : Flat) : Prop :=
  ∃ key ∈ flat.map Prod.fst, ∃ longer ∈ flat.map Prod.fst, Extends key longer

lemma foldlM_nestEntry (done : Flat) {rest : Flat} (path : String)
    (hkeys : ((done ++ rest).map Prod.fst).Nodup) (h : Nests done root)
    (hfree : ¬ Conflicting done) :
    match rest.foldlM (nestEntry path) root with
    | .ok after => Nests (done ++ rest) after ∧ ¬ Conflicting (done ++ rest)
    | .error _ => Conflicting (done ++ rest) := by
  induction rest generalizing done root with
  | nil =>
    rw [append_nil]
    exact ⟨h, hfree⟩
  | cons entry rest ih =>
    obtain ⟨key, text⟩ := entry
    have hnew : key ∉ done.map Prod.fst := by
      rw [map_append, nodup_append] at hkeys
      exact fun hmem => hkeys.2.2 key hmem key (by simp) rfl
    rw [foldlM_cons, nestEntry]
    cases hput : put (typed text) (segments key) root with
    | none =>
      obtain ⟨other, hother, hextends⟩ := (h.put_eq_none_iff key text).mp hput
      have hin : other ∈ (done ++ (key, text) :: rest).map Prod.fst := by
        rw [map_append]
        exact mem_append_left _ hother
      have hkey : key ∈ (done ++ (key, text) :: rest).map Prod.fst := by simp
      exact hextends.elim (fun hlong => ⟨other, hin, key, hkey, hlong⟩)
        fun hlong => ⟨key, hkey, other, hin, hlong⟩
    | some after =>
      have hstep : ¬ Conflicting (done ++ [(key, text)]) := by
        intro ⟨short, hshort, longer, hlonger, hextends⟩
        have hnone := mt (h.put_eq_none_iff key text).mpr (by simp [hput])
        simp only [map_append, map_singleton, mem_append, mem_singleton] at hshort hlonger
        have hself : ¬ Extends key key :=
          fun hself => ((extends_iff_segments key key).mp hself).1 rfl
        cases hshort with
        | inl hs =>
          cases hlonger with
          | inl hl => exact hfree ⟨short, hs, longer, hl, hextends⟩
          | inr hl => exact hnone ⟨short, hs, .inl (hl ▸ hextends)⟩
        | inr hs =>
          cases hlonger with
          | inl hl => exact hnone ⟨longer, hl, .inr (hs ▸ hextends)⟩
          | inr hl =>
            rw [hs, hl] at hextends
            exact hself hextends
      rw [append_cons] at hkeys ⊢
      exact ih _ hkeys (h.put hnew hput) hstep

lemma nests_nil : Nests [] [] :=
  ⟨canonical_empty, fun path scalar => by simp⟩

lemma nest_spec (path : String) (hkeys : Ascending flat) :
    match nest flat path with
    | .ok root => Nests flat root ∧ ¬ Conflicting flat
    | .error _ => Conflicting flat := by
  have hnodup : (flat.map Prod.fst).Nodup := hkeys.imp ne_of_lt
  exact foldlM_nestEntry [] path hnodup nests_nil (by simp [Conflicting])

/-! ### Flattening -/

def textOf (scalar : Scalar) : String := (renderScalar scalar).getD ""

mutual

lemma flattenValue_eq (path key : String) (out : Flat) (value : Value)
    (h : ∀ entry ∈ value.entries, renderScalar entry.2 ≠ none) :
    flattenValue path key out value = .ok (value.entries.foldl (fun out entry =>
      insertEntry (entry.1.foldl joinKey key) (textOf entry.2) out) out) :=
  match value with
  | .table nested => by
    rw [flattenValue, flatten_eq path key out nested (by simpa [entries] using h)]
    simp [entries]
  | .leaf other => by
    have hother : renderScalar other ≠ none := h ([], other) (by simp [entries])
    obtain ⟨text, htext⟩ := ne_none_iff_exists'.mp hother
    rw [flattenValue]
    simp [htext, entries, textOf]

lemma flatten_eq (path scope : String) (out : Flat) (table : TomlTable)
    (h : ∀ entry ∈ Document.entriesOf table, renderScalar entry.2 ≠ none) :
    flatten path scope out table = .ok ((Document.entriesOf table).foldl (fun out entry =>
      insertEntry (entry.1.foldl joinKey scope) (textOf entry.2) out) out) :=
  match table with
  | [] => by simp [flatten, entriesOf]
  | (name, value) :: rest => by
    rw [entriesOf] at h
    have hvalue : ∀ entry ∈ value.entries, renderScalar entry.2 ≠ none := fun entry hentry =>
      h (name :: entry.1, entry.2) (mem_append_left _ (mem_map.mpr ⟨entry, hentry, rfl⟩))
    have hrest : ∀ entry ∈ entriesOf rest, renderScalar entry.2 ≠ none := fun entry hentry =>
      h entry (mem_append_right _ hentry)
    rw [flatten, flattenValue_eq path (joinKey scope name) out value hvalue, entriesOf,
      foldl_append, foldl_map]
    exact flatten_eq path scope _ rest hrest

end

/-- The key a path flattens to, in a whole document. -/
def joined (path : List String) : String := path.foldl joinKey ""

lemma toList_foldl_joinKey {scope : String} (hscope : scope ≠ "") (path : List String) :
    (path.foldl joinKey scope).toList = scope.toList ++ path.flatMap fun name =>
      '.' :: name.toList := by
  induction path generalizing scope with
  | nil => simp
  | cons name path ih =>
    have hjoin : joinKey scope name = scope ++ "." ++ name := if_neg hscope
    have hne : joinKey scope name ≠ "" := by
      intro hempty
      have := congrArg String.toList hempty
      rw [hjoin] at this
      simp at this
    rw [foldl_cons, ih hne, hjoin]
    simp

lemma joined_segments (h : key.toList.head? ≠ some '.') : joined (segments key) = key := by
  apply toList_injective
  obtain ⟨first, rest, hsplit⟩ := exists_cons_of_ne_nil (splitOn_ne_nil '.' key.toList)
  have hkey : key.toList = first ++ rest.flatMap ('.' :: ·) := by
    rw [← intercalate_cons, ← hsplit, intercalate_splitOn]
  have hsegments : segments key = ofList first :: rest.map ofList := by
    rw [segments, hsplit, map_cons]
  have hfirst : joinKey "" (ofList first) = ofList first := if_pos rfl
  rw [joined, hsegments, foldl_cons, hfirst]
  by_cases hempty : ofList first = ""
  · have hnil : first = [] := by
      have := congrArg String.toList hempty
      rwa [toList_ofList] at this
    have hrest : rest = [] := by
      cases rest with
      | nil => rfl
      | cons second rest =>
        rw [hkey, hnil] at h
        exact absurd rfl h
    rw [hkey, hnil, hrest]
    rfl
  · rw [toList_foldl_joinKey hempty, hkey, flatMap_map]
    simp

lemma head?_joined {path : List String} (h : ∀ segment ∈ path, '.' ∉ segment.toList) :
    (joined path).toList.head? ≠ some '.' := by
  have hfold : ∀ scope : String, scope.toList.head? ≠ some '.' →
      (path.foldl joinKey scope).toList.head? ≠ some '.' := by
    induction path with
    | nil => exact fun scope hscope => hscope
    | cons name path ih =>
      intro scope hscope
      refine ih (fun segment hsegment => h segment (mem_cons_of_mem _ hsegment)) _ ?_
      rw [joinKey]
      split
      · intro hdot
        exact h name mem_cons_self (mem_of_head? hdot)
      rename_i hne
      have hlist : scope.toList ≠ [] := fun hnil => hne (toList_injective hnil)
      rw [toList_append, toList_append, List.append_assoc, head?_append_of_ne_nil _ hlist]
      exact hscope
  exact hfold "" (by simp)

lemma Nests.flatten_eq (h : Nests flat root) (path : String) :
    flatten path "" [] root = .ok (ofEntries ((Document.entriesOf root).map fun entry =>
      (joined entry.1, textOf entry.2))) := by
  have hrender : ∀ entry ∈ entriesOf root, renderScalar entry.2 ≠ none := by
    intro entry hentry
    obtain ⟨key, text, -, -, hscalar⟩ := (h.holds entry.1 entry.2).mp
      ((mem_entriesOf_iff_find? h.canonical _ _).mp hentry)
    rw [hscalar, renderScalar_typed]
    exact some_ne_none text
  rw [Config.flatten_eq path "" [] root hrender, ofEntries, foldl_map]
  rfl

lemma Nests.mem_flattened (h : Nests flat root) (key text : String) :
    (key, text) ∈ (Document.entriesOf root).map (fun entry => (joined entry.1, textOf entry.2)) ↔
      ∃ original, (original, text) ∈ flat ∧ key = joined (segments original) := by
  rw [List.mem_map]
  constructor
  · intro ⟨entry, hentry, heq⟩
    obtain ⟨original, text', hmem, hpath, hscalar⟩ := (h.holds entry.1 entry.2).mp
      ((mem_entriesOf_iff_find? h.canonical _ _).mp hentry)
    rw [hpath, hscalar, textOf, renderScalar_typed, Prod.mk.injEq] at heq
    exact ⟨original, heq.2 ▸ hmem, heq.1.symm⟩
  · intro ⟨original, hmem, hkey⟩
    refine ⟨(segments original, typed text), ?_, ?_⟩
    · exact (mem_entriesOf_iff_find? h.canonical _ _).mpr
        ((h.holds _ _).mpr ⟨original, text, hmem, rfl, rfl⟩)
    · rw [textOf, renderScalar_typed, getD_some, hkey]

/-- No key starts with a dot. -/
def Undotted (flat : Flat) : Prop := ∀ key ∈ flat.map Prod.fst, key.toList.head? ≠ some '.'

lemma Nests.flatten_eq_iff (h : Nests flat root) (hkeys : Ascending flat) (path : String) :
    flatten path "" [] root = .ok flat ↔ Undotted flat := by
  rw [h.flatten_eq path, Except.ok.injEq]
  constructor
  · intro heq key hkey hdot
    -- Every key that comes out is a joined path, and those do not start with a dot.
    obtain ⟨⟨key', text⟩, hmem, rfl⟩ := mem_map.mp hkey
    have hout := heq ▸ (mem_iff_lookup hkeys key' text).mp hmem
    have hin : key' ∈ ((entriesOf root).map fun entry =>
        (joined entry.1, textOf entry.2)).map Prod.fst := by
      by_contra hnot
      rw [lookup_ofEntries_of_notMem hnot] at hout
      cases hout
    obtain ⟨⟨key'', text'⟩, hentry, rfl⟩ := mem_map.mp hin
    obtain ⟨original, -, hjoined⟩ := (h.mem_flattened key'' text').mp hentry
    exact head?_joined (fun segment hsegment => dot_notMem_segments hsegment) (hjoined ▸ hdot)
  · intro hundotted
    have hsame : ∀ original text, (original, text) ∈ flat → joined (segments original) = original :=
      fun original text hmem => joined_segments (hundotted original (mem_map_of_mem hmem))
    refine ascending_ext (ascending_ofEntries _) hkeys fun key => ?_
    cases hlookup : flat.lookup key with
    | some text =>
      have hmem := (mem_iff_lookup hkeys key text).mpr hlookup
      refine lookup_ofEntries ((h.mem_flattened key text).mpr
        ⟨key, hmem, (hsame key text hmem).symm⟩) fun entry hentry hkey => ?_
      obtain ⟨original, horiginal, hjoined⟩ := (h.mem_flattened entry.1 entry.2).mp hentry
      rw [hsame original entry.2 horiginal, hkey] at hjoined
      rw [← hjoined, mem_iff_lookup hkeys, hlookup] at horiginal
      exact (some_inj.mp horiginal).symm
    | none =>
      refine lookup_ofEntries_of_notMem fun hin => ?_
      obtain ⟨⟨key', text⟩, hentry, rfl⟩ := mem_map.mp hin
      obtain ⟨original, horiginal, hjoined⟩ := (h.mem_flattened key' text).mp hentry
      rw [hsame original text horiginal] at hjoined
      rw [hjoined, (mem_iff_lookup hkeys original text).mp horiginal] at hlookup
      cases hlookup

end CriKey.Config
