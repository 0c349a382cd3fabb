import CriKey.Base.Fallible
import CriKey.Base.Separated
import CriKey.Base.SortedMap

/-! Members of a package archive: which archives are read, and what their member names are. -/
namespace CriKey.Manager
open CriKey.Base List

/-- An entry as the archive reader reports it. A payload that cannot be read is absent. -/
structure ZipEntry where
  nameRaw : ByteArray
  isDir : Bool
  payload : Option (List UInt8)
  symlink : Bool
  unixMode : Option Nat

structure ArchiveMember where
  bytes : List UInt8
  directory : Bool
  unixMode : Option Nat
deriving DecidableEq, Repr

abbrev Members := List (String × ArchiveMember)

/-- The entries of an archive, in order; one that the reader cannot open is absent. -/
abbrev ZipArchive := List (Option ZipEntry)

inductive ArchiveError where
  | overPackageLimit (size : Nat)
  | unreadable
  | overMemberLimit (count : Nat)
  | entryUnreadable
  | nameNotUtf8
  | unsafePath (name : String)
  | symbolicLink (name : String)
  | payloadUnreadable (name : String)
  | overUnpackedLimit
  | directoryPayload (name : String)
  | duplicate (name : String)
  | conflict (name file : String)
deriving DecidableEq, Repr

def maxPackageBytes : Nat := 256 * 1024 * 1024

def maxUnpackedBytes : Nat := maxPackageBytes

def maxMembers : Nat := 65536

/-! ### Names -/

def endsWith (c : Char) (name : String) : Bool := name.toList.getLast? = some c

/-- The reader calls an entry a directory only when its name ends with a slash or a backslash. -/
def ZipEntry.DirByName (entry : ZipEntry) : Prop :=
  entry.isDir = true → ∀ name, String.fromUTF8? entry.nameRaw = some name →
    endsWith '/' name = true ∨ endsWith '\\' name = true

/-- What is assumed of the archive reader. -/
def DirsByName (zip : Option ZipArchive) : Prop :=
  ∀ entries, zip = some entries → ∀ entry, some entry ∈ entries → entry.DirByName

def stripSlash (name : List Char) : List Char :=
  if name.getLast? = some '/' then name.dropLast else name

def unsafePart (part : List Char) : Bool :=
  part = [] || part = ['.'] || part = ['.', '.'] || part.any fun c => c = '\\' || c = ':'

def validateArchiveName (name : String) (directory : Bool) : Except ArchiveError Unit :=
  let withoutSlash := if directory then stripSlash name.toList else name.toList
  if withoutSlash = [] || '\x00' ∈ name.toList || name.toList.head? = some '/' ||
      name.toList.head? = some '\\' || (!directory && endsWith '/' name) then
    .error (.unsafePath name)
  else if (withoutSlash.splitOn '/').any unsafePart then .error (.unsafePath name)
  else .ok ()

/-- The names a name grows through, part by part. -/
def growing (name : String) : List String :=
  ((name.toList.splitOn '/').inits.drop 1).map fun parts => String.ofList (['/'].intercalate parts)

def conflictOf (members : Members) (name : String) : Option String :=
  (growing name).find? fun start =>
    start ≠ name && (members.lookup start).any fun candidate => !candidate.directory

def validateArchivePrefixes (members : Members) : Except ArchiveError Unit :=
  match members.findSome? fun entry =>
      (conflictOf members entry.1).map fun file => (entry.1, file) with
  | some (name, file) => .error (.conflict name file)
  | none => .ok ()

/-! ### Reading -/

/-- One entry is taken over; the bytes that may still be unpacked are carried along. -/
def readEntry (state : Members × Nat) : Option ZipEntry → Except ArchiveError (Members × Nat)
  | none => .error .entryUnreadable
  | some entry =>
    let (members, remaining) := state
    match String.fromUTF8? entry.nameRaw with
    | none => .error .nameNotUtf8
    | some name => do
      let directory := entry.isDir || endsWith '/' name
      validateArchiveName name directory
      if entry.symlink then .error (.symbolicLink name)
      else
        match entry.payload with
        | none => .error (.payloadUnreadable name)
        | some bytes =>
          if bytes.length > remaining then .error .overUnpackedLimit
          else if directory && bytes ≠ [] then .error (.directoryPayload name)
          else if (members.lookup name).isSome then .error (.duplicate name)
          else .ok (insertEntry name ⟨bytes, directory, entry.unixMode⟩ members,
            remaining - bytes.length)

/-- The archive file by its size and its entries, which are absent when it is no archive. -/
def readArchive (size : Nat) (zip : Option ZipArchive) : Except ArchiveError Members :=
  if size > maxPackageBytes then .error (.overPackageLimit size)
  else
    match zip with
    | none => .error .unreadable
    | some entries =>
      if entries.length > maxMembers then .error (.overMemberLimit entries.length)
      else do
        let (members, _) ← entries.foldlM readEntry ([], maxUnpackedBytes)
        validateArchivePrefixes members
        return members

/-! ### Paths of members -/

abbrev FilePath := List String

/-- The components of a member's name below the directory it is written to. -/
def partsOf (name : String) : FilePath :=
  ((stripSlash name.toList).splitOn '/').map String.ofList

structure Ordinary (part : String) : Prop where
  nonempty : part ≠ ""
  notHere : part ≠ "."
  notUp : part ≠ ".."
  clean : ∀ c ∈ part.toList, c ≠ '/' ∧ c ≠ '\\' ∧ c ≠ ':' ∧ c ≠ '\x00'

/-- What every archive that is read guarantees. -/
structure WellFormed (members : Members) : Prop where
  ascending : Ascending members
  directory : ∀ name member, members.lookup name = some member →
    member.directory = endsWith '/' name
  empty : ∀ name member, members.lookup name = some member → member.directory = true →
    member.bytes = []
  ordinary : ∀ name member, members.lookup name = some member → ∀ part ∈ partsOf name, Ordinary part
  clear : ∀ name member file candidate, members.lookup name = some member →
    members.lookup file = some candidate → candidate.directory = false →
    ¬ ∃ rest, name.toList = file.toList ++ '/' :: rest

variable {name : String}

lemma stripSlash_of_not_endsWith (h : endsWith '/' name = false) :
    stripSlash name.toList = name.toList :=
  if_neg (of_decide_eq_false h)

lemma eq_append_slash (h : endsWith '/' name = true) :
    name.toList = stripSlash name.toList ++ ['/'] := by
  have hlast := of_decide_eq_true h
  rw [stripSlash, if_pos hlast]
  exact (dropLast_append_getLast? '/' hlast).symm

lemma validateArchiveName_eq_ok {directory : Bool} : validateArchiveName name directory = .ok () →
      '\x00' ∉ name.toList ∧
      ∀ part ∈ (if directory then stripSlash name.toList else name.toList).splitOn '/',
        unsafePart part = false := by
  intro h
  simp only [validateArchiveName, check_eq_ok, Bool.or_eq_true, decide_eq_true_eq, not_or,
    List.any_eq_true, not_exists, not_and, Bool.not_eq_true] at h
  exact ⟨h.1.1.1.1.2, h.2.1⟩

lemma directory_of_valid {isDir : Bool}
    (hdir : isDir = true → endsWith '/' name = true ∨ endsWith '\\' name = true)
    (h : validateArchiveName name (isDir || endsWith '/' name) = .ok ()) :
    (isDir || endsWith '/' name) = endsWith '/' name := by
  cases hslash : endsWith '/' name with
  | true => simp
  | false =>
    rw [Bool.or_false]
    by_contra htrue
    rw [Bool.not_eq_false] at htrue
    rw [htrue, Bool.true_or] at h
    have hback := (hdir htrue).resolve_left (by simp [hslash])
    -- one of the parts would hold the backslash
    obtain ⟨-, hparts⟩ := validateArchiveName_eq_ok h
    rw [if_pos rfl, stripSlash_of_not_endsWith hslash] at hparts
    have hmem : '\\' ∈ name.toList := mem_of_getLast? (of_decide_eq_true hback)
    obtain ⟨part, hpart, hc⟩ := (mem_iff_splitOn (by decide : '\\' ≠ '/')).mp hmem
    have hunsafe : unsafePart part = true := by
      simp only [unsafePart, Bool.or_eq_true, any_eq_true]
      exact .inr ⟨_, hc, by decide⟩
    rw [hparts part hpart] at hunsafe
    cases hunsafe

lemma ordinary_of_valid (h : validateArchiveName name (endsWith '/' name) = .ok ()) :
    ∀ part ∈ partsOf name, Ordinary part := by
  obtain ⟨hnul, hparts⟩ := validateArchiveName_eq_ok h
  have hstrip : (if endsWith '/' name = true then stripSlash name.toList else name.toList) =
      stripSlash name.toList := by
    cases hslash : endsWith '/' name with
    | true => rfl
    | false => exact (stripSlash_of_not_endsWith hslash).symm
  rw [hstrip] at hparts
  intro part hpart
  obtain ⟨text, htext, rfl⟩ := mem_map.mp hpart
  have hsafe := hparts text htext
  simp only [unsafePart, Bool.or_eq_false_iff, decide_eq_false_iff_not, List.any_eq_false,
    Bool.or_eq_true, decide_eq_true_eq, not_or] at hsafe
  obtain ⟨⟨⟨hempty, hdot⟩, hup⟩, hchars⟩ := hsafe
  refine ⟨?_, ?_, ?_, ?_⟩
  · exact fun heq => hempty (by simpa using congrArg String.toList heq)
  · exact fun heq => hdot (by simpa using congrArg String.toList heq)
  · exact fun heq => hup (by simpa using congrArg String.toList heq)
  · intro c hc
    rw [String.toList_ofList] at hc
    have hslash : c ≠ '/' := fun heq => notMem_of_mem_splitOn htext (heq ▸ hc)
    refine ⟨hslash, (hchars c hc).1, (hchars c hc).2, ?_⟩
    rintro rfl
    have hmem := (mem_iff_splitOn hslash).mpr ⟨text, htext, hc⟩
    refine hnul ?_
    rw [stripSlash] at hmem
    split at hmem
    · exact mem_of_mem_dropLast hmem
    · exact hmem

variable {members next : Members} {remaining left : Nat}

lemma readEntry_eq_ok {entry : ZipEntry} (hdir : entry.DirByName)
    (h : readEntry (members, remaining) entry = .ok (next, left)) :
    ∃ name bytes, validateArchiveName name (endsWith '/' name) = .ok () ∧
      members.lookup name = none ∧ (endsWith '/' name = true → bytes = []) ∧
      next = insertEntry name ⟨bytes, endsWith '/' name, entry.unixMode⟩ members := by
  rw [readEntry] at h
  split at h
  case h_1 => cases h
  case h_2 name hname =>
    obtain ⟨⟨⟩, hvalid, h⟩ := bind_eq_ok.mp h
    have hdirectory := directory_of_valid (fun htrue => hdir htrue name hname) hvalid
    rw [hdirectory] at h hvalid
    rw [check_eq_ok] at h
    obtain ⟨-, h⟩ := h
    split at h
    case h_1 => cases h
    case h_2 bytes _ =>
      simp only [check_eq_ok, Bool.and_eq_true, decide_eq_true_eq, not_and, not_not,
        Option.not_isSome_iff_eq_none, Except.ok.injEq, Prod.mk.injEq] at h
      obtain ⟨-, hempty, hnew, hnext, -⟩ := h
      exact ⟨name, bytes, hvalid, hnew, hempty, hnext.symm⟩

structure Gathered (members : Members) : Prop where
  ascending : Ascending members
  valid : ∀ name member, members.lookup name = some member →
    validateArchiveName name (endsWith '/' name) = .ok () ∧
      member.directory = endsWith '/' name ∧ (member.directory = true → member.bytes = [])

lemma Gathered.readEntry {entry : ZipEntry} (hg : Gathered members) (hdir : entry.DirByName)
    (h : readEntry (members, remaining) entry = .ok (next, left)) : Gathered next := by
  obtain ⟨name, bytes, hvalid, -, hempty, rfl⟩ := readEntry_eq_ok hdir h
  refine ⟨ascending_insertEntry _ _ hg.ascending, fun other member hlookup => ?_⟩
  rw [lookup_insertEntry] at hlookup
  split at hlookup
  case isTrue heq =>
    cases hlookup
    rw [heq]
    exact ⟨hvalid, rfl, hempty⟩
  case isFalse => exact hg.valid other member hlookup

lemma Gathered.readEntries {entries : ZipArchive} (hg : Gathered members)
    (hdirs : ∀ entry, some entry ∈ entries → entry.DirByName)
    (h : entries.foldlM Manager.readEntry (members, remaining) = .ok (next, left)) :
    Gathered next := by
  induction entries generalizing members remaining with
  | nil =>
    obtain rfl := congrArg Prod.fst (Except.ok.inj h)
    exact hg
  | cons entry entries ih =>
    rw [foldlM_cons, bind_eq_ok] at h
    obtain ⟨⟨middle, rest⟩, hentry, h⟩ := h
    cases entry with
    | none => cases hentry
    | some entry =>
      exact ih (hg.readEntry (hdirs entry mem_cons_self) hentry)
        (fun other hother => hdirs other (mem_cons_of_mem _ hother)) h

lemma mem_growing {file : String} {rest : List Char}
    (h : name.toList = file.toList ++ '/' :: rest) : file ∈ growing name ∧ file ≠ name := by
  constructor
  · have hinit : file.toList.splitOn '/' ∈ (name.toList.splitOn '/').inits := by
      rw [mem_inits, h, splitOn_append_cons_self]
      exact prefix_append _ _
    have hlater : file.toList.splitOn '/' ∈ (name.toList.splitOn '/').inits.drop 1 := by
      cases hparts : name.toList.splitOn '/' with
      | nil => exact absurd hparts (splitOn_ne_nil _ _)
      | cons first parts =>
        rw [hparts, inits_cons, mem_cons] at hinit
        exact hinit.resolve_left (splitOn_ne_nil _ _)
    refine mem_map.mpr ⟨_, hlater, ?_⟩
    rw [intercalate_splitOn, String.ofList_toList]
  · rintro rfl
    have := congrArg length h
    simp at this

lemma conflictOf_eq_none {file : String} {candidate : ArchiveMember}
    (h : conflictOf members name = none) (hfile : members.lookup file = some candidate)
    (hplain : candidate.directory = false) :
    ¬ ∃ rest, name.toList = file.toList ++ '/' :: rest := by
  intro ⟨rest, hrest⟩
  obtain ⟨hgrowing, hne⟩ := mem_growing hrest
  rw [conflictOf, find?_eq_none] at h
  exact h file hgrowing (by simp [hne, hfile, hplain])

lemma validateArchivePrefixes_eq_ok (h : validateArchivePrefixes members = .ok ()) :
    ∀ entry ∈ members, conflictOf members entry.1 = none := by
  rw [validateArchivePrefixes] at h
  split at h
  case h_1 => cases h
  case h_2 hnone =>
    intro entry hentry
    have := findSome?_eq_none_iff.mp hnone entry hentry
    simpa using this

lemma wellFormed_of_readArchive {size : Nat} {zip : Option ZipArchive} (hdirs : DirsByName zip)
    (h : readArchive size zip = .ok members) : WellFormed members := by
  rw [readArchive.eq_def, check_eq_ok] at h
  obtain ⟨-, h⟩ := h
  split at h
  case h_1 => cases h
  case h_2 entries =>
    obtain ⟨-, h⟩ := check_eq_ok.mp h
    obtain ⟨⟨read, left⟩, hread, h⟩ := bind_eq_ok.mp h
    obtain ⟨⟨⟩, hclear, h⟩ := bind_eq_ok.mp h
    obtain rfl := Except.ok.inj h
    have hempty : Gathered [] := ⟨.nil, fun _ _ hm => by cases hm⟩
    have hg : Gathered read := hempty.readEntries (hdirs entries rfl) hread
    refine ⟨hg.ascending, fun name member hm => (hg.valid name member hm).2.1,
      fun name member hm => (hg.valid name member hm).2.2,
      fun name member hm => ordinary_of_valid (hg.valid name member hm).1, ?_⟩
    intro name member file candidate hm hfile hplain
    have hmem := (mem_iff_lookup hg.ascending name member).mpr hm
    exact conflictOf_eq_none (validateArchivePrefixes_eq_ok hclear _ hmem) hfile hplain

/-! ### Paths that meet -/

section Paths
variable {members : Members} {name other : String} {member second : ArchiveMember}

lemma name_eq (h : WellFormed members) (hm : members.lookup name = some member) :
    name.toList = stripSlash name.toList ++ if member.directory then ['/'] else [] := by
  rw [h.directory name member hm]
  cases hslash : endsWith '/' name with
  | true => exact eq_append_slash hslash
  | false => rw [stripSlash_of_not_endsWith hslash]; simp

lemma ofList_injective : Function.Injective String.ofList := fun a b hab => by
  simpa using congrArg String.toList hab

lemma stripSlash_of_partsOf_eq (h : partsOf name = partsOf other) :
    stripSlash name.toList = stripSlash other.toList :=
  splitOn_injective (map_injective_iff.mpr ofList_injective h)

lemma partsOf_prefix (h : partsOf name <+: partsOf other) :
    stripSlash name.toList = stripSlash other.toList ∨
      ∃ rest, stripSlash other.toList = stripSlash name.toList ++ '/' :: rest := by
  obtain ⟨rest, hrest⟩ := (prefix_map_iff_of_injective ofList_injective).mp h
  by_cases hempty : rest = []
  · left
    rw [hempty, append_nil] at hrest
    exact splitOn_injective hrest
  · right
    exact splitOn_append_iff.mp ⟨rest, hempty, hrest.symm⟩

lemma directory_of_above (h : WellFormed members) (hm : members.lookup name = some member)
    (ho : members.lookup other = some second) (hne : name ≠ other)
    (hunder : partsOf name <+: partsOf other) :
    member.directory = true ∧ partsOf name ≠ partsOf other := by
  have hname := name_eq h hm
  have hother := name_eq h ho
  have hfile : member.directory = true := by
    by_contra hplain
    rw [Bool.not_eq_true] at hplain
    rw [hplain, if_neg Bool.false_ne_true, List.append_nil] at hname
    refine h.clear other second name member ho hm hplain ?_
    rw [hother, hname]
    cases partsOf_prefix hunder with
    | inl hsame =>
      cases hslash : second.directory with
      | true => exact ⟨[], by rw [hsame]; rfl⟩
      | false =>
        rw [hslash, if_neg Bool.false_ne_true, List.append_nil] at hother
        exact absurd (String.toList_injective (hname.trans (hsame.trans hother.symm))) hne
    | inr hlonger =>
      obtain ⟨rest, hrest⟩ := hlonger
      exact ⟨rest ++ if second.directory then ['/'] else [], by rw [hrest]; simp⟩
  refine ⟨hfile, fun hparts => ?_⟩
  have hsame := stripSlash_of_partsOf_eq hparts
  rw [hfile, if_pos rfl] at hname
  cases hslash : second.directory with
  | true =>
    rw [hslash, ← hsame] at hother
    exact hne (String.toList_injective (hname.trans hother.symm))
  | false =>
    rw [hslash, if_neg Bool.false_ne_true, List.append_nil] at hother
    exact h.clear name member other second hm ho hslash ⟨[], by rw [hname, hsame, ← hother]⟩

end Paths

end CriKey.Manager
