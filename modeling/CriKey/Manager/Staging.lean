import CriKey.Base.FileTree
import CriKey.Manager.Members

/-! Writing the members of a package below a staging directory. -/
namespace CriKey.Manager
open CriKey.Base List Option ArchiveMember Function FileTree

/-! ### Destinations -/

/-- How one component moves from a directory. -/
def descend (base : FilePath) (part : String) : FilePath :=
  if part = "" || part = "." then base else if part = ".." then base.dropLast else base ++ [part]

/-- Where a name leads from a directory. A name that starts with a slash starts over. -/
def join (base : FilePath) (name : String) : FilePath :=
  ((name.toList.splitOn '/').map String.ofList).foldl descend
    (if name.toList.head? = some '/' then [] else base)

lemma foldl_descend {parts : FilePath} (base : FilePath) (h : ∀ part ∈ parts, Ordinary part) :
    parts.foldl descend base = base ++ parts := by
  induction parts generalizing base with
  | nil => simp
  | cons part parts ih =>
    obtain ⟨hpart, hparts⟩ := forall_mem_cons.mp h
    rw [foldl_cons, ih _ hparts, descend]
    simp [hpart.nonempty, hpart.notHere, hpart.notUp]

lemma partsOf_ne_nil (name : String) : partsOf name ≠ [] := by
  rw [partsOf, Ne, map_eq_nil_iff]
  exact splitOn_ne_nil _ _

lemma head_ne_slash {name : String} (h : ∀ part ∈ partsOf name, Ordinary part) :
    name.toList.head? ≠ some '/' := by
  intro hhead
  obtain ⟨rest, hname⟩ := head?_eq_some_iff.mp hhead
  have hempty : "" ∈ partsOf name := by
    have hstart : stripSlash name.toList = [] ∨ ∃ more, stripSlash name.toList = '/' :: more := by
      rw [stripSlash, hname]
      split
      · cases rest with
        | nil => exact .inl rfl
        | cons c rest => exact .inr ⟨(c :: rest).dropLast, by simp⟩
      · exact .inr ⟨rest, rfl⟩
    rw [partsOf, List.mem_map]
    refine ⟨[], ?_, rfl⟩
    cases hstart with
    | inl hnil => simp [hnil]
    | inr hcons =>
      obtain ⟨more, hmore⟩ := hcons
      rw [hmore, splitOn_cons_eq_if_modifyHead]
      exact mem_cons_self
  exact (h "" hempty).nonempty rfl

lemma join_eq {members : Members} {name : String} {member : ArchiveMember}
    (h : WellFormed members) (hm : members.lookup name = some member) (base : FilePath) :
    join base name = base ++ partsOf name := by
  have hordinary := h.ordinary name member hm
  have hsplit : (name.toList.splitOn '/').map String.ofList =
      partsOf name ++ if member.directory then [""] else [] := by
    have hname := name_eq h hm
    cases hslash : member.directory with
    | false =>
      rw [hslash, if_neg Bool.false_ne_true, append_nil] at hname
      rw [partsOf, ← hname, if_neg Bool.false_ne_true, append_nil]
    | true =>
      rw [hslash, if_pos rfl] at hname
      rw [hname, splitOn_append_cons_self, map_append]
      rfl
  rw [join, if_neg (head_ne_slash hordinary), hsplit, foldl_append, foldl_descend base hordinary]
  cases member.directory <;> rfl

/-- The directory that has to stand for a member. -/
def dirOf (staging : FilePath) (entry : String × ArchiveMember) : FilePath :=
  if entry.2.directory then staging ++ partsOf entry.1 else (staging ++ partsOf entry.1).dropLast

lemma dirOf_isPrefix_member (staging : FilePath) (entry : String × ArchiveMember) :
    dirOf staging entry <+: staging ++ partsOf entry.1 := by
  rw [dirOf]
  split
  · exact prefix_refl _
  · exact dropLast_prefix _

lemma staging_prefix_dirOf (staging : FilePath) (entry : String × ArchiveMember) :
    staging <+: dirOf staging entry := by
  rw [dirOf]
  split
  · exact prefix_append _ _
  · rw [dropLast_append_of_ne_nil (partsOf_ne_nil _)]
    exact prefix_append _ _

/-! ### Writing -/

structure FileContent where
  bytes : List UInt8
  mode : Nat
deriving DecidableEq, Repr

abbrev Disk := FileTree String FileContent

/-- The permission bits of a new file, where a member gives none. -/
class DefaultMode where
  defaultMode : Nat

export DefaultMode (defaultMode)

section Writing
variable [DefaultMode]

def writeMember (staging : FilePath) (disk : Disk) (entry : String × ArchiveMember) : Option Disk :=
  let (name, member) := entry
  let destination := join staging name
  if member.directory then disk.createDirAll destination
  else do
    let disk ← disk.createDirAll destination.dropLast
    let disk ← disk.createFile destination ⟨[], defaultMode⟩
    let disk ← FileTree.modifyFile disk destination fun content =>
      { content with bytes := member.bytes }
    match member.unixMode with
    | none => some disk
    | some mode =>
      FileTree.modifyFile disk destination fun content => { content with mode := mode &&& 0o7777 }

def writeMembers (members : Members) (staging : FilePath) (disk : Disk) : Option Disk := do
  let disk ← disk.createDirAll staging
  members.foldlM (writeMember staging) disk

/-- The bits a member's file ends up with. -/
def ArchiveMember.mode (member : ArchiveMember) : Nat :=
  match member.unixMode with
  | some mode => mode &&& 0o7777
  | none => defaultMode

def ArchiveMember.content (member : ArchiveMember) : FileContent := ⟨member.bytes, member.mode⟩

/-! ### What is written -/

/-- The members of a list, and nothing else, were written. -/
structure Written (before after : Disk) (staging : FilePath) (members : Members) : Prop where
  files : ∀ entry ∈ members, entry.2.directory = false →
    after (staging ++ partsOf entry.1) = some (.file entry.2.content)
  dirs : ∀ path, (path <+: staging ∨ ∃ entry ∈ members, path <+: dirOf staging entry) →
    after path = some .dir
  rest : ∀ path, ¬ path <+: staging → (∀ entry ∈ members, ¬ path <+: dirOf staging entry) →
    (∀ entry ∈ members, entry.2.directory = false → path ≠ staging ++ partsOf entry.1) →
    after path = before path

/-- The staging directory is new, and no file stands above it. -/
structure Fresh (disk : Disk) (staging : FilePath) : Prop where
  below : ∀ path, staging <+: path → disk path = none
  above : ∀ path, path <+: staging → ∀ content, disk path ≠ some (.file content)

section Steps
variable {staging : FilePath} {before disk : Disk} {done : Members}
variable {path : FilePath}

variable {members : Members} {entry : String × ArchiveMember}

/-- The parts of a member that is written next meet those of an earlier one below a directory
only. -/
structure Next (members done : Members) (entry : String × ArchiveMember) : Prop where
  wellFormed : WellFormed members
  listed : members.lookup entry.1 = some entry.2
  earlier : ∀ e ∈ done, members.lookup e.1 = some e.2 ∧ e.1 ≠ entry.1

lemma writeFile_eq {grown : Disk} {destination : FilePath} {member : ArchiveMember}
    (hne : destination ≠ []) (hdir : grown destination ≠ some .dir)
    (hparent : grown destination.dropLast = some .dir) :
    (do
      let disk ← grown.createFile destination ⟨[], defaultMode⟩
      let disk ← FileTree.modifyFile disk destination fun content =>
        { content with bytes := member.bytes }
      match member.unixMode with
      | none => some disk
      | some mode =>
        FileTree.modifyFile disk destination fun content =>
          { content with mode := mode &&& 0o7777 }) =
      some (Function.update grown destination (some (.file member.content))) := by
  simp only [createFile_eq_some _ hne hdir hparent, modifyFile_update, bind_eq_bind, bind_some]
  cases hmode : member.unixMode with
  | none => simp only [content, mode, hmode]
  | some mode => simp only [ArchiveMember.content, ArchiveMember.mode, hmode]

variable (h : Written before disk staging done) (hfresh : Fresh before staging)
include h hfresh

lemma Written.file_below (hbelow : staging <+: path) {content : FileContent}
    (hfile : disk path = some (.file content)) :
    ∃ entry ∈ done, entry.2.directory = false ∧ path = staging ++ partsOf entry.1 := by
  by_contra hnone
  push Not at hnone
  by_cases hdir : path <+: staging ∨ ∃ entry ∈ done, path <+: dirOf staging entry
  · rw [h.dirs path hdir] at hfile
    cases hfile
  · push Not at hdir
    rw [h.rest path hdir.1 hdir.2 hnone, hfresh.below path hbelow] at hfile
    cases hfile

lemma Written.dir_below (hbelow : staging <+: path) (hne : path ≠ staging)
    (hdir : disk path = some .dir) :
    ∃ entry ∈ done, path <+: dirOf staging entry := by
  by_contra hnone
  push Not at hnone
  by_cases hfile : ∃ entry ∈ done, entry.2.directory = false ∧ path = staging ++ partsOf entry.1
  · obtain ⟨entry, hentry, hplain, hpath⟩ := hfile
    rw [hpath, h.files entry hentry hplain] at hdir
    cases hdir
  · push Not at hfile
    have hnot : ¬ path <+: staging := fun habove =>
      hne (habove.eq_of_length (Nat.le_antisymm habove.length_le hbelow.length_le))
    rw [h.rest path hnot hnone hfile, hfresh.below path hbelow] at hdir
    cases hdir

variable (hnext : Next members done entry)
include hnext

lemma Written.clear_above (hpath : path <+: staging ++ partsOf entry.1) (content : FileContent) :
    disk path ≠ some (.file content) := by
  intro hfile
  cases prefix_or_prefix_of_prefix hpath (prefix_append staging (partsOf entry.1)) with
  | inl habove =>
    rw [h.dirs path (.inl habove)] at hfile
    cases hfile
  | inr hbelow =>
    obtain ⟨e, he, hplain, heq⟩ := h.file_below hfresh hbelow hfile
    rw [heq, prefix_append_right_inj] at hpath
    obtain ⟨hlisted, hne⟩ := hnext.earlier e he
    have hdirectory := (directory_of_above hnext.wellFormed hlisted hnext.listed hne hpath).1
    rw [hplain] at hdirectory
    cases hdirectory

lemma Written.file_aside {e : String × ArchiveMember} (he : e ∈ done)
    (hplain : e.2.directory = false) :
    ¬ staging ++ partsOf e.1 <+: staging ++ partsOf entry.1 := fun hunder =>
  h.clear_above hfresh hnext hunder _ (h.files e he hplain)

lemma Written.grow : ∃ grown, disk.createDirAll (dirOf staging entry) = some grown ∧
      (∀ e ∈ done, e.2.directory = false →
        grown (staging ++ partsOf e.1) = some (.file e.2.content)) ∧
      (∀ path, (path <+: staging ∨ ∃ e ∈ done ++ [entry], path <+: dirOf staging e) →
        grown path = some .dir) ∧
      (∀ path, ¬ path <+: staging → (∀ e ∈ done ++ [entry], ¬ path <+: dirOf staging e) →
        (∀ e ∈ done, e.2.directory = false → path ≠ staging ++ partsOf e.1) →
        grown path = before path) ∧
      ∀ path, ¬ path <+: dirOf staging entry → grown path = disk path := by
  obtain ⟨grown, hgrown, hdirs, hsame⟩ := createDirAll_eq_some fun _ hq content =>
    h.clear_above hfresh hnext (hq.trans (dirOf_isPrefix_member staging entry)) content
  refine ⟨grown, hgrown, fun e he hplain => ?_, fun path hpath => ?_,
    fun path habove hnone hfiles => ?_, hsame⟩
  · rw [hsame _ fun hunder => h.file_aside hfresh hnext he hplain
      (hunder.trans (dirOf_isPrefix_member staging entry))]
    exact h.files e he hplain
  · by_cases hnew : path <+: dirOf staging entry
    · exact hdirs path hnew
    rw [hsame path hnew]
    refine h.dirs path (hpath.imp_right fun ⟨e, he, hunder⟩ => ?_)
    rw [mem_append, mem_singleton] at he
    cases he with
    | inl he => exact ⟨e, he, hunder⟩
    | inr heq => exact absurd (heq ▸ hunder) hnew
  · rw [hsame path (hnone entry (by simp))]
    exact h.rest path habove (fun e he => hnone e (by simp [he])) hfiles

lemma Written.directory (hdirectory : entry.2.directory = true) :
    ∃ after, writeMember staging disk entry = some after ∧
      Written before after staging (done ++ [entry]) := by
  obtain ⟨grown, hgrown, hfiles, hdirs, hrest, -⟩ := h.grow hfresh hnext
  have hdest : dirOf staging entry = staging ++ partsOf entry.1 := if_pos hdirectory
  refine ⟨grown, ?_, fun e he hplain => ?_, hdirs, fun path habove hnone hothers =>
    hrest path habove hnone fun e he => hothers e (by simp [he])⟩
  · rw [writeMember, join_eq hnext.wellFormed hnext.listed, if_pos hdirectory, ← hdest, hgrown]
  · rw [mem_append, mem_singleton] at he
    cases he with
    | inl he => exact hfiles e he hplain
    | inr heq =>
      rw [heq, hdirectory] at hplain
      cases hplain

lemma Written.file (hplain : entry.2.directory = false) :
    ∃ after, writeMember staging disk entry = some after ∧
      Written before after staging (done ++ [entry]) := by
  obtain ⟨grown, hgrown, hfiles, hdirs, hrest, hsame⟩ := h.grow hfresh hnext
  have hparent : dirOf staging entry = (staging ++ partsOf entry.1).dropLast :=
    if_neg (by simp [hplain])
  have hne : staging ++ partsOf entry.1 ≠ [] := by simp [partsOf_ne_nil]
  have hshort : ¬ staging ++ partsOf entry.1 <+: dirOf staging entry := by
    intro hunder
    have hlength := hunder.length_le
    have hpos := length_pos_iff.mpr hne
    rw [hparent, length_dropLast] at hlength
    omega
  -- no earlier directory reaches down to a file
  have haside : ∀ e ∈ done, ¬ staging ++ partsOf entry.1 <+: dirOf staging e := by
    intro e he hunder
    obtain ⟨hlisted, hdistinct⟩ := hnext.earlier e he
    have hparts := hunder.trans (dirOf_isPrefix_member staging e)
    rw [prefix_append_right_inj] at hparts
    have hdirectory :=
      (directory_of_above hnext.wellFormed hnext.listed hlisted (Ne.symm hdistinct) hparts).1
    rw [hplain] at hdirectory
    cases hdirectory
  have hnotDir : grown (staging ++ partsOf entry.1) ≠ some .dir := by
    rw [hsame _ hshort]
    intro hdir
    have hbelow : staging ++ partsOf entry.1 ≠ staging := by simp [partsOf_ne_nil]
    obtain ⟨e, he, hunder⟩ := h.dir_below hfresh (prefix_append _ _) hbelow hdir
    exact haside e he hunder
  refine ⟨update grown (staging ++ partsOf entry.1) (some (.file entry.2.content)), ?_,
    fun e he hfile => ?_, fun path hpath => ?_, fun path habove hnone hothers => ?_⟩
  · rw [writeMember, join_eq hnext.wellFormed hnext.listed, if_neg (by simp [hplain]), ← hparent,
      hgrown, bind_eq_bind]
    exact writeFile_eq hne hnotDir (hparent ▸ hdirs _ (.inr ⟨entry, by simp, prefix_refl _⟩))
  · rw [mem_append, mem_singleton] at he
    cases he with
    | inl he =>
      have hdistinct : staging ++ partsOf e.1 ≠ staging ++ partsOf entry.1 := fun heq =>
        h.file_aside hfresh hnext he hfile (heq ▸ prefix_refl _)
      rw [update_of_ne hdistinct]
      exact hfiles e he hfile
    | inr heq => rw [heq, update_self]
  · rw [update_of_ne, hdirs path hpath]
    rintro rfl
    cases hpath with
    | inl habove => exact hshort (habove.trans (staging_prefix_dirOf staging entry))
    | inr hdir =>
      obtain ⟨e, he, hunder⟩ := hdir
      rw [mem_append, mem_singleton] at he
      cases he with
      | inl he => exact haside e he hunder
      | inr heq => exact hshort (heq ▸ hunder)
  · rw [update_of_ne (hothers entry (by simp) hplain)]
    exact hrest path habove hnone fun e he => hothers e (by simp [he])

end Steps

/-! ### The whole archive -/

lemma Written.members {members : Members} (hwell : WellFormed members) {staging : FilePath}
    {before : Disk} (hfresh : Fresh before staging) {todo done : Members} {disk : Disk}
    (hsplit : members = done ++ todo) (h : Written before disk staging done) :
    ∃ after, todo.foldlM (writeMember staging) disk = some after ∧
      Written before after staging members := by
  induction todo generalizing done disk with
  | nil => exact ⟨disk, rfl, by rwa [hsplit, append_nil]⟩
  | cons entry todo ih =>
    have hlookup : ∀ e ∈ members, members.lookup e.1 = some e.2 := fun e he =>
      (mem_iff_lookup hwell.ascending e.1 e.2).mp he
    have hnext : Next members done entry := by
      refine ⟨hwell, hlookup entry (by simp [hsplit]), fun e he =>
        ⟨hlookup e (by simp [hsplit, he]), ?_⟩⟩
      have hascending := hwell.ascending
      rw [Ascending, hsplit, map_append, pairwise_append] at hascending
      exact (hascending.2.2 e.1 (mem_map_of_mem he) entry.1 (by simp)).ne
    have hone : ∃ after, writeMember staging disk entry = some after ∧
        Written before after staging (done ++ [entry]) := by
      cases hdirectory : entry.2.directory with
      | true => exact h.directory hfresh hnext hdirectory
      | false => exact h.file hfresh hnext hdirectory
    obtain ⟨after, hafter, hwritten⟩ := hone
    obtain ⟨last, hlast, hall⟩ := ih (by simp [hsplit]) hwritten
    exact ⟨last, by rw [foldlM_cons, hafter]; exact hlast, hall⟩

lemma exists_writeMembers {members : Members} (hwell : WellFormed members) {staging : FilePath}
    {before : Disk} (hfresh : Fresh before staging) :
    ∃ after, writeMembers members staging before = some after ∧
      Written before after staging members := by
  obtain ⟨disk, hdisk, hdirs, hsame⟩ := createDirAll_eq_some hfresh.above
  have hstart : Written before disk staging [] := by
    refine ⟨nofun, ?_, ?_⟩
    · intro path hpath
      exact hdirs path (hpath.resolve_right fun ⟨_, he, _⟩ => by cases he)
    · intro path habove _ _
      exact hsame path habove
  obtain ⟨after, hafter, hwritten⟩ := hstart.members hwell hfresh rfl
  exact ⟨after, by rw [writeMembers, hdisk]; exact hafter, hwritten⟩

/-- Members stay below the staging directory, only directories lie above other members, and
writing leaves exactly the members and their directories. -/
theorem members_contained {size : Nat} {zip : Option ZipArchive} {members : Members}
    (hdirs : DirsByName zip) (h : readArchive size zip = .ok members) {staging : FilePath}
    {before : Disk} (hfresh : Fresh before staging) :
    (∀ entry ∈ members, join staging entry.1 = staging ++ partsOf entry.1 ∧
      partsOf entry.1 ≠ [] ∧ ∀ part ∈ partsOf entry.1, Ordinary part) ∧
    (∀ entry ∈ members, ∀ other ∈ members, entry.1 ≠ other.1 → partsOf entry.1 <+: partsOf other.1 →
      entry.2.directory = true ∧ partsOf entry.1 ≠ partsOf other.1) ∧
    ∃ after, writeMembers members staging before = some after ∧
      Written before after staging members := by
  have hwell := wellFormed_of_readArchive hdirs h
  have hlookup : ∀ e ∈ members, members.lookup e.1 = some e.2 := fun e he =>
    (mem_iff_lookup hwell.ascending e.1 e.2).mp he
  refine ⟨fun e he => ?_, fun e he other hother hne hunder => ?_, exists_writeMembers hwell hfresh⟩
  · exact ⟨join_eq hwell (hlookup e he) staging, partsOf_ne_nil _,
      hwell.ordinary _ _ (hlookup e he)⟩
  · exact directory_of_above hwell (hlookup e he) (hlookup other hother) hne hunder

end Writing

def binArchive : ZipArchive :=
  [some ⟨"bin/".toUTF8, true, some [], false, some 0o755⟩,
    some ⟨"bin/run".toUTF8, false, some [1, 2], false, some 0o755⟩]

def binMembers : Members :=
  [("bin/", ⟨[], true, some 0o755⟩), ("bin/run", ⟨[1, 2], false, some 0o755⟩)]

def pluginsOnly : Disk := fun path => if path <+: ["plugins"] then some .dir else none

lemma pluginsOnly_fresh : Fresh pluginsOnly ["plugins", ".staging"] := by
  refine ⟨fun path hbelow => if_neg fun habove => ?_, fun path _ content => ?_⟩
  · have := hbelow.length_le.trans habove.length_le
    simp at this
  · rw [pluginsOnly]
    split <;> simp

theorem binArchive_contained :
    let _ : DefaultMode := ⟨0o644⟩
    DirsByName (some binArchive) ∧ readArchive 300 (some binArchive) = .ok binMembers ∧
      ∃ after, writeMembers binMembers ["plugins", ".staging"] pluginsOnly = some after ∧
        Written pluginsOnly after ["plugins", ".staging"] binMembers := by
  intro _
  have hdirs : DirsByName (some binArchive) := by
    rintro _ ⟨⟩ entry hentry htrue name hname
    simp only [binArchive, mem_cons, Option.some.injEq, not_mem_nil, or_false] at hentry
    rcases hentry with rfl | rfl
    · left
      obtain rfl : "bin/" = name := Option.some.inj (Eq.trans (by decide +kernel) hname)
      decide +kernel
    · cases htrue
  have hread : readArchive 300 (some binArchive) = .ok binMembers := by decide +kernel
  exact ⟨hdirs, hread, (members_contained hdirs hread pluginsOnly_fresh).2.2⟩

/-- A directory entry lies above the file in it. -/
theorem directory_above_file : readArchive 300 (some binArchive) = .ok binMembers ∧
      ∃ entry ∈ binMembers, ∃ other ∈ binMembers, entry.1 ≠ other.1 ∧
        partsOf entry.1 <+: partsOf other.1 := by
  refine ⟨by decide +kernel, ("bin/", ⟨[], true, some 0o755⟩), by decide,
    ("bin/run", ⟨[1, 2], false, some 0o755⟩), by decide, by decide, ?_⟩
  decide +kernel

end CriKey.Manager
