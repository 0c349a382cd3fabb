import CriKey.Base.Framed
import CriKey.Manager.Resolve
import CriKey.Manager.Staging

/-! The bytes a package signature covers, and the tree that is installed under it. -/
namespace CriKey.Manager
open CriKey.Base List Nat

/-! ### Packages -/

/-- The digest of the hash function, as hexadecimal text. -/
class Sha256 where
  sha256Hex : List UInt8 → String

export Sha256 (sha256Hex)

structure PackageLock where
  plugin : String
  version : String
  entries : List (String × String)
deriving DecidableEq, Repr

/-- The text form of a lock, both ways. -/
class LockFormat where
  parse : String → Option PackageLock
  render : PackageLock → Option String

structure PluginManifest where
  id : String
  version : String
deriving DecidableEq, Repr

structure LoadedPackage where
  members : Members
  manifest : PluginManifest
deriving DecidableEq, Repr

def lockMember : String := "crikey-package.lock"

inductive IntegrityError where
  | missingLock
  | lockDirectory
  | lockNotUtf8
  | invalidLock
  | unencodableLock
  | lockNotCanonical
  | identityMismatch
  | wrongMembers
  | digestMismatch (name : String)
deriving DecidableEq, Repr

/-- Two digests are compared without regard to case. -/
def constantTimeHexEq (left right : String) : Bool :=
  left.toUTF8.toList.map toAsciiLowercase = right.toUTF8.toList.map toAsciiLowercase

section Integrity
variable [Sha256] [LockFormat]

def readLock (member : ArchiveMember) : Except IntegrityError PackageLock :=
  if member.directory then .error .lockDirectory
  else
    match String.fromUTF8? ⟨member.bytes.toArray⟩ with
    | none => .error .lockNotUtf8
    | some text =>
      match LockFormat.parse text with
      | none => .error .invalidLock
      | some lock =>
        match LockFormat.render lock with
        | none => .error .unencodableLock
        | some canonical => if text ≠ canonical then .error .lockNotCanonical else .ok lock

/-- The digest of one member against the lock. -/
def checkDigest (lock : PackageLock) (entry : String × ArchiveMember) :
    Except IntegrityError Unit :=
  match lock.entries.lookup entry.1 with
  | none => .error (.digestMismatch entry.1)
  | some expected =>
    if !isHexSha256 expected || !constantTimeHexEq expected (sha256Hex entry.2.bytes) then
      .error (.digestMismatch entry.1)
    else .ok ()

def validateIntegrity (package : LoadedPackage) : Except IntegrityError Unit :=
  match package.members.lookup lockMember with
  | none => .error .missingLock
  | some member => do
    let lock ← readLock member
    if lock.plugin ≠ package.manifest.id || lock.version ≠ package.manifest.version then
      .error .identityMismatch
    else
      let others := package.members.filter (·.1 ≠ lockMember)
      if others.map Prod.fst ≠ lock.entries.map Prod.fst then .error .wrongMembers
      else others.forM (checkDigest lock)

end Integrity

/-! ### The signed bytes -/

def decimalBytes (n : Nat) : List UInt8 := (Nat.toDigits 10 n).map fun c => c.toNat.toUInt8

def canonicalManifestPreamble : String := "crikey-package-signature-v1"

/-- A field: its length, a colon, its bytes, the end of the line. -/
def fieldRow : List (List UInt8) → List UInt8 := frames decimalBytes 58 10

def utf8 (text : String) : List UInt8 := text.toUTF8.data.toList

def manifestFields [Sha256] (package : LoadedPackage) : List (List UInt8) :=
  utf8 package.manifest.id :: utf8 package.manifest.version ::
    decimalBytes package.members.length ::
    package.members.flatMap fun entry => [utf8 entry.1, utf8 (sha256Hex entry.2.bytes)]

def canonicalManifest [Sha256] (package : LoadedPackage) : List UInt8 :=
  utf8 canonicalManifestPreamble ++ [10] ++ fieldRow (manifestFields package)

/-! ### What the bytes fix -/

lemma byte_of_digit {c : Char} (h : c.isDigit = true) : c.toNat.toUInt8.toNat = c.toNat := by
  have hsmall : c.toNat < 256 := by
    simp only [Char.isDigit, Bool.and_eq_true, decide_eq_true_eq, UInt32.le_iff_toNat_le] at h
    have h9 : '9'.val.toNat = 57 := rfl
    have hval : c.toNat = c.val.toNat := rfl
    omega
  simp only [UInt8.toNat_ofNat']
  omega

lemma decimalBytes_injective : Function.Injective decimalBytes := by
  have hback : ∀ n, (decimalBytes n).map (fun b => Char.ofNat b.toNat) = toDigits 10 n := by
    intro n
    rw [decimalBytes, map_map]
    conv_rhs => rw [← map_id (toDigits 10 n)]
    refine map_congr_left fun c hc => ?_
    have hdigit := isDigit_of_mem_toDigits (by omega) (by omega) hc
    rw [Function.comp_apply, byte_of_digit hdigit, Char.ofNat_toNat, id]
  intro m n h
  have hdigits : toDigits 10 m = toDigits 10 n := by rw [← hback m, h, hback n]
  rw [← ofDigitChars_ten_toDigits (n := m), hdigits, ofDigitChars_ten_toDigits]

lemma colon_notMem_decimalBytes (n : Nat) : (58 : UInt8) ∉ decimalBytes n := by
  intro hmem
  obtain ⟨c, hc, hbyte⟩ := mem_map.mp hmem
  have hdigit := isDigit_of_mem_toDigits (by omega) (by omega) hc
  have hcolon : c = ':' := by
    have := congrArg UInt8.toNat hbyte
    rw [byte_of_digit hdigit] at this
    rw [← Char.ofNat_toNat c, this]
    rfl
  rw [hcolon] at hdigit
  exact absurd hdigit (by decide)

lemma utf8_injective : Function.Injective utf8 := fun _ _ h =>
  String.toByteArray_inj.mp (ByteArray.ext (Array.toList_inj.mp h))

section Manifest
variable [Sha256] {p q : LoadedPackage}

lemma digests_of_canonicalManifest (h : canonicalManifest p = canonicalManifest q) :
    p.members.map (fun entry => (entry.1, sha256Hex entry.2.bytes)) =
      q.members.map (fun entry => (entry.1, sha256Hex entry.2.bytes)) := by
  have hfields : manifestFields p = manifestFields q :=
    frames_injective decimalBytes_injective colon_notMem_decimalBytes (append_cancel_left h)
  simp only [manifestFields, cons.injEq] at hfields
  obtain ⟨-, -, -, hmembers⟩ := hfields
  generalize p.members = left at hmembers
  generalize q.members = right at hmembers
  induction left generalizing right with
  | nil =>
    cases right with
    | nil => rfl
    | cons entry right => simp at hmembers
  | cons entry left ih =>
    cases right with
    | nil => simp at hmembers
    | cons other right =>
      simp only [flatMap_cons, cons_append, cons.injEq] at hmembers
      obtain ⟨hname, hdigest, hrest⟩ := hmembers
      rw [map_cons, map_cons, ih right hrest, utf8_injective hname, utf8_injective hdigest]

/-- No content of the one package shares a digest with another content of the other. -/
def CollisionFree (p q : LoadedPackage) : Prop :=
  ∀ e ∈ p.members, ∀ e' ∈ q.members, sha256Hex e.2.bytes = sha256Hex e'.2.bytes →
    e.2.bytes = e'.2.bytes

lemma bytes_of_canonicalManifest (h : canonicalManifest p = canonicalManifest q)
    (hfree : CollisionFree p q) : p.members.map (fun entry => (entry.1, entry.2.bytes)) =
      q.members.map (fun entry => (entry.1, entry.2.bytes)) := by
  have hdigests := digests_of_canonicalManifest h
  rw [CollisionFree] at hfree
  generalize p.members = left at hdigests hfree
  generalize q.members = right at hdigests hfree
  induction left generalizing right with
  | nil =>
    obtain rfl := map_eq_nil_iff.mp hdigests.symm
    rfl
  | cons entry left ih =>
    cases right with
    | nil => cases hdigests
    | cons other right =>
      simp only [map_cons, cons.injEq, Prod.mk.injEq] at hdigests ⊢
      obtain ⟨⟨hname, hdigest⟩, hrest⟩ := hdigests
      refine ⟨⟨hname, hfree entry mem_cons_self other mem_cons_self hdigest⟩, ?_⟩
      exact ih right hrest fun e he e' he' =>
        hfree e (mem_cons_of_mem _ he) e' (mem_cons_of_mem _ he')

end Manifest

/-! ### What the installed tree is fixed by -/

section Trees
variable [DefaultMode] {before after other : Disk} {staging : FilePath} {members others : Members}

/-- Every member of a list has one of the other at its path that is written alike. -/
def WrittenAlike (members others : Members) : Prop :=
  ∀ e ∈ members, ∃ e' ∈ others, e'.1 = e.1 ∧ e'.2.directory = e.2.directory ∧
    (e.2.directory = false → e'.2.content = e.2.content)

omit [DefaultMode] in
lemma dirOf_congr {e e' : String × ArchiveMember} (hname : e'.1 = e.1)
    (hdirectory : e'.2.directory = e.2.directory) : dirOf staging e' = dirOf staging e := by
  rw [dirOf, dirOf, hname, hdirectory]

lemma Written.congr (h : Written before after staging members) (hto : WrittenAlike members others)
    (hfrom : WrittenAlike others members) : Written before after staging others := by
  refine ⟨?_, ?_, ?_⟩
  · intro e he hplain
    obtain ⟨e', he', hname, hdirectory, hcontent⟩ := hfrom e he
    rw [← hname, ← hcontent hplain]
    exact h.files e' he' (hdirectory.trans hplain)
  · intro path hpath
    refine h.dirs path (hpath.imp_right fun ⟨e, he, hunder⟩ => ?_)
    obtain ⟨e', he', hname, hdirectory, -⟩ := hfrom e he
    exact ⟨e', he', dirOf_congr hname hdirectory ▸ hunder⟩
  · intro path habove hdirs hfiles
    refine h.rest path habove (fun e he hunder => ?_) fun e he hplain hpath => ?_
    · obtain ⟨e', he', hname, hdirectory, -⟩ := hto e he
      exact hdirs e' he' (dirOf_congr hname hdirectory ▸ hunder)
    · obtain ⟨e', he', hname, hdirectory, -⟩ := hto e he
      exact hfiles e' he' (hdirectory.trans hplain) (hname ▸ hpath)

lemma Written.ext (h : Written before after staging members)
    (h' : Written before other staging members) : after = other := by
  funext path
  by_cases hdir : path <+: staging ∨ ∃ entry ∈ members, path <+: dirOf staging entry
  · rw [h.dirs path hdir, h'.dirs path hdir]
  by_cases hfile : ∃ entry ∈ members, entry.2.directory = false ∧ path = staging ++ partsOf entry.1
  · obtain ⟨entry, hentry, hplain, rfl⟩ := hfile
    rw [h.files entry hentry hplain, h'.files entry hentry hplain]
  · push Not at hdir hfile
    rw [h.rest path hdir.1 hdir.2 hfile, h'.rest path hdir.1 hdir.2 hfile]

/-- Files at one path have the same permission bits in both archives. -/
def SameModes (members others : Members) : Prop :=
  ∀ e ∈ members, ∀ e' ∈ others, e'.1 = e.1 → e.2.directory = false → e'.2.mode = e.2.mode

lemma writtenAlike_of_sameModes (hwell : WellFormed members) (hwell' : WellFormed others)
    (hbytes : members.map (fun e => (e.1, e.2.bytes)) = others.map (fun e => (e.1, e.2.bytes)))
    (hmodes : SameModes members others) : WrittenAlike members others := by
  intro e he
  have hmem : (e.1, e.2.bytes) ∈ others.map (fun e => (e.1, e.2.bytes)) :=
    hbytes ▸ mem_map_of_mem he
  obtain ⟨e', he', heq⟩ := mem_map.mp hmem
  obtain ⟨hname, hcontent⟩ := Prod.mk.inj heq
  refine ⟨e', he', hname, ?_, fun hplain => ?_⟩
  · rw [hwell.directory e.1 e.2 ((mem_iff_lookup hwell.ascending _ _).mp he),
      hwell'.directory e'.1 e'.2 ((mem_iff_lookup hwell'.ascending _ _).mp he'), hname]
  · rw [ArchiveMember.content, ArchiveMember.content, hcontent, hmodes e he e' he' hname hplain]

lemma SameModes.symm (hwell : WellFormed members) (hwell' : WellFormed others)
    (h : SameModes members others) : SameModes others members := by
  intro e he e' he' hname hplain
  refine (h e' he' e he hname.symm ?_).symm
  rw [hwell.directory e'.1 e'.2 ((mem_iff_lookup hwell.ascending _ _).mp he'), hname,
    ← hwell'.directory e.1 e.2 ((mem_iff_lookup hwell'.ascending _ _).mp he), hplain]

end Trees

/-- Packages under one signature install one tree exactly when the permission bits of their files,
which the signature does not cover, agree. -/
theorem signed_tree_iff [Sha256] [DefaultMode] {p q : LoadedPackage}
    {size size' : Nat} {zip zip' : Option ZipArchive}
    (hdirs : DirsByName zip) (hdirs' : DirsByName zip')
    (hp : readArchive size zip = .ok p.members) (hq : readArchive size' zip' = .ok q.members)
    (hsigned : canonicalManifest p = canonicalManifest q) (hfree : CollisionFree p q)
    {staging : FilePath} {before : Disk} (hfresh : Fresh before staging) :
    writeMembers p.members staging before = writeMembers q.members staging before ↔
      SameModes p.members q.members := by
  have hwell := wellFormed_of_readArchive hdirs hp
  have hwell' := wellFormed_of_readArchive hdirs' hq
  have hbytes := bytes_of_canonicalManifest hsigned hfree
  obtain ⟨after, hafter, hwritten⟩ := exists_writeMembers hwell hfresh
  obtain ⟨after', hafter', hwritten'⟩ := exists_writeMembers hwell' hfresh
  rw [hafter, hafter', Option.some.injEq]
  constructor
  · rintro rfl e he e' he' hname hplain
    have hplain' : e'.2.directory = false := by
      rw [hwell'.directory e'.1 e'.2 ((mem_iff_lookup hwell'.ascending _ _).mp he'), hname,
        ← hwell.directory e.1 e.2 ((mem_iff_lookup hwell.ascending _ _).mp he), hplain]
    have hfile := hwritten.files e he hplain
    rw [← hname, hwritten'.files e' he' hplain', Option.some.injEq, Node.file.injEq] at hfile
    exact congrArg FileContent.mode hfile
  · intro hmodes
    have halike := writtenAlike_of_sameModes hwell hwell' hbytes hmodes
    have halike' := writtenAlike_of_sameModes hwell' hwell hbytes.symm (hmodes.symm hwell hwell')
    exact (hwritten.congr halike halike').ext hwritten'

/-! ### A package with a program -/

def runDigest : String := "4bf5122f344554c53bde2ebb8cd2b7e3d1600ad631c385a5d7cce23c7785459a"

def tomlDigest : String := "a12871fee210fb8619291eaea194581cbd2531e4b23759d225f6806923f63222"

def demoLock : PackageLock := ⟨"demo", "1.0", [("bin/run", runDigest), ("crikey.toml", tomlDigest)]⟩

def demoLockText : String :=
  "plugin = \"demo\"\nversion = \"1.0\"\n\n[entries]\n\"bin/run\" = \"" ++ runDigest ++
    "\"\n\"crikey.toml\" = \"" ++ tomlDigest ++ "\"\n"

/-- The SHA-256 digests of the contents of the package. -/
@[reducible] def Sha256.demo : Sha256 where
  sha256Hex bytes :=
    if bytes = [1] then runDigest
    else if bytes = [1, 2] then tomlDigest
    else if bytes = utf8 demoLockText then
      "1914c4ca5a8951362e6ea306e2b08acc0e0e57f61444c0e08d6c98bbe97fa2a1"
    else ""

/-- The TOML form of its lock. -/
@[reducible] def LockFormat.demo : LockFormat where
  parse text := if text = demoLockText then some demoLock else none
  render lock := if lock = demoLock then some demoLockText else none

def demoArchive (mode : Nat) : ZipArchive :=
  [some ⟨"bin/run".toUTF8, false, some [1], false, some mode⟩,
    some ⟨"crikey-package.lock".toUTF8, false, some (utf8 demoLockText), false, none⟩,
    some ⟨"crikey.toml".toUTF8, false, some [1, 2], false, none⟩]

def demoPackage (mode : Nat) : LoadedPackage :=
  ⟨[("bin/run", ⟨[1], false, some mode⟩),
    ("crikey-package.lock", ⟨utf8 demoLockText, false, none⟩),
    ("crikey.toml", ⟨[1, 2], false, none⟩)], ⟨"demo", "1.0"⟩⟩

lemma demoArchive_dirs (mode : Nat) : DirsByName (some (demoArchive mode)) := by
  rintro _ ⟨⟩ entry hentry htrue
  simp only [demoArchive, mem_cons, Option.some.injEq, not_mem_nil, or_false] at hentry
  rcases hentry with rfl | rfl | rfl <;> cases htrue

/-- Type bits of a mode are not written: such archives install one tree. -/
theorem demo_same_tree :
    let _ : Sha256 := .demo
    let _ : LockFormat := .demo
    let _ : DefaultMode := ⟨0o644⟩
    validateIntegrity (demoPackage 0o755) = .ok () ∧
      validateIntegrity (demoPackage 0o100755) = .ok () ∧
      writeMembers (demoPackage 0o755).members ["plugins", ".staging"] pluginsOnly =
        writeMembers (demoPackage 0o100755).members ["plugins", ".staging"] pluginsOnly := by
  intro _ _ _
  have hp : readArchive 300 (some (demoArchive 0o755)) = .ok (demoPackage 0o755).members := by
    decide +kernel
  have hq : readArchive 300 (some (demoArchive 0o100755)) = .ok (demoPackage 0o100755).members := by
    decide +kernel
  have hfree : CollisionFree (demoPackage 0o755) (demoPackage 0o100755) := by
    unfold CollisionFree
    decide +kernel
  have hmodes : SameModes (demoPackage 0o755).members (demoPackage 0o100755).members := by
    unfold SameModes
    decide +kernel
  exact ⟨by decide +kernel, by decide +kernel,
    (signed_tree_iff (demoArchive_dirs _) (demoArchive_dirs _) hp hq (by decide +kernel) hfree
      pluginsOnly_fresh).mpr hmodes⟩

/-- The same signed bytes cover a package whose program gains the set-user-id bit. -/
theorem mode_is_not_signed :
    let _ : Sha256 := .demo
    let _ : LockFormat := .demo
    let _ : DefaultMode := ⟨0o644⟩
    readArchive 300 (some (demoArchive 0o755)) = .ok (demoPackage 0o755).members ∧
      readArchive 300 (some (demoArchive 0o4777)) = .ok (demoPackage 0o4777).members ∧
      validateIntegrity (demoPackage 0o755) = .ok () ∧
      validateIntegrity (demoPackage 0o4777) = .ok () ∧
      canonicalManifest (demoPackage 0o755) = canonicalManifest (demoPackage 0o4777) ∧
      (writeMembers (demoPackage 0o755).members ["plugins", ".staging"] pluginsOnly).map
          (· ["plugins", ".staging", "bin", "run"]) = some (some (.file ⟨[1], 0o755⟩)) ∧
      (writeMembers (demoPackage 0o4777).members ["plugins", ".staging"] pluginsOnly).map
          (· ["plugins", ".staging", "bin", "run"]) = some (some (.file ⟨[1], 0o4777⟩)) := by
  decide +kernel

end CriKey.Manager
