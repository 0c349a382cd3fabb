import CriKey.Base.Fallible
import CriKey.Packages.Extractions

/-! Discovered packages: which ids are returned, from which root, and when their files are still
there once discovery is done. -/
namespace CriKey.Packages
open CriKey.Base FileSystem List Discovery

/-! ### What a root has to offer -/

/-- The package an entry loads as, whatever the cache holds. -/
def offered (limits : PackageLimits) (zip : ZipReader) (path : PackagePath) :
    Node → Option LegacyPackage
  | .file bytes =>
    if hasArchiveExtension path.name then
      match inspectArchive limits zip path.name bytes with
      | .error _ => none
      | .ok inspected =>
        match writeEntries limits inspected.plan with
        | .error _ => none
        | .ok _ => some (inspected.package path)
    else none
  | .directory below => (loadDirectory limits path below).toOption
  | .other => none

def loadable (limits : PackageLimits) (zip : ZipReader) (root : String)
    (entries : List (String × Node)) : List LegacyPackage :=
  entries.filterMap fun entry => offered limits zip ⟨root, entry.1⟩ entry.2

namespace FileSystem

variable (fs : FileSystem)

def listing (root : String) : List (String × Node) :=
  match fs.readDir root with
  | none => []
  | some entries => entries.entries

variable (limits : PackageLimits)

def considered (root : String) : List (String × Node) :=
  match fs.readDir root with
  | none => []
  | some entries => candidates limits entries

variable (zip : ZipReader)

/-- All loadable packages of a root, those past the limit on candidates included. -/
def packagesOf (root : String) : List LegacyPackage :=
  loadable limits zip root (fs.listing root)

/-- The loadable packages among the candidates of the roots, in the order they are loaded. -/
def offers (roots : List String) : List LegacyPackage :=
  roots.flatMap fun root => loadable limits zip root (fs.considered limits root)

def HasArchive (roots : List String) (name : String) (bytes : List UInt8) : Prop :=
  hasArchiveExtension name = true ∧ ∃ root ∈ roots, (name, .file bytes) ∈ fs.listing root

/-- A directory of the cache that bears the name of an archive's extraction holds all its files. -/
def Complete (roots : List String) (cache : Cache) : Prop :=
  ∀ name bytes, fs.HasArchive roots name bytes →
    ∀ inspected, inspectArchive limits zip name bytes = .ok inspected →
      ∀ files, cache.get? inspected.directory = some (.directory files) →
        writeEntries limits inspected.plan = .ok files

/-- No two archives of the roots have one digest. -/
def DigestInjective (roots : List String) : Prop :=
  ∀ name bytes name' bytes', fs.HasArchive roots name bytes → fs.HasArchive roots name' bytes' →
    contentDigest bytes = contentDigest bytes' → bytes = bytes'

end FileSystem

/-- The extraction a package has if it is an archive with this id. -/
def LegacyPackage.extraction? (id : String) (package : LegacyPackage) : Option String :=
  match package.root with
  | .directory _ => none
  | .archive _ extracted => if package.id = id then some extracted else none

variable {limits : PackageLimits} {zip : ZipReader} {fs : FileSystem} {roots : List String}
  {cache : Cache}

lemma mem_listing_of_considered {root : String} {entry : String × Node}
    (h : entry ∈ fs.considered limits root) : entry ∈ fs.listing root := by
  rw [considered] at h
  rw [listing]
  cases hread : fs.readDir root with
  | none =>
    rw [hread] at h
    cases h
  | some entries =>
    rw [hread] at h
    have htake := (mem_insertionSort (fun a b : String × Node => a.1 ≤ b.1)).mp h
    exact (mem_filter.mp (mem_of_mem_take htake)).1

variable {name : String} {node : Node}

lemma node?_of_mem_listing {root : String} (h : (name, node) ∈ fs.listing root) :
    fs.node? ⟨root, name⟩ = some node := by
  rw [listing] at h
  cases hread : fs.readDir root with
  | none =>
    rw [hread] at h
    cases h
  | some entries =>
    rw [hread] at h
    rw [node?, hread]
    exact Table.get?_of_mem_entries h

/-! ### One archive -/

variable {bytes : List UInt8} {inspected : Inspected}

section
variable (h : inspectArchive limits zip name bytes = .ok inspected)
include h

lemma inspectArchive_ok : inspected.directory = extractionName inspected.id (contentDigest bytes) ∧
      ∃ members, zip bytes = .ok members ∧ planArchive limits members = .ok inspected.plan := by
  rw [inspectArchive] at h
  cases hid : packageIdOf name true with
  | none =>
    rw [hid] at h
    cases h
  | some id =>
    simp only [hid] at h
    obtain ⟨members, hzip, h⟩ := bind_eq_ok.mp h
    obtain ⟨-, h⟩ := check_eq_ok.mp h
    obtain ⟨-, h⟩ := check_eq_ok.mp h
    obtain ⟨plan, hplan, h⟩ := bind_eq_ok.mp h
    obtain ⟨contents, -, h⟩ := bind_eq_ok.mp h
    cases h
    exact ⟨rfl, members, hzip, hplan⟩

lemma unpacked_of_inspected :
    unpacked limits zip bytes = (writeEntries limits inspected.plan).toOption := by
  obtain ⟨-, members, hzip, hplan⟩ := inspectArchive_ok h
  simp [unpacked, hzip, hplan, bind, Except.bind]

end

lemma offered_cases {path : PackagePath} {package : LegacyPackage}
    (h : offered limits zip path node = some package) :
    (∃ below, node = .directory below ∧ package.root = .directory path) ∨
      ∃ bytes inspected files, node = .file bytes ∧ hasArchiveExtension path.name = true ∧
        inspectArchive limits zip path.name bytes = .ok inspected ∧
        writeEntries limits inspected.plan = .ok files ∧ package = inspected.package path := by
  cases node with
  | other => cases h
  | directory below =>
    rw [offered, toOption_eq_some, loadDirectory] at h
    cases hid : packageIdOf path.name false with
    | none =>
      rw [hid] at h
      cases h
    | some id =>
      simp only [hid] at h
      obtain ⟨files, -, h⟩ := bind_eq_ok.mp h
      obtain ⟨contents, -, h⟩ := bind_eq_ok.mp h
      cases h
      exact .inl ⟨below, rfl, rfl⟩
  | file bytes =>
    rw [offered] at h
    split at h
    case isFalse => cases h
    case isTrue hext =>
      split at h
      case h_1 => cases h
      case h_2 inspected hinspect =>
        split at h
        case h_1 => cases h
        case h_2 files hwrite =>
          cases h
          exact .inr ⟨bytes, inspected, files, rfl, hext, hinspect, hwrite, rfl⟩

/-- The cache with the extraction of an archive in it. -/
def installed (inspected : Inspected) (files : Files) (cache : Cache) : Cache :=
  if isRealDirectory cache inspected.directory then cache
  else
    sweepSuperseded inspected.id inspected.directory
      (cache.insert inspected.directory (.directory files))

lemma present_installed {digest : UInt64} (files : Files) (id : String)
    (hname : inspected.directory = extractionName inspected.id digest) :
    present id (installed inspected files cache) =
      if id = inspected.id then displace (present id cache) inspected.directory
      else present id cache := by
  rw [installed]
  cases hreal : isRealDirectory cache inspected.directory with
  | true =>
    rw [if_pos rfl]
    split
    case isTrue hid =>
      have hmem : inspected.directory ∈ present id cache :=
        ⟨by rw [hname, hid]; exact isExtractionDirectory_extractionName _ _, hreal⟩
      rw [displace, if_pos hmem]
    case isFalse => rfl
  | false =>
    rw [hname] at hreal ⊢
    rw [if_neg Bool.false_ne_true, present_extracted hreal]
    split
    case isTrue hid => rw [hid]
    case isFalse => rfl

variable {files : Files}

lemma isRealDirectory_of_get? (h : cache.get? name = some (.directory files)) :
    isRealDirectory cache name = true := by
  simp [isRealDirectory, h]

lemma get?_of_isRealDirectory (h : isRealDirectory cache name = true) :
    ∃ files, cache.get? name = some (.directory files) := by
  rw [isRealDirectory, Option.any_eq_true] at h
  obtain ⟨node, hget, hnode⟩ := h
  cases node with
  | directory files => exact ⟨files, hget⟩
  | other => cases hnode

lemma get?_installed {node : CacheNode}
    (h : (installed inspected files cache).get? name = some node) :
    cache.get? name = some node ∨ name = inspected.directory ∧ node = .directory files := by
  rw [installed] at h
  split at h
  · exact .inl h
  rw [get?_sweepSuperseded, Table.get?_insert] at h
  by_cases hname : name = inspected.directory
  · rw [if_neg (fun hboth => hboth.1 hname), if_pos hname] at h
    exact .inr ⟨hname, (Option.some_inj.mp h).symm⟩
  · split at h
    · cases h
    · exact .inl h

lemma loadArchive_eq {path : PackagePath}
    (hinspect : inspectArchive limits zip path.name bytes = .ok inspected)
    (hwrite : writeEntries limits inspected.plan = .ok files) :
    loadArchive limits zip path bytes cache =
      (.ok (inspected.package path), installed inspected files cache) := by
  rw [loadArchive, installed]
  simp only [hinspect, hwrite]
  split
  · rfl
  · rfl

namespace FileSystem.Complete

lemma installed (hcomplete : fs.Complete limits zip roots cache)
    (hdigest : fs.DigestInjective roots) (harchive : fs.HasArchive roots name bytes)
    (hinspect : inspectArchive limits zip name bytes = .ok inspected)
    (hwrite : writeEntries limits inspected.plan = .ok files) :
    fs.Complete limits zip roots (installed inspected files cache) := by
  intro name' bytes' harchive' inspected' hinspect' files' hget
  cases get?_installed hget with
  | inl hold => exact hcomplete name' bytes' harchive' inspected' hinspect' files' hold
  | inr hnew =>
    obtain ⟨hdir, hfiles⟩ := hnew
    cases hfiles
    -- One directory name is one digest, so the two archives are the same and plan the same files.
    obtain ⟨hname, members, hzip, hplan⟩ := inspectArchive_ok hinspect
    obtain ⟨hname', members', hzip', hplan'⟩ := inspectArchive_ok hinspect'
    have hsame := (extractionName_injective ((hname'.symm.trans hdir).trans hname)).2
    rw [hdigest name' bytes' name bytes harchive' harchive hsame, hzip] at hzip'
    cases hzip'
    rw [← Except.ok.inj (hplan.symm.trans hplan')]
    exact hwrite

lemma loadArchive_error {path : PackagePath} {error : PackageError}
    (hcomplete : fs.Complete limits zip roots cache)
    (harchive : fs.HasArchive roots path.name bytes)
    (hinspect : inspectArchive limits zip path.name bytes = .ok inspected)
    (hwrite : writeEntries limits inspected.plan = .error error) :
    loadArchive limits zip path bytes cache = (.error error, cache) := by
  rw [loadArchive, hinspect]
  cases hreal : isRealDirectory cache inspected.directory with
  | true =>
    obtain ⟨files, hget⟩ := get?_of_isRealDirectory hreal
    rw [hcomplete path.name bytes harchive inspected hinspect files hget] at hwrite
    cases hwrite
  | false => simp only [hreal, hwrite, Bool.false_eq_true, if_false]

end FileSystem.Complete

/-- What loading packages makes of a complete cache: it stays complete, and each archive displaces
the extractions of its id unless its own is there. -/
structure Settles (fs : FileSystem) (limits : PackageLimits) (zip : ZipReader) (roots : List String)
    (cache : Cache) (packages : List LegacyPackage) (after : Cache) : Prop where
  complete : fs.Complete limits zip roots after
  present : ∀ id, present id after =
    (packages.filterMap (·.extraction? id)).foldl displace (present id cache)

namespace Settles
variable {packages others : List LegacyPackage} {after last : Cache}

lemma of_none (hcomplete : fs.Complete limits zip roots cache)
    (h : ∀ id, packages.filterMap (·.extraction? id) = []) :
    Settles fs limits zip roots cache packages cache :=
  ⟨hcomplete, fun id => by rw [h, foldl_nil]⟩

lemma append (h : Settles fs limits zip roots cache packages after)
    (h' : Settles fs limits zip roots after others last) :
    Settles fs limits zip roots cache (packages ++ others) last := by
  refine ⟨h'.complete, fun id => ?_⟩
  rw [h'.present, h.present, filterMap_append, foldl_append]

end Settles

lemma load_settles (path : PackagePath) (hcomplete : fs.Complete limits zip roots cache)
    (hdigest : fs.DigestInjective roots) (hroot : path.root ∈ roots)
    (hmem : (path.name, node) ∈ fs.listing path.root) :
    (load limits zip path node cache).1.toOption = offered limits zip path node ∧
      Settles fs limits zip roots cache (offered limits zip path node).toList
        (load limits zip path node cache).2 := by
  cases node with
  | other => exact ⟨rfl, .of_none hcomplete fun id => rfl⟩
  | directory below =>
    refine ⟨rfl, .of_none hcomplete fun id => ?_⟩
    cases hoffered : offered limits zip path (.directory below) with
    | none => rfl
    | some package =>
      obtain ⟨_, _, hroot⟩ | ⟨_, _, _, hfile, _⟩ := offered_cases hoffered
      · exact filterMap_cons_none (by rw [LegacyPackage.extraction?, hroot])
      · cases hfile
  | file bytes =>
    rw [load, offered]
    cases hext : hasArchiveExtension path.name with
    | false => exact ⟨rfl, .of_none hcomplete fun id => rfl⟩
    | true =>
      have harchive : fs.HasArchive roots path.name bytes := ⟨hext, path.root, hroot, hmem⟩
      rw [if_pos rfl, if_pos rfl]
      cases hinspect : inspectArchive limits zip path.name bytes with
      | error e =>
        rw [loadArchive, hinspect]
        exact ⟨rfl, .of_none hcomplete fun id => rfl⟩
      | ok inspected =>
        cases hwrite : writeEntries limits inspected.plan with
        | error e =>
          rw [hcomplete.loadArchive_error harchive hinspect hwrite]
          simp only [hwrite]
          exact ⟨rfl, .of_none hcomplete fun id => rfl⟩
        | ok files =>
          rw [loadArchive_eq hinspect hwrite]
          simp only [hwrite]
          refine ⟨rfl, hcomplete.installed hdigest harchive hinspect hwrite, fun id => ?_⟩
          rw [present_installed files id (inspectArchive_ok hinspect).1, Option.toList_some,
            filterMap_cons, LegacyPackage.extraction?, Inspected.package]
          by_cases hid : inspected.id = id
          · simp [hid]
          · simp [hid, Ne.symm hid]

/-! ### All candidates -/

lemma loadAll_settles {entries : List (String × Node)}
    (hcomplete : fs.Complete limits zip roots cache) (hdigest : fs.DigestInjective roots)
    (hroot : root ∈ roots) (hmem : ∀ entry ∈ entries, entry ∈ fs.listing root) :
    (loadAll limits zip root entries cache).1 = loadable limits zip root entries ∧
      Settles fs limits zip roots cache (loadable limits zip root entries)
        (loadAll limits zip root entries cache).2 := by
  induction entries generalizing cache with
  | nil => exact ⟨rfl, .of_none hcomplete fun id => rfl⟩
  | cons entry rest ih =>
    obtain ⟨name, node⟩ := entry
    obtain ⟨hoffered, hfirst⟩ :=
      load_settles ⟨root, name⟩ hcomplete hdigest hroot (hmem _ mem_cons_self)
    obtain ⟨hloaded, hrest⟩ :=
      ih hfirst.complete fun entry hentry => hmem entry (mem_cons_of_mem _ hentry)
    have hcons : loadable limits zip root ((name, node) :: rest) =
        (offered limits zip ⟨root, name⟩ node).toList ++ loadable limits zip root rest := by
      rw [loadable, filterMap_cons]
      cases offered limits zip ⟨root, name⟩ node with
      | none | some package => rfl
    have hboth := hfirst.append hrest
    rw [hcons, loadAll]
    rw [← hoffered] at hboth ⊢
    cases hload : load limits zip ⟨root, name⟩ node cache with
    | mk result after =>
      rw [hload] at hloaded hboth
      cases result with
      | error e => exact ⟨hloaded, hboth⟩
      | ok package => exact ⟨congrArg (package :: ·) hloaded, hboth⟩

lemma claim_eq {found : Discovery} (h : ∀ id, id ∈ found.claimed ↔ id ∈ found.packages.map (·.id))
    (package : LegacyPackage) :
    (found.claim package).packages = claimFirst (·.id) found.packages package ∧
      ∀ id, id ∈ (found.claim package).claimed ↔
        id ∈ (found.claim package).packages.map (·.id) := by
  rw [claim, claimFirst]
  by_cases hid : package.id ∈ found.claimed
  · rw [if_pos hid, if_pos ((h package.id).mp hid)]
    exact ⟨rfl, h⟩
  · rw [if_neg hid, if_neg fun hmem => hid ((h package.id).mpr hmem)]
    refine ⟨rfl, fun id => ?_⟩
    rw [mem_cons, map_append, mem_append, h id, map_singleton, mem_singleton, or_comm]

/-- The first package of each id is kept, root by root. -/
structure Discovered (fs : FileSystem) (limits : PackageLimits) (zip : ZipReader)
    (roots done : List String) (found : Discovery) : Prop where
  packages : found.packages = keepFirst (·.id) (done.flatMap fun root =>
    (loadable limits zip root (fs.considered limits root)).insertionSort fun a b => a.id ≤ b.id)
  claimed : ∀ id, id ∈ found.claimed ↔ id ∈ found.packages.map (·.id)
  settles : Settles fs limits zip roots fs.cache (fs.offers limits zip done) found.cache

lemma foldl_claim (found : Discovery) (packages : List LegacyPackage)
    (h : ∀ id, id ∈ found.claimed ↔ id ∈ found.packages.map (·.id)) :
    (packages.foldl claim found).packages = packages.foldl (claimFirst (·.id)) found.packages ∧
      (∀ id, id ∈ (packages.foldl claim found).claimed ↔
        id ∈ (packages.foldl claim found).packages.map (·.id)) ∧
      (packages.foldl claim found).cache = found.cache := by
  induction packages generalizing found with
  | nil => exact ⟨rfl, h, rfl⟩
  | cons package rest ih =>
    obtain ⟨hfirst, hclaimed⟩ := claim_eq h package
    obtain ⟨hpackages, hafter, hcache⟩ := ih (found.claim package) hclaimed
    have hkept : (found.claim package).cache = found.cache := by
      rw [claim]
      split
      · rfl
      · rfl
    rw [foldl_cons, foldl_cons, ← hfirst]
    exact ⟨hpackages, hafter, hcache.trans hkept⟩

lemma Discovered.root {done : List String} {found : Discovery} {root : String}
    (h : Discovered fs limits zip roots done found) (hdigest : fs.DigestInjective roots)
    (hroot : root ∈ roots) : Discovered fs limits zip roots (done ++ [root])
      (discoverRoot limits zip fs.readDir found root) := by
  have hoffers : fs.offers limits zip (done ++ [root]) =
      fs.offers limits zip done ++ loadable limits zip root (fs.considered limits root) := by
    rw [offers, flatMap_append, flatMap_singleton, offers]
  rw [discoverRoot]
  cases hread : fs.readDir root with
  | none =>
    have hnone : fs.considered limits root = [] := by rw [considered, hread]
    refine ⟨?_, h.claimed, ?_⟩
    · rw [h.packages, flatMap_append, flatMap_singleton, hnone]
      exact congrArg _ (append_nil _).symm
    · rw [hoffers, hnone]
      exact (append_nil (fs.offers limits zip done)).symm ▸ h.settles
  | some entries =>
    have hsome : fs.considered limits root = candidates limits entries := by
      rw [considered, hread]
    obtain ⟨hloaded, hsettles⟩ :=
      loadAll_settles h.settles.complete hdigest hroot
        fun entry (hentry : entry ∈ fs.considered limits root) => mem_listing_of_considered hentry
    rw [hsome] at hloaded hsettles
    obtain ⟨hpackages, hclaimed, hcache⟩ :=
      foldl_claim { found with
        cache := (loadAll limits zip root (candidates limits entries) found.cache).2 }
        ((loadAll limits zip root (candidates limits entries) found.cache).1.insertionSort
          fun a b => a.id ≤ b.id) h.claimed
    refine ⟨?_, hclaimed, ?_⟩
    · refine hpackages.trans ?_
      rw [h.packages, flatMap_append, flatMap_singleton, hsome, hloaded, keepFirst,
        keepFirst, foldl_append]
    · rw [hoffers, hsome]
      exact hcache.symm ▸ h.settles.append hsettles

variable (hcomplete : fs.Complete limits zip roots fs.cache)
include hcomplete

lemma discover_discovered (hdigest : fs.DigestInjective roots) :
    Discovered fs limits zip roots roots
      (roots.foldl (discoverRoot limits zip fs.readDir) ⟨[], [], fs.cache⟩) := by
  have hrun : ∀ done : List String, (∀ root ∈ done, root ∈ roots) →
      Discovered fs limits zip roots done
        (done.foldl (discoverRoot limits zip fs.readDir) ⟨[], [], fs.cache⟩) := by
    intro done
    induction done using reverseRecOn with
    | nil => exact fun _ => ⟨rfl, fun id => Iff.rfl, .of_none hcomplete fun id => rfl⟩
    | append_singleton done root ih =>
      intro hmem
      rw [foldl_append]
      have hdone := ih fun r hr => hmem r (mem_append_left _ hr)
      exact hdone.root hdigest (hmem root (mem_append_right _ (mem_singleton_self root)))
  exact hrun roots fun _ => id

lemma mem_discover (hdigest : fs.DigestInjective roots) (package : LegacyPackage) :
    package ∈ (discover limits zip roots fs).1 ↔
      (fs.offers limits zip roots).find? (·.id = package.id) = some package := by
  rw [discover, (discover_discovered hcomplete hdigest).packages, mem_keepFirst,
    offers, find?_flatMap_insertionSort]

end CriKey.Packages
