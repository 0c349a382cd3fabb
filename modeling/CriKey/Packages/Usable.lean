import CriKey.Packages.Discovery

/-! Discovered packages are usable: their files are still there once discovery is done, and each
comes from the first root that has it. -/
namespace CriKey.Packages
open CriKey.Base FileSystem List LegacyPackage Table

variable {limits : PackageLimits} {zip : ZipReader} {fs : FileSystem} {roots : List String}
  {cache : Cache}

/-! ### Where a package comes from -/

def PackageRoot.source : PackageRoot → PackagePath
  | .directory path => path
  | .archive path _ => path

variable {package : LegacyPackage}

lemma source_of_offered {path : PackagePath} {node : Node}
    (h : offered limits zip path node = some package) : package.root.source = path := by
  cases offered_cases h with
  | inl hdir =>
    obtain ⟨below, -, hroot⟩ := hdir
    rw [hroot]
    rfl
  | inr harchive =>
    obtain ⟨bytes, inspected, files, -, -, -, -, hpackage⟩ := harchive
    rw [hpackage]
    rfl

lemma root_of_loadable {root : String} {entries : List (String × Node)}
    (h : package ∈ loadable limits zip root entries) : package.root.source.root = root := by
  obtain ⟨entry, -, hoffered⟩ := mem_filterMap.mp h
  rw [source_of_offered hoffered]

lemma mem_packagesOf_of_considered {root : String}
    (h : package ∈ loadable limits zip root (fs.considered limits root)) :
    package ∈ fs.packagesOf limits zip root := by
  obtain ⟨entry, hentry, hoffered⟩ := mem_filterMap.mp h
  exact mem_filterMap.mpr ⟨entry, mem_listing_of_considered hentry, hoffered⟩

lemma mem_offers : package ∈ fs.offers limits zip roots ↔
    ∃ root ∈ roots, package ∈ loadable limits zip root (fs.considered limits root) :=
  mem_flatMap

lemma find?_offers_isSome {id : String} (h : id ∈ (fs.offers limits zip roots).map (·.id)) :
    ∃ package : LegacyPackage, package.id = id ∧
      (fs.offers limits zip roots).find? (·.id = package.id) = some package := by
  cases hfind : (fs.offers limits zip roots).find? (·.id = id) with
  | none =>
    obtain ⟨package, hmem, hid⟩ := mem_map.mp h
    have := find?_eq_none.mp hfind package hmem
    simp [hid] at this
  | some package =>
    have hid : package.id = id := by simpa using find?_some hfind
    exact ⟨package, hid, hid ▸ hfind⟩

/-! ### Usable packages -/

/-- The packages that discovery returned can be used: their files are there, no id is returned
twice, and an id comes from the first root with a loadable package of it. -/
structure Usable (limits : PackageLimits) (zip : ZipReader) (roots : List String)
    (packages : List LegacyPackage) (after : FileSystem) : Prop where
  intact : ∀ package ∈ packages, ∃ files, after.contentFiles package.root = some files ∧
    after.sourceFiles limits zip package.root = some files
  distinct : (packages.map (·.id)).Nodup
  first : ∀ package ∈ packages, ∃ before root rest, roots = before ++ root :: rest ∧
    package ∈ after.packagesOf limits zip root ∧
      ∀ earlier ∈ before, package.id ∉ (after.packagesOf limits zip earlier).map (·.id)

/-- Where the winner of an id is an archive, every archive with that id is extracted already, or
the last one to be loaded is extracted under the winner's name. -/
def Undisturbed (limits : PackageLimits) (zip : ZipReader) (roots : List String)
    (fs : FileSystem) : Prop :=
  ∀ package path extracted, (fs.offers limits zip roots).find? (·.id = package.id) = some package →
      package.root = .archive path extracted →
        (∀ name ∈ (fs.offers limits zip roots).filterMap (·.extraction? package.id),
            isRealDirectory fs.cache name = true) ∨
          ((fs.offers limits zip roots).filterMap (·.extraction? package.id)).getLast? =
            some extracted

/-- A package past the limit on candidates is not supplied by a later root. -/
def NonePastLimit (limits : PackageLimits) (zip : ZipReader) (roots : List String)
    (fs : FileSystem) : Prop :=
  ∀ before root rest, roots = before ++ root :: rest →
    ∀ id ∈ (fs.packagesOf limits zip root).map (·.id),
      id ∉ (fs.offers limits zip (before ++ [root])).map (·.id) →
        id ∉ (fs.offers limits zip rest).map (·.id)

lemma offers_append (before after : List String) : fs.offers limits zip (before ++ after) =
      fs.offers limits zip before ++ fs.offers limits zip after := by
  rw [offers, flatMap_append]
  rfl

lemma offers_split (h : (fs.offers limits zip roots).find? (·.id = package.id) = some package) :
    ∃ before root rest, roots = before ++ root :: rest ∧
      package ∈ loadable limits zip root (fs.considered limits root) ∧
        package.id ∉ (fs.offers limits zip before).map (·.id) := by
  induction roots with
  | nil => cases h
  | cons root rest ih =>
    rw [show root :: rest = [root] ++ rest from rfl, offers_append, find?_append] at h
    cases hfind : (fs.offers limits zip [root]).find? (·.id = package.id) with
    | some winner =>
      rw [hfind] at h
      cases h
      obtain ⟨root', hroot', hmem⟩ := mem_offers.mp (mem_of_find?_eq_some hfind)
      rw [mem_singleton.mp hroot'] at hmem
      exact ⟨[], root, rest, rfl, hmem, by simp [offers]⟩
    | none =>
      rw [hfind] at h
      obtain ⟨before, root', rest', hsplit, hmem, hnot⟩ := ih h
      refine ⟨root :: before, root', rest', by rw [hsplit]; rfl, hmem, fun hin => ?_⟩
      rw [show root :: before = [root] ++ before from rfl, offers_append, map_append,
        mem_append] at hin
      cases hin with
      | inr hlater => exact hnot hlater
      | inl hhere =>
        obtain ⟨other, hother, hid⟩ := mem_map.mp hhere
        have := find?_eq_none.mp hfind other hother
        simp [hid] at this

variable (fs) in
lemma first_iff_nonePastLimit (after : FileSystem) (hread : after.readDir = fs.readDir)
    {packages : List LegacyPackage} (hpackages : ∀ package, package ∈ packages ↔
      (fs.offers limits zip roots).find? (·.id = package.id) = some package) :
    (∀ package ∈ packages, ∃ before root rest, roots = before ++ root :: rest ∧
      package ∈ after.packagesOf limits zip root ∧
        ∀ earlier ∈ before, package.id ∉ (after.packagesOf limits zip earlier).map (·.id)) ↔
      NonePastLimit limits zip roots fs := by
  have hsame : ∀ root, after.packagesOf limits zip root = fs.packagesOf limits zip root := by
    intro root
    rw [packagesOf, packagesOf, listing, listing, hread]
  simp only [hsame]
  constructor
  · intro hfirst before root rest hroots id hid hbefore hrest
    -- The winner of the id is offered by a root after this one, so this one is an earlier root.
    have hsome : id ∈ (fs.offers limits zip roots).map (·.id) := by
      rw [hroots, ← singleton_append, offers_append, offers_append, map_append, map_append]
      exact mem_append_right _ (mem_append_right _ hrest)
    obtain ⟨package, hpid, hfind⟩ := find?_offers_isSome hsome
    obtain ⟨before', root', rest', hroots', hmem', hearlier⟩ :=
      hfirst package ((hpackages package).mpr hfind)
    obtain ⟨root'', hroot'', hmem''⟩ := mem_offers.mp (mem_of_find?_eq_some hfind)
    have heq : root' = root'' := (root_of_loadable hmem').symm.trans (root_of_loadable hmem'')
    have hnot : root' ∉ before ++ [root] := by
      intro hin
      rw [heq] at hin
      exact hbefore (mem_map.mpr ⟨package, mem_offers.mpr ⟨root'', hin, hmem''⟩, hpid⟩)
    have hin : root ∈ before' := by
      rw [hroots, append_cons] at hroots'
      cases append_eq_append_iff.mp hroots' with
      | inl hlong =>
        obtain ⟨mid, hbefore', -⟩ := hlong
        rw [hbefore']
        simp
      | inr hshort =>
        obtain ⟨mid, hbefore', hrest'⟩ := hshort
        cases mid with
        | nil =>
          rw [append_nil] at hbefore'
          rw [← hbefore']
          simp
        | cons head tail =>
          cases hrest'
          exact absurd (hbefore' ▸ by simp) hnot
    exact hearlier root hin (hpid ▸ hid)
  · intro hnone package hpackage
    have hfind := (hpackages package).mp hpackage
    obtain ⟨before, root, rest, hroots, hmem, hbefore⟩ := offers_split hfind
    refine ⟨before, root, rest, hroots, mem_packagesOf_of_considered hmem, ?_⟩
    intro earlier hearlier hid
    obtain ⟨before₁, before₂, hsplit⟩ := append_of_mem hearlier
    refine hnone before₁ earlier (before₂ ++ root :: rest) (by rw [hroots, hsplit]; simp)
      package.id hid ?_ ?_
    · rw [hsplit, append_cons, offers_append, map_append] at hbefore
      exact fun hin => hbefore (mem_append_left _ hin)
    · exact mem_map.mpr ⟨package, mem_offers.mpr ⟨root, by simp, hmem⟩, rfl⟩

variable {name : String}

lemma isExtractionDirectory_of_extraction? {id : String}
    (hmem : package ∈ fs.offers limits zip roots) (h : package.extraction? id = some name) :
    isExtractionDirectory name id = true := by
  obtain ⟨root, -, hloadable⟩ := mem_offers.mp hmem
  obtain ⟨entry, -, hoffered⟩ := mem_filterMap.mp hloadable
  cases offered_cases hoffered with
  | inl hdir =>
    obtain ⟨below, -, hroot⟩ := hdir
    rw [extraction?, hroot] at h
    cases h
  | inr harchive =>
    obtain ⟨bytes, inspected, files, -, -, hinspect, -, hpackage⟩ := harchive
    rw [hpackage, extraction?, Inspected.package] at h
    dsimp only at h
    split at h
    case isTrue hid =>
      cases h
      rw [(inspectArchive_ok hinspect).1, hid]
      exact isExtractionDirectory_extractionName _ _
    case isFalse => cases h

lemma intact_iff {after : Cache}
    (hsettles : Settles fs limits zip roots fs.cache (fs.offers limits zip roots) after)
    (hmem : package ∈ fs.offers limits zip roots) :
    (∃ files, FileSystem.contentFiles { fs with cache := after } package.root = some files ∧
      FileSystem.sourceFiles { fs with cache := after } limits zip package.root = some files) ↔
      ∀ path extracted, package.root = .archive path extracted →
        (∀ name ∈ (fs.offers limits zip roots).filterMap (·.extraction? package.id),
            isRealDirectory fs.cache name = true) ∨
          ((fs.offers limits zip roots).filterMap (·.extraction? package.id)).getLast? =
            some extracted := by
  obtain ⟨root, hroot, hloadable⟩ := mem_offers.mp hmem
  obtain ⟨⟨name, node⟩, hentry, hoffered⟩ := mem_filterMap.mp hloadable
  dsimp only at hoffered
  have hlisted := mem_listing_of_considered hentry
  have hnode : node? { fs with cache := after } ⟨root, name⟩ = some node :=
    node?_of_mem_listing hlisted
  cases offered_cases hoffered with
  | inl hdir =>
    obtain ⟨below, hbelow, hpackage⟩ := hdir
    rw [hpackage, contentFiles, sourceFiles, hnode, hbelow]
    exact iff_of_true ⟨_, rfl, rfl⟩ nofun
  | inr harchive =>
    obtain ⟨bytes, inspected, files, hfile, hext, hinspect, hwrite, hpackage⟩ := harchive
    have hown : package.extraction? package.id = some inspected.directory := by
      rw [hpackage, extraction?, Inspected.package]
      simp
    have hroot' : package.root = .archive ⟨root, name⟩ inspected.directory := by rw [hpackage]; rfl
    have hsource : sourceFiles { fs with cache := after } limits zip package.root = some files := by
      rw [hroot', sourceFiles, hnode, hfile]
      simp only [unpacked_of_inspected hinspect, hwrite]
      rfl
    have hcontent : (∃ files, contentFiles { fs with cache := after } package.root =
        some files ∧ sourceFiles { fs with cache := after } limits zip package.root =
          some files) ↔ isRealDirectory after inspected.directory = true := by
      rw [hsource, hroot', contentFiles]
      constructor
      · rintro ⟨held, hheld, -⟩
        split at hheld
        case h_1 hget => exact isRealDirectory_of_get? hget
        case h_2 => cases hheld
      · intro hreal
        obtain ⟨held, hget⟩ := get?_of_isRealDirectory hreal
        have hcomplete := hsettles.complete name bytes ⟨hext, root, hroot, hfile ▸ hlisted⟩
          inspected hinspect held hget
        rw [hwrite] at hcomplete
        cases hcomplete
        exact ⟨files, by simp only [hget], rfl⟩
    have hid : isExtractionDirectory inspected.directory package.id = true :=
      isExtractionDirectory_of_extraction? hmem hown
    have hpresent : isRealDirectory after inspected.directory = true ↔
        inspected.directory ∈ present package.id after := (and_iff_right hid).symm
    have hlisted : inspected.directory ∈
        (fs.offers limits zip roots).filterMap (·.extraction? package.id) :=
      mem_filterMap.mpr ⟨package, hmem, hown⟩
    have hreal : ∀ name ∈ (fs.offers limits zip roots).filterMap (·.extraction? package.id),
        name ∈ present package.id fs.cache ↔ isRealDirectory fs.cache name = true := by
      intro name hname
      obtain ⟨other, hother, hextraction⟩ := mem_filterMap.mp hname
      exact and_iff_right (isExtractionDirectory_of_extraction? hother hextraction)
    rw [hcontent, hpresent, hsettles.present, mem_foldl_displace hlisted, forall₂_congr hreal]
    constructor
    · intro h path extracted harchive
      rw [hroot'] at harchive
      cases harchive
      exact h
    · intro h
      exact h _ _ hroot'

/-- Packages that discovery returns are usable exactly when no shadowed archive displaced the
extraction of the one that shadows it, and none was passed over for the limit on candidates. -/
theorem discover_usable_iff (limits : PackageLimits) (zip : ZipReader) (roots : List String)
    (fs : FileSystem) (hcomplete : fs.Complete limits zip roots fs.cache)
    (hdigest : fs.DigestInjective roots) :
    Usable limits zip roots (discover limits zip roots fs).1 (discover limits zip roots fs).2 ↔
      Undisturbed limits zip roots fs ∧ NonePastLimit limits zip roots fs := by
  have hfound := discover_discovered hcomplete hdigest
  have hmem := mem_discover hcomplete hdigest
  have hfirst := first_iff_nonePastLimit fs (discover limits zip roots fs).2 rfl hmem
  have hintact : (∀ package ∈ (discover limits zip roots fs).1,
      ∃ files, (discover limits zip roots fs).2.contentFiles package.root = some files ∧
        (discover limits zip roots fs).2.sourceFiles limits zip package.root = some files) ↔
      Undisturbed limits zip roots fs := by
    constructor
    · intro h package path extracted hfind
      exact (intact_iff hfound.settles (mem_of_find?_eq_some hfind)).mp
        (h package ((hmem package).mpr hfind)) path extracted
    · intro h package hpackage
      have hfind := (hmem package).mp hpackage
      exact (intact_iff hfound.settles (mem_of_find?_eq_some hfind)).mpr
        fun path extracted => h package path extracted hfind
  rw [← hintact, ← hfirst]
  constructor
  · intro h
    exact ⟨h.intact, h.first⟩
  · intro ⟨h, h'⟩
    refine ⟨h, ?_, h'⟩
    rw [discover, hfound.packages]
    exact nodup_keepFirst _

/-- A ZIP archive with the one stored member foo.py, from the checksum and the bytes of that. -/
def storedModule (crc text : List UInt8) : List UInt8 :=
  let size : List UInt8 := [text.length.toUInt8, 0, 0, 0]
  let header := [20, 0, 0, 0, 0, 0, 0, 0, 33, 0] ++ crc ++ size ++ size ++ [6, 0, 0, 0]
  let name := "foo.py".toUTF8.data.toList
  [80, 75, 3, 4] ++ header ++ name ++ text ++
    [80, 75, 1, 2, 20, 0] ++ header ++ List.replicate 14 0 ++ name ++
    [80, 75, 5, 6, 0, 0, 0, 0, 1, 0, 1, 0, 52, 0, 0, 0, 36 + text.length.toUInt8, 0, 0, 0, 0, 0]

def setOne : List UInt8 := [120, 61, 49]

def setTwo : List UInt8 := [120, 61, 50]

/-- Two revisions of a package: the archive, and the text of its module. -/
def revisions : List (List UInt8 × List UInt8) :=
  [(storedModule [126, 168, 149, 158] setOne, setOne),
    (storedModule [196, 249, 156, 7] setTwo, setTwo)]

/-- What the reader makes of them. -/
def revisionZip : ZipReader := fun bytes =>
  match revisions.lookup bytes with
  | some text => .ok [.ok ⟨.ok "foo.py", false, text.length, none, [text], none⟩]
  | none => .error (.malformedArchive "")

/-- The user's directory has the first revision and the system's the second. -/
def twoRevisions (cache : Cache) : FileSystem where
  readDir root :=
    (["user", "system"].zip revisions).lookup root |>.map fun revision =>
      empty.insert "foo.keypirinha-package" (.file revision.1)
  cache

def bothExtracted : Cache :=
  revisions.foldl (fun cache revision => cache.insert
    (extractionName "foo" (contentDigest revision.1)) (.directory [(["foo.py"], revision.2)])) empty

lemma hasArchive_twoRevisions {bytes : List UInt8}
    (h : (twoRevisions cache).HasArchive ["user", "system"] name bytes) :
    name = "foo.keypirinha-package" ∧ ∃ revision ∈ revisions, revision.1 = bytes := by
  obtain ⟨-, root, hroot, hmem⟩ := h
  have hlisting : ∀ root ∈ ["user", "system"], ∃ revision ∈ revisions,
      (twoRevisions empty).listing root = [("foo.keypirinha-package", .file revision.1)] := by
    decide +kernel
  obtain ⟨revision, hrevision, hentries⟩ := hlisting root hroot
  rw [show (twoRevisions cache).listing = (twoRevisions empty).listing from rfl, hentries,
    mem_singleton, Prod.mk.injEq, Node.file.injEq] at hmem
  exact ⟨hmem.1, revision, hrevision, hmem.2.symm⟩

lemma digestInjective_twoRevisions : (twoRevisions cache).DigestInjective ["user", "system"] := by
  intro name bytes name' bytes' h h' hdigest
  obtain ⟨-, revision, hrevision, rfl⟩ := hasArchive_twoRevisions h
  obtain ⟨-, revision', hrevision', rfl⟩ := hasArchive_twoRevisions h'
  have hall : ∀ r ∈ revisions, ∀ r' ∈ revisions,
      contentDigest r.1 = contentDigest r'.1 → r.1 = r'.1 := by decide +kernel
  exact hall _ hrevision _ hrevision' hdigest

lemma complete_empty : fs.Complete limits zip roots empty := by
  intro name bytes _ inspected _ files hget
  cases hget

lemma complete_bothExtracted : (twoRevisions bothExtracted).Complete .default revisionZip
    ["user", "system"] (twoRevisions bothExtracted).cache := by
  intro name bytes harchive inspected hinspect files hget
  obtain ⟨rfl, revision, hrevision, rfl⟩ := hasArchive_twoRevisions harchive
  have hall : ∀ r ∈ revisions,
      (inspectArchive .default revisionZip "foo.keypirinha-package" r.1).toOption.all
        fun inspected => (twoRevisions bothExtracted).cache.get? inspected.directory =
            some (.directory [(["foo.py"], r.2)]) ∧
          writeEntries .default inspected.plan = .ok [(["foo.py"], r.2)] := by decide +kernel
  have hrevision := hall revision hrevision
  rw [hinspect, Except.toOption, Option.all_some, decide_eq_true_iff] at hrevision
  obtain ⟨hdirectory, hwrite⟩ := hrevision
  rw [hdirectory] at hget
  cases hget
  exact hwrite

lemma undisturbed_bothExtracted : Undisturbed .default revisionZip ["user", "system"]
    (twoRevisions bothExtracted) := by
  intro package path extracted _ _
  refine .inl fun name hname => ?_
  obtain ⟨offer, hoffer, hextraction⟩ := mem_filterMap.mp hname
  have hall : ∀ offer ∈ (twoRevisions bothExtracted).offers .default revisionZip ["user", "system"],
      ∀ extracted ∈ offer.extraction? offer.id,
        isRealDirectory (twoRevisions bothExtracted).cache extracted = true := by
    decide +kernel
  rw [extraction?] at hextraction
  split at hextraction
  case h_1 => cases hextraction
  case h_2 path' extracted' hroot =>
    split at hextraction <;> cases hextraction
    exact hall offer hoffer name (by simp [extraction?, hroot])

lemma nonePastLimit_twoRevisions : NonePastLimit .default revisionZip ["user", "system"]
    (twoRevisions bothExtracted) := by
  intro before root rest hroots id hid hpast
  have hall : ∀ root ∈ ["user", "system"], (twoRevisions bothExtracted).considered .default root =
      (twoRevisions bothExtracted).listing root := by decide +kernel
  obtain ⟨package, hpackage, hname⟩ := mem_map.mp hid
  rw [packagesOf, ← hall root (by simp [hroots])] at hpackage
  exact absurd (mem_map.mpr ⟨package, mem_offers.mpr ⟨root, by simp, hpackage⟩, hname⟩) hpast

/-- Once both revisions are extracted, the second no longer displaces the first. -/
theorem discover_usable_user :
    (discover .default revisionZip ["user", "system"] (twoRevisions bothExtracted)).1.map
        (·.root.source.root) = ["user"] ∧
      Usable .default revisionZip ["user", "system"]
        (discover .default revisionZip ["user", "system"] (twoRevisions bothExtracted)).1
        (discover .default revisionZip ["user", "system"] (twoRevisions bothExtracted)).2 := by
  constructor
  · decide +kernel
  · exact (discover_usable_iff .default revisionZip ["user", "system"] (twoRevisions bothExtracted)
      complete_bothExtracted digestInjective_twoRevisions).mpr
        ⟨undisturbed_bothExtracted, nonePastLimit_twoRevisions⟩

/-- Both revisions are extracted, the second over the first, and the first is returned. -/
theorem shadowed_revision_displaces_winner :
    let fs := twoRevisions empty
    let found := discover .default revisionZip ["user", "system"] fs
    fs.Complete .default revisionZip ["user", "system"] fs.cache ∧
      fs.DigestInjective ["user", "system"] ∧ found.1.map (·.root.source.root) = ["user"] ∧
      (found.1.map fun package => found.2.contentFiles package.root) = [none] ∧
      ¬ Usable .default revisionZip ["user", "system"] found.1 found.2 := by
  intro fs found
  have hgone : (found.1.map fun package => found.2.contentFiles package.root) = [none] := by
    decide +kernel
  refine ⟨complete_empty, digestInjective_twoRevisions, by decide +kernel, hgone, fun h => ?_⟩
  obtain ⟨package, hmem, hnone⟩ := mem_map.mp (hgone.symm ▸ mem_singleton_self none)
  obtain ⟨files, hfiles, -⟩ := h.intact package hmem
  rw [hnone] at hfiles
  cases hfiles

end CriKey.Packages
