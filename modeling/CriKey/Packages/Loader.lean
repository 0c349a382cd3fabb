import CriKey.Packages.Archive

/-! The package loader: packages are found in the roots, archives are extracted into the cache. -/
namespace CriKey.Packages
open CriKey.Base

inductive Found where
  | file (bytes : List UInt8)
  | directory
  | link
deriving DecidableEq, Repr

/-- An entry of a root, with links followed. A directory lists everything below it. -/
inductive Node where
  | directory (below : List (RelativePath × Found))
  | file (bytes : List UInt8)
  | other
deriving DecidableEq, Repr

inductive CacheNode where
  | directory (files : Files)
  | other
deriving DecidableEq, Repr

abbrev Cache := Table String CacheNode

/-- The roots a caller can name, none for one that cannot be read, and the cache root. The keys of
a directory are in the order it is read. -/
structure FileSystem where
  readDir : String → Option (Table String Node)
  cache : Cache

structure PackagePath where
  root : String
  name : String
deriving DecidableEq, Repr

inductive PackageRoot where
  | directory (path : PackagePath)
  | archive (path : PackagePath) (extracted : String)
deriving DecidableEq, Repr

structure LegacyPackage where
  id : String
  root : PackageRoot
  mainModule : String
  modules : List (String × RelativePath)
  resources : List RelativePath
deriving DecidableEq, Repr

/-! ### Loose packages -/

def regularFiles (below : List (RelativePath × Found)) : Files :=
  below.filterMap fun entry =>
    match entry.2 with
    | .file bytes => some (entry.1, bytes)
    | _ => none

variable (limits : PackageLimits)

def scanDirectory (below : List (RelativePath × Found)) : Except PackageError (List RelativePath) :=
  if below.length > limits.maxEntries then
    .error (.tooManyEntries (limits.maxEntries + 1) limits.maxEntries)
  else .ok ((regularFiles below).map Prod.fst)

def loadDirectory (path : PackagePath)
    (below : List (RelativePath × Found)) : Except PackageError LegacyPackage :=
  match packageIdOf path.name false with
  | none => .error .notAPackage
  | some id => do
    let files ← scanDirectory limits below
    let contents ← packageContents id files
    return ⟨id, .directory path, contents.mainModule, contents.modules, contents.resources⟩

/-! ### Archives -/

def isRealDirectory (cache : Cache) (name : String) : Bool :=
  (cache.get? name).any fun
    | .directory _ => true
    | .other => false

/-- Extractions of earlier revisions of the same package are dropped. -/
def sweepSuperseded (id keep : String) (cache : Cache) : Cache :=
  cache.keys.foldl (fun cache name =>
    if name = keep || !isExtractionDirectory name id then cache else cache.erase name) cache

def Inspected.package (inspected : Inspected) (path : PackagePath) : LegacyPackage :=
  ⟨inspected.id, .archive path inspected.directory, inspected.contents.mainModule,
    inspected.contents.modules, inspected.contents.resources⟩

variable (zip : ZipReader)

/-- A directory that is there is reused whole. The entries of any other archive are staged and
moved into place at once, or not at all. -/
def loadArchive (path : PackagePath)
    (bytes : List UInt8) (cache : Cache) : Except PackageError LegacyPackage × Cache :=
  match inspectArchive limits zip path.name bytes with
  | .error error => (.error error, cache)
  | .ok inspected =>
    if isRealDirectory cache inspected.directory then (.ok (inspected.package path), cache)
    else
      match writeEntries limits inspected.plan with
      | .error error => (.error error, cache)
      | .ok files =>
        (.ok (inspected.package path), sweepSuperseded inspected.id inspected.directory
            (cache.insert inspected.directory (.directory files)))

def load (path : PackagePath) (node : Node)
    (cache : Cache) : Except PackageError LegacyPackage × Cache :=
  match node with
  | .file bytes =>
    if hasArchiveExtension path.name then loadArchive limits zip path bytes cache
    else (.error .notAPackage, cache)
  | .directory below => (loadDirectory limits path below, cache)
  | .other => (.error .notAPackage, cache)

/-! ### Discovery -/

def isCandidate (entry : String × Node) : Bool :=
  match entry.2 with
  | .directory _ => true
  | .file _ => hasArchiveExtension entry.1
  | .other => false

/-- The entries of a root that discovery looks at, in the order it loads them. -/
def candidates (entries : Table String Node) : List (String × Node) :=
  ((entries.entries.filter isCandidate).take limits.maxPackagesPerRoot).insertionSort
    fun a b => a.1 ≤ b.1

/-- The candidates of one root are loaded one after the other; a refusal costs nothing else. -/
def loadAll (limits : PackageLimits) (zip : ZipReader) (root : String) :
    List (String × Node) → Cache → List LegacyPackage × Cache
  | [], cache => ([], cache)
  | (name, node) :: rest, cache =>
    let (result, cache) := load limits zip ⟨root, name⟩ node cache
    let (loaded, cache) := loadAll limits zip root rest cache
    match result with
    | .ok package => (package :: loaded, cache)
    | .error _ => (loaded, cache)

structure Discovery where
  packages : List LegacyPackage
  claimed : List String
  cache : Cache

/-- The first package wins a duplicated id. -/
def Discovery.claim (found : Discovery) (package : LegacyPackage) : Discovery :=
  if package.id ∈ found.claimed then found
  else
    { found with
      packages := found.packages ++ [package]
      claimed := package.id :: found.claimed }

def discoverRoot
    (readDir : String → Option (Table String Node)) (found : Discovery) (root : String) :
    Discovery :=
  match readDir root with
  | none => found
  | some entries =>
    let (loaded, cache) := loadAll limits zip root (candidates limits entries) found.cache
    (loaded.insertionSort fun a b => a.id ≤ b.id).foldl Discovery.claim { found with cache }

def discover (roots : List String) (fs : FileSystem) : List LegacyPackage × FileSystem :=
  let found := roots.foldl (discoverRoot limits zip fs.readDir) ⟨[], [], fs.cache⟩
  (found.packages, { fs with cache := found.cache })

/-! ### Contents -/

def FileSystem.node? (fs : FileSystem) (path : PackagePath) : Option Node :=
  (fs.readDir path.root).bind (·.get? path.name)

/-- The files under the content root of a package. -/
def FileSystem.contentFiles (fs : FileSystem) : PackageRoot → Option Files
  | .directory path =>
    match fs.node? path with
    | some (.directory below) => some (regularFiles below)
    | _ => none
  | .archive _ extracted =>
    match fs.cache.get? extracted with
    | some (.directory files) => some files
    | _ => none

def unpacked (bytes : List UInt8) : Option Files :=
  (do writeEntries limits (← planArchive limits (← zip bytes)) : Except PackageError Files).toOption

/-- The files of the directory or archive a package was loaded from. -/
def FileSystem.sourceFiles (fs : FileSystem) (limits : PackageLimits) (zip : ZipReader) :
    PackageRoot → Option Files
  | .directory path =>
    match fs.node? path with
    | some (.directory below) => some (regularFiles below)
    | _ => none
  | .archive path _ =>
    match fs.node? path with
    | some (.file bytes) => unpacked limits zip bytes
    | _ => none

end CriKey.Packages
