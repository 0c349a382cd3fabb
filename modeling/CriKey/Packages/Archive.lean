import CriKey.Base.SortedMap
import CriKey.Base.Word
import CriKey.Core.Text

/-! Legacy packages: what a directory or an archive must hold to be one, and what an archive
unpacks to. Nothing here touches the cache. -/
namespace CriKey.Packages
open CriKey.Base CriKey.Core

structure PackageLimits where
  maxEntryBytes : Nat
  maxTotalBytes : Nat
  maxEntries : Nat
  maxPackagesPerRoot : Nat
deriving DecidableEq, Repr

def PackageLimits.default : PackageLimits := ⟨32 * 1024 * 1024, 256 * 1024 * 1024, 4096, 1024⟩

/-- A package-relative path, component by component. -/
abbrev RelativePath := List String

abbrev Files := List (RelativePath × List UInt8)

/-- Why a package could not be loaded. Every refusal also names the path it was asked for. -/
inductive PackageError where
  | notAPackage
  | noPluginModule (package : String)
  | malformedArchive (detail : String)
  | emptyArchive
  | symlinkEntry (entry : String)
  | duplicateEntryName (entry : RelativePath)
  | unsafeEntryPath (entry : String)
  | nonUtf8EntryName (rawName : List UInt8)
  | entryTooLarge (entry : String) (size limit : Nat)
  | packageTooLarge (size limit : Nat)
  | tooManyEntries (count limit : Nat)
  | io (path : RelativePath)
deriving DecidableEq, Repr

/-! ### Names -/

/-- The part after the last dot, unless nothing stands before it. -/
def extension (name : List Char) : Option (List Char) :=
  match name.reverse.dropWhile (· ≠ '.') with
  | [] => none
  | _ :: before => if before = [] then none else some (name.reverse.takeWhile (· ≠ '.')).reverse

def packageArchiveExtension : List Char := "keypirinha-package".toList

variable (name : String)

def hasArchiveExtension : Bool :=
  (extension name.toList).any (eqIgnoreAsciiCase · packageArchiveExtension)

/-- Directory names are preserved verbatim; only an archive's own suffix is removed. -/
def packageIdOf (archive : Bool) : Option String :=
  let id :=
    if archive && hasArchiveExtension name then
      name.toList.take (name.toList.length - (packageArchiveExtension.length + 1))
    else name.toList
  if id = [] then none else some (String.ofList id)

/-- A path component that aliases a reserved DOS device. -/
def isWindowsDeviceName (part : List Char) : Bool :=
  let stem := part.takeWhile (· ≠ '.')
  eqIgnoreAsciiCase stem "CON".toList || eqIgnoreAsciiCase stem "PRN".toList ||
    eqIgnoreAsciiCase stem "AUX".toList || eqIgnoreAsciiCase stem "NUL".toList ||
    (stem.length = 4 && (eqIgnoreAsciiCase (stem.take 3) "COM".toList ||
        eqIgnoreAsciiCase (stem.take 3) "LPT".toList) &&
      (stem.drop 3).all fun c => c.isDigit && c ≠ '0')

/-- One component of an entry name: noise, a name, or a refusal. -/
def safeComponent (part : List Char) : Option (Option String) :=
  if part = [] || part = ['.'] then some none
  else if part = ['.', '.'] || ':' ∈ part then none
  else if part.getLast? = some '.' || part.getLast? = some ' ' || isWindowsDeviceName part then none
  else some (some (String.ofList part))

/-- The path an entry may be written to. -/
def safeRelativePath : Option RelativePath :=
  let chars := name.toList
  if chars = [] || '\x00' ∈ chars then none
  else if chars.head? = some '/' || '\\' ∈ chars then none
  else do
    let parts ← (chars.splitOn '/').mapM safeComponent
    let relative := parts.filterMap id
    if relative = [] then none else some relative

def isDirectoryEntry : Bool := name.toList.getLast? = some '/'

/-! ### Modules and resources -/

def packageInitFile : String := "__init__.py"

def isPackageInit (relative : RelativePath) : Bool := relative.getLast? = some packageInitFile

def isTopLevel (importName : String) : Bool := '.' ∉ importName.toList

/-- The dotted import name of a `.py` path. -/
def importName (relative : RelativePath) : Option String := do
  let file ← relative.getLast?
  let stem := file.toList.take (file.toList.length - 3)
  if stem = [] then none
  else
    let stem := String.ofList stem
    let name := ".".intercalate
      (relative.dropLast ++ if stem = "__init__" then [] else [stem])
    if name = "" then none else some name

/-- A package before a module of the same name, otherwise the first. -/
def claimModule (relative : RelativePath)
    (modules : List (String × RelativePath)) : List (String × RelativePath) :=
  match modules.lookup name with
  | none => insertEntry name relative modules
  | some known =>
    if isPackageInit relative && !isPackageInit known then insertEntry name relative modules
    else modules

structure Classified where
  modules : List (String × RelativePath)
  resources : List (RelativePath × Unit)
deriving DecidableEq, Repr

def classifyFile (found : Classified) (relative : RelativePath) : Classified :=
  if (relative.getLast?.bind fun file => extension file.toList) = some "py".toList then
    match importName relative with
    | none => found
    | some name => { found with modules := claimModule name relative found.modules }
  else { found with resources := insertEntry relative () found.resources }

def classify (files : List RelativePath) : Classified := files.foldl classifyFile ⟨[], []⟩

structure PackageContents where
  mainModule : String
  modules : List (String × RelativePath)
  resources : List RelativePath
deriving DecidableEq, Repr

def packageContents (id : String) (files : List RelativePath) :
    Except PackageError PackageContents :=
  let found := classify files
  let names := found.modules.map Prod.fst
  match (names.find? fun name => isTopLevel name && name = id).or (names.find? isTopLevel) with
  | none => .error (.noPluginModule id)
  | some mainModule => .ok ⟨mainModule, found.modules, found.resources.map Prod.fst⟩

/-! ### Archives -/

/-- One member as the ZIP reader presents it. `name` holds the raw bytes when they are not UTF-8;
`chunks` are the reads of its body, ended by a `failure` or the end of the stream. -/
structure ZipEntry where
  name : Except (List UInt8) String
  symlink : Bool
  size : Nat
  unreadable : Option String
  chunks : List (List UInt8)
  failure : Option String
deriving DecidableEq

/-- What the preflight and the ZIP reader make of the bytes of an archive. -/
abbrev ZipReader := List UInt8 → Except PackageError (List (Except String ZipEntry))

structure PlannedEntry where
  relative : RelativePath
  declaredSize : Nat
  entry : ZipEntry
deriving DecidableEq

structure Plan where
  planned : List PlannedEntry := []
  seenPaths : List RelativePath := []
  total : Nat := 0

variable (limits : PackageLimits)

/-- Validation of one member of the central directory. -/
def planEntry (plan : Plan) (member : Except String ZipEntry) : Except PackageError Plan :=
  match member with
  | .error detail => .error (.malformedArchive detail)
  | .ok entry =>
    match entry.name with
    | .error rawName => .error (.nonUtf8EntryName rawName)
    | .ok name =>
      match safeRelativePath name with
      | none => .error (.unsafeEntryPath name)
      | some relative =>
        if relative ∈ plan.seenPaths then .error (.duplicateEntryName relative)
        else if entry.symlink then .error (.symlinkEntry name)
        else
          let plan := { plan with seenPaths := relative :: plan.seenPaths }
          if isDirectoryEntry name then .ok plan
          else if entry.size > limits.maxEntryBytes then
            .error (.entryTooLarge name entry.size limits.maxEntryBytes)
          else
            let total := satAdd plan.total entry.size
            if total > limits.maxTotalBytes then
              .error (.packageTooLarge total limits.maxTotalBytes)
            else
              .ok { plan with planned := plan.planned ++ [⟨relative, entry.size, entry⟩], total }

def planArchive (members : List (Except String ZipEntry)) :
    Except PackageError (List PlannedEntry) :=
  (members.foldlM (planEntry limits) {}).map (·.planned)

inductive CopyFailure where
  | read (error : String)
  | oversized (size : Nat)

/-- The bound is checked before each chunk is written. -/
def copyBounded (allowed : Nat) (failure : Option String) :
    Nat → List (List UInt8) → Except CopyFailure (List UInt8)
  | _, [] =>
    match failure with
    | some error => .error (.read error)
    | none => .ok []
  | written, chunk :: chunks =>
    if chunk = [] then .ok []
    else
      let next := satAdd written chunk.length
      if next > allowed then .error (.oversized next)
      else (copyBounded allowed failure next chunks).map (chunk ++ ·)

/-- One planned entry is written below the staging directory. A file in the way of a directory,
or a directory in the way of a file, is a refusal of the file system. -/
def writeEntry (staged : Files × Nat) (planned : PlannedEntry) :
    Except PackageError (Files × Nat) :=
  let (files, total) := staged
  match planned.entry.unreadable with
  | some detail => .error (.malformedArchive detail)
  | none =>
    if files.any fun file => file.1.isPrefixOf planned.relative.dropLast then
      .error (.io planned.relative.dropLast)
    else if files.any fun file => planned.relative.isPrefixOf file.1 then
      .error (.io planned.relative)
    else
      match copyBounded planned.declaredSize planned.entry.failure 0 planned.entry.chunks with
      | .error (.read error) =>
        .error (.malformedArchive
          ("entry `" ++ "/".intercalate planned.relative ++
            "` could not be decompressed: " ++ error))
      | .error (.oversized size) =>
        .error (.entryTooLarge ("/".intercalate planned.relative) size planned.declaredSize)
      | .ok body =>
        let total := satAdd total body.length
        if total > limits.maxTotalBytes then .error (.packageTooLarge total limits.maxTotalBytes)
        else .ok (files ++ [(planned.relative, body)], total)

def writeEntries (plan : List PlannedEntry) : Except PackageError Files :=
  (plan.foldlM (writeEntry limits) ([], 0)).map Prod.fst

/-! ### Content addressing -/

/-- FNV-1a over the archive's bytes, mixed with its length. -/
def contentDigest (bytes : List UInt8) : UInt64 :=
  let digest := bytes.foldl (fun digest byte => (digest ^^^ byte.toUInt64) * 0x100000001b3)
    0xcbf29ce484222325
  (digest ^^^ UInt64.ofNat bytes.length) * 0x100000001b3

def digestHexWidth : Nat := 16

def hexDigit (n : Nat) : Char := if n < 10 then Char.ofNat (48 + n) else Char.ofNat (87 + n)

/-- The lowest `width` hexadecimal digits, most significant first. -/
def hexDigits : Nat → Nat → List Char
  | 0, _ => []
  | width + 1, n => hexDigits width (n / 16) ++ [hexDigit (n % 16)]

def extractionName (id : String) (digest : UInt64) : String :=
  String.ofList (id.toList ++ '-' :: hexDigits digestHexWidth digest.toNat)

def isAsciiHexdigit (c : Char) : Bool :=
  c.isDigit || ('a' ≤ c && c ≤ 'f') || ('A' ≤ c && c ≤ 'F')

/-- The digest is fixed width, which keeps a sweep from mistaking the package `foo-bar` for a
stale extraction of the package `foo`. -/
def isExtractionDirectory (name id : String) : Bool :=
  (id.toList ++ ['-']).isPrefixOf name.toList &&
    (let digest := name.toList.drop (id.toList.length + 1)
     digest.length = digestHexWidth && digest.all isAsciiHexdigit)

/-- What is known of an archive before the cache is looked at. -/
structure Inspected where
  id : String
  plan : List PlannedEntry
  contents : PackageContents
  directory : String

def inspectArchive (zip : ZipReader) (name : String)
    (bytes : List UInt8) : Except PackageError Inspected :=
  match packageIdOf name true with
  | none => .error .notAPackage
  | some id => do
    let members ← zip bytes
    if members.length > limits.maxEntries then
      throw (.tooManyEntries members.length limits.maxEntries)
    if members = [] then throw .emptyArchive
    let plan ← planArchive limits members
    let contents ← packageContents id (plan.map (·.relative))
    return ⟨id, plan, contents, extractionName id (contentDigest bytes)⟩

end CriKey.Packages
