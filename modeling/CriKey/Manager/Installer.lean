import CriKey.Manager.Swap

/-! The plugin store: where a plugin of each kind is installed and where its previous version is
retained, how an artifact carries its id, and installing and rolling back. A legacy package has two
forms on disk, a directory and an archive, under two names. -/
namespace CriKey.Manager
open CriKey.Base

inductive PluginKind where
  | legacy
  | modern
  | native
deriving DecidableEq, Repr

def PluginKind.all : List PluginKind := [legacy, modern, native]

def PluginKind.directoryName : PluginKind → String
  | legacy => "legacy"
  | modern => "modern"
  | native => "native"

def pluginDir (data : FilePath) (kind : PluginKind) : FilePath :=
  data ++ ["plugins", kind.directoryName]

def previousRoot (data : FilePath) (kind : PluginKind) : FilePath :=
  data ++ ["plugins", ".previous", kind.directoryName]

/-! ## Ids -/

def legacyExtension : String := "keypirinha-package"

def legacySuffix : String := "." ++ legacyExtension

def windowsDevices : List String :=
  ["CON", "PRN", "AUX", "NUL", "COM1", "COM2", "COM3", "COM4", "COM5", "COM6", "COM7", "COM8",
    "COM9", "LPT1", "LPT2", "LPT3", "LPT4", "LPT5", "LPT6", "LPT7", "LPT8", "LPT9"]

def equalIgnoringCase (left right : List Char) : Bool :=
  left.map Char.toLower = right.map Char.toLower

def isWindowsDeviceName (id : List Char) : Bool :=
  windowsDevices.any fun device => equalIgnoringCase (id.takeWhile (· ≠ '.')) device.toList

def isHidden (name : String) : Bool := name.toList.head? = some '.'

/-- Whether an id may name a file. -/
def safeIdComponent (id : String) : Bool :=
  id ≠ "" && !isHidden id &&
    id.toList.all (fun c => c ≠ '/' && c ≠ '\\' && c ≠ ':' && c ≠ Char.ofNat 0) &&
    !isWindowsDeviceName id.toList

/-- What stands before the legacy extension, in any case of its letters. -/
def legacyStem (name : List Char) : Option (List Char) :=
  let start := name.length - legacySuffix.toList.length
  if legacySuffix.toList.length ≤ name.length ∧
      equalIgnoringCase (name.drop start) legacySuffix.toList ∧ name.take start ≠ [] then
    some (name.take start)
  else none

def hasLegacyExtension (name : String) : Bool := (legacyStem name.toList).isSome

/-- The id that an artifact carries in its own name. -/
def artifactId (name : String) : Option String :=
  if isHidden name then none
  else
    match legacyStem name.toList with
    | some stem => some (String.ofList stem)
    | none => some name

def manifestFile : String := "crikey.toml"

/-- The plugin id of a manifest, or that it cannot be read. -/
class ManifestIds where
  manifestId : List UInt8 → Except Unit String

variable [ManifestIds]

/-- The id under which an entry of the store is installed, if it is a plugin at all. -/
def describe (kind : PluginKind) (name : String) (artifact : Option Artifact) :
    Except Unit (Option String) :=
  match artifactId name with
  | none => .ok none
  | some id =>
    match kind, artifact with
    | .legacy, some (.dir _) => .ok (some id)
    | .legacy, some (.file _) => .ok (if hasLegacyExtension name then some id else none)
    | .legacy, none => .ok none
    | _, some (.dir content) =>
      match content.lookup [manifestFile] with
      | some bytes => (ManifestIds.manifestId bytes).map some
      | none => .ok none
    | _, _ => .ok none

/-! ## Installing -/

/-- The name under which an artifact is installed. -/
def rootName (kind : PluginKind) (id : String) : Artifact → String
  | .file _ => match kind with
    | .legacy => id ++ legacySuffix
    | _ => id
  | .dir _ => id

/-- The name of a legacy package's other form. -/
def alternate (kind : PluginKind) (id : String) : Artifact → Option String
  | .file _ => match kind with
    | .legacy => some id
    | _ => none
  | .dir _ => match kind with
    | .legacy => some (id ++ legacySuffix)
    | _ => none

inductive StoreError where
  | unsafeId
  | swap
  | notRetained
  | unreadable
deriving DecidableEq, Repr

/-- Taking the launcher's lock recovers what an earlier process left unfinished. -/
def acquire (data : FilePath) (listing : PluginKind → List String) (v : Volume) : Volume :=
  PluginKind.all.foldl
    (fun v kind => recoverInterruptedSwaps (pluginDir data kind) (listing kind) v) v

def dropAlternate (data : FilePath) (kind : PluginKind) (id : String) (artifact : Artifact)
    (v : Volume) : Volume :=
  match alternate kind id artifact with
  | some other => Function.update v (pluginDir data kind ++ [other]) none
  | none => v

/-- The new version is staged under a hidden name beside the installed ones, swapped in, and the
other form of a legacy package is removed. -/
def install (data : FilePath) (listing : PluginKind → List String) (kind : PluginKind) (id : String)
    (artifact : Artifact) (staging : String) (v : Volume) : Except StoreError Volume :=
  if !safeIdComponent id then .error .unsafeId
  else
    let name := rootName kind id artifact
    let staged := Function.update (acquire data listing v) (pluginDir data kind ++ [staging])
      (some artifact)
    match swapIntoPlace .working (pluginDir data kind) name (pluginDir data kind ++ [staging])
        (some (previousRoot data kind ++ [name])) [] staged with
    | .returned v (.ok _) => .ok (dropAlternate data kind id artifact v)
    | _ => .error .swap

/-! ## Rolling back -/

/-- The first retained entry that carries the id, in the order the directory lists them. -/
def findPrevious (id : String) (retained : List String) : Option String :=
  retained.find? fun name => artifactId name = some id

/-- The retained version takes the place of the installed one, which is discarded. The answer names
what was restored. -/
def rollback (data : FilePath) (listing : PluginKind → List String) (kind : PluginKind)
    (id : String)
    (retained : List String) (scratch : String) (v : Volume) :
    Except StoreError (String × Volume) :=
  match findPrevious id retained with
  | none => .error .notRetained
  | some name =>
    match swapIntoPlace .working (pluginDir data kind) name (previousRoot data kind ++ [name]) none
        (pluginDir data kind ++ [scratch]) (acquire data listing v) with
    | .returned v (.ok _) =>
      match describe kind name (v (pluginDir data kind ++ [name])) with
      | .ok (some _) => .ok (name, v)
      | _ => .error .unreadable
    | _ => .error .swap

end CriKey.Manager
