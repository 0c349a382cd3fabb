import CriKey.Base.Interrupted
import CriKey.Manager.Members

/-! The installation swap: the installed tree is set aside, its replacement is renamed into place,
and a journal beside the target says where the old tree went until the swap is over. Every file
operation may fail or be the last one before the process stops. -/
namespace CriKey.Manager
open CriKey.Base Function

/-- What stands at a path: a file, or a directory with all that is below it. -/
inductive Artifact where
  | file (bytes : List UInt8)
  | dir (content : List (FilePath × List UInt8))
deriving DecidableEq, Repr

abbrev Volume := Slots FilePath Artifact

/-- A rename replaces a file by a file, and an empty directory by a directory. -/
def Artifact.replaces : Artifact → Artifact → Bool
  | file _, file _ => true
  | dir _, dir content => content.isEmpty
  | _, _ => false

def Volume.rename (v : Volume) (a b : FilePath) : Option Volume :=
  match v a, v b with
  | none, _ => none
  | some _, none => some (Slots.move v a b)
  | some moved, some standing => if moved.replaces standing then some (Slots.move v a b) else none

/-- A file is opened only where nothing stands yet. -/
def Volume.createNew (v : Volume) (path : FilePath) : Option Volume :=
  match v path with
  | none => some (update v path (some (.file [])))
  | some _ => none

/-- How much of a path a removal leaves: nothing, or what it did not get to. A file goes whole. -/
structure Removal where
  kept : Option (FilePath → Bool)
  stops : Bool

def Removal.left (removal : Removal) : Option Artifact → Option Artifact
  | none => none
  | some artifact =>
    match removal.kept, artifact with
    | none, _ => none
    | some _, .file bytes => some (.file bytes)
    | some kept, .dir content => some (.dir (content.filter fun entry => kept entry.1))

/-- Failures of a removal are ignored. -/
def Removal.removePath {ρ : Type} (removal : Removal) (path : FilePath) (v : Volume)
    (next : Volume → Ending Volume ρ) : Ending Volume ρ :=
  let v := update v path (removal.left (v path))
  if removal.stops then .stopped v else next v

/-- How much of the journal's text reaches the file. -/
inductive JournalWrite where
  | whole
  | torn (count : Nat) (stops : Bool)
deriving DecidableEq, Repr

structure SwapFates where
  makeParent : Fate
  makeHolder : Fate
  clearHold : Removal
  inspect : Fate
  createJournal : Fate
  writeJournal : JournalWrite
  syncJournal : Fate
  displace : Fate
  activate : Fate
  restore : Fate
  removeJournal : Fate
  discardHold : Removal
  removeEmpty : Fate
  recreateEmpty : Fate

def SwapFates.working : SwapFates where
  makeParent := .works
  makeHolder := .works
  clearHold := ⟨none, false⟩
  inspect := .works
  createJournal := .works
  writeJournal := .whole
  syncJournal := .works
  displace := .works
  activate := .works
  restore := .works
  removeJournal := .works
  discardHold := ⟨none, false⟩
  removeEmpty := .works
  recreateEmpty := .works

inductive SwapError where
  | io
  | notRestored
deriving DecidableEq, Repr

abbrev SwapEnding := Ending Volume (Except SwapError Bool)

def ioFailed (v : Volume) : SwapEnding := .returned v (.error .io)

/-! ## Paths and the journal's text -/

def pathText (path : FilePath) : List Char := path.flatMap fun part => '/' :: part.toList

/-- An absolute path is read back by its parts; empty ones and `.` do not count. -/
def pathOf (text : List Char) : Option FilePath :=
  match text with
  | '/' :: rest =>
    some (((rest.splitOn '/').filter fun part => part ≠ [] ∧ part ≠ ['.']).map String.ofList)
  | _ => none

def parentOf (path : FilePath) : Option FilePath := if path = [] then none else some path.dropLast

def fileName (path : FilePath) : Option String := path.getLast?

def swapJournalSuffix : String := ".crikey-swap"

def journalName (name : String) : String := "." ++ name ++ swapJournalSuffix

def journalText (target hold : FilePath) : List Char :=
  pathText target ++ '\n' :: (pathText hold ++ ['\n'])

def bytesOf (text : List Char) : List UInt8 := (String.ofList text).toUTF8.data.toList

def textOf (bytes : List UInt8) : Option (List Char) :=
  (String.fromUTF8? ⟨bytes.toArray⟩).map String.toList

/-- A line break ends a line, and takes a carriage return before it along. -/
def stripReturn (line : List Char) : List Char :=
  if line.getLast? = some '\r' then line.dropLast else line

def linesOf (text : List Char) : List (List Char) :=
  let parts := text.splitOn '\n'
  let last := parts.getLast?.getD []
  parts.dropLast.map stripReturn ++ if last = [] then [] else [last]

/-! ## The swap -/

inductive TargetState where
  | missing
  | emptyDirectory
  | present
deriving DecidableEq, Repr

def inspectTarget (v : Volume) (target : FilePath) : TargetState :=
  match v target with
  | none => .missing
  | some (.dir []) => .emptyDirectory
  | some _ => .present

variable (f : SwapFates)

/-- A failure leaves the journal as far as it was written. -/
def writeSwapJournal (journal target hold : FilePath) (v : Volume)
    (next : Volume → SwapEnding) : SwapEnding :=
  f.createJournal.perform (v.createNew journal) v ioFailed fun v =>
    let bytes := bytesOf (journalText target hold)
    match f.writeJournal with
    | .torn count stops =>
      let v := update v journal (some (.file (bytes.take count)))
      if stops then .stopped v else ioFailed v
    | .whole =>
      let v := update v journal (some (.file bytes))
      f.syncJournal.perform (some v) v ioFailed next

/-- Whether the journal goes or not, the swap carries on. -/
def dropJournal (journal : FilePath) (v : Volume) (next : Volume → SwapEnding) : SwapEnding :=
  f.removeJournal.perform (some (update v journal none)) v next next

def finishSwap (hold : FilePath) (discard : Bool) (v : Volume) : SwapEnding :=
  if discard then f.discardHold.removePath hold v fun v => .returned v (.ok true)
  else .returned v (.ok true)

def exchange (target replacement hold journal : FilePath) (discard : Bool)
    (v : Volume) : SwapEnding :=
  f.displace.perform (v.rename target hold) v (fun v => dropJournal f journal v ioFailed) fun v =>
    f.activate.perform (v.rename replacement target) v (fun v =>
        f.restore.perform (v.rename hold target) v (fun v => .returned v (.error .notRestored))
          fun v => dropJournal f journal v ioFailed)
      fun v => dropJournal f journal v (finishSwap f hold discard)

def swapOver (parent : FilePath) (name : String) (replacement hold : FilePath)
    (discard : Bool) (v : Volume) : SwapEnding :=
  let target := parent ++ [name]
  let journal := parent ++ [journalName name]
  f.inspect.perform (some v) v ioFailed fun v =>
    match inspectTarget v target with
    | .missing =>
      f.activate.perform (v.rename replacement target) v ioFailed fun v => .returned v (.ok false)
    | .emptyDirectory =>
      f.removeEmpty.perform (some (update v target none)) v ioFailed fun v =>
        f.activate.perform (v.rename replacement target) v
          (fun v => f.recreateEmpty.perform (some (update v target (some (.dir [])))) v
            ioFailed ioFailed)
          fun v => .returned v (.ok false)
    | .present =>
      writeSwapJournal f journal target hold v (exchange f target replacement hold journal discard)

/-- The target is the entry `name` of `parent`. Without a place to keep the displaced version, it
goes to the free path `scratch` beside the target and is discarded. -/
def swapIntoPlace (parent : FilePath) (name : String) (replacement : FilePath)
    (previous : Option FilePath) (scratch : FilePath) (v : Volume) : SwapEnding :=
  f.makeParent.perform (some v) v ioFailed fun v =>
    match previous with
    | some path =>
      f.makeHolder.perform (some v) v ioFailed fun v =>
        f.clearHold.removePath path v (swapOver f parent name replacement path false)
    | none => swapOver f parent name replacement scratch true v

/-! ## Recovery -/

def directChild (parent path : FilePath) : Bool := parentOf path = some parent

variable (parent : FilePath)

def retainedChild (name : String) (path : FilePath) : Bool :=
  fileName path = some name && (parentOf path).bind fileName = fileName parent &&
    ((parentOf path).bind parentOf).bind fileName = some ".previous" &&
    ((parentOf path).bind parentOf).bind parentOf = parentOf parent

/-- The hold that a journal for the entry `name` of `parent` leads to, when it passes every
check. -/
def readJournal (name : String) (bytes : List UInt8) : Option FilePath :=
  match (textOf bytes).map linesOf with
  | some (targetText :: holdText :: _) =>
    match pathOf targetText, pathOf holdText with
    | some target, some hold =>
      if target = parent ++ [name] && directChild parent target &&
          (directChild parent hold || retainedChild parent name hold) then some hold
      else none
    | _, _ => none
  | _ => none

/-- The entry that a journal of this name is for. -/
def targetName (journal : String) : Option String :=
  match journal.toList.dropPrefix? ['.'] with
  | none => none
  | some rest =>
    match rest.dropSuffix? swapJournalSuffix.toList with
    | none => none
    | some name => if name = [] then none else some (String.ofList name)

def restoreFrom (journal name : String) (hold : FilePath) (v : Volume) : Volume :=
  let target := parent ++ [name]
  let v := if v target = none ∧ v hold ≠ none then Slots.move v hold target else v
  if v target ≠ none then update v (parent ++ [journal]) none else v

def recoverJournal (v : Volume) (journal : String) : Volume :=
  match v (parent ++ [journal]), targetName journal with
  | some (.file bytes), some name =>
    match readJournal parent name bytes with
    | some hold => restoreFrom parent journal name hold v
    | none => v
  | _, _ => v

/-- Recovery over the entries of the parent, in whatever order the directory lists them. -/
def recoverInterruptedSwaps (listing : List String) (v : Volume) : Volume :=
  listing.foldl (recoverJournal parent) v

end CriKey.Manager
