import Mathlib

/-! A tree of files: what stands at each path, and the operations that grow it. Paths are lists
of components from the root. -/
namespace CriKey.Base
open Function
variable {κ α : Type*}

inductive Node (α : Type*) where
  | dir
  | file (content : α)
deriving DecidableEq, Repr

abbrev FileTree (κ α : Type*) := List κ → Option (Node α)

namespace FileTree

def isFile (tree : FileTree κ α) (path : List κ) : Bool :=
  match tree path with
  | some (.file _) => true
  | _ => false

variable [DecidableEq κ]

/-- Every missing directory down to the path is made. A file on the way is in the way. -/
def createDirAll (tree : FileTree κ α) (path : List κ) : Option (FileTree κ α) :=
  if path.inits.any tree.isFile then none
  else some fun p =>
    match tree p with
    | some node => some node
    | none => if p <+: path then some .dir else none

def isDir (tree : FileTree κ α) (path : List κ) : Bool :=
  match tree path with
  | some .dir => true
  | _ => false

/-- A file is made or emptied inside a directory that is there. -/
def createFile (tree : FileTree κ α) (path : List κ) (content : α) : Option (FileTree κ α) :=
  if path = [] || tree.isDir path || !tree.isDir path.dropLast then none
  else some (update tree path (some (.file content)))

/-- The content of a file is changed. -/
def modifyFile (tree : FileTree κ α) (path : List κ) (f : α → α) : Option (FileTree κ α) :=
  match tree path with
  | some (.file content) => some (update tree path (some (.file (f content))))
  | _ => none

variable {tree : FileTree κ α} {path : List κ}

lemma createDirAll_eq_some (h : ∀ q, q <+: path → ∀ content, tree q ≠ some (.file content)) :
    ∃ grown, tree.createDirAll path = some grown ∧ (∀ q, q <+: path → grown q = some .dir) ∧
      ∀ q, ¬ q <+: path → grown q = tree q := by
  have hclear : path.inits.any tree.isFile = false := by
    rw [List.any_eq_false]
    intro q hq hfile
    rw [isFile] at hfile
    split at hfile
    case h_1 content hcontent => exact h q ((List.mem_inits q path).mp hq) content hcontent
    case h_2 => cases hfile
  refine ⟨_, if_neg (by simp [hclear]), fun q hq => ?_, fun q hq => ?_⟩
  · cases hnode : tree q with
    | none => simp [hq]
    | some node =>
      cases node with
      | dir => rfl
      | file content => exact absurd hnode (h q hq content)
  · cases hnode : tree q with
    | none => simp [hq]
    | some node => rfl

lemma createFile_eq_some (content : α) (hne : path ≠ []) (hdir : tree path ≠ some .dir)
    (hparent : tree path.dropLast = some .dir) :
    tree.createFile path content = some (update tree path (some (.file content))) := by
  refine if_neg ?_
  have hnotDir : tree.isDir path = false := by
    rw [isDir]
    split
    case h_1 heq => exact absurd heq hdir
    case h_2 => rfl
  have hthere : tree.isDir path.dropLast = true := by rw [isDir, hparent]
  simp [hne, hnotDir, hthere]

lemma modifyFile_update (f : α → α) (content : α) :
    modifyFile (update tree path (some (.file content))) path f =
      some (update tree path (some (.file (f content)))) := by
  simp only [modifyFile, update_self, update_idem]

end FileTree

end CriKey.Base
