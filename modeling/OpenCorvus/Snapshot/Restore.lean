import OpenCorvus.Foundation.FileMap
import OpenCorvus.Foundation.Transaction
import OpenCorvus.Snapshot.Names

/-!
# Snapshots of a worktree

`trackRequired` writes the tree of the files that are not excluded; a tree is identified with its hash.  `restore`
lists the paths on which the worktree and a snapshot differ and reverts them: the ones of the snapshot are checked
out, then the others are unlinked.
-/

namespace OpenCorvus.Snapshot

open EcmaScript (toSorted)
open Transaction

abbrev Worktree (α : Type) := FileMap Name α

/-- The exclusion rules: the fixed ones, and those that the `.gitignore` of each directory adds. -/
class Exclusion (α : Type) where
  excluded : (GitPath → Option α) → GitPath → Bool

def gitignore : Name where
  bytes := [0x2E, 0x67, 0x69, 0x74, 0x69, 0x67, 0x6E, 0x6F, 0x72, 0x65]
  valid := by decide

/-- Why an operation fails. -/
inductive SnapshotError where
  | emptyTree
  | outsideWorktree
  | pathspec
  | fileSystem (code : FileMap.Code)

section Model

variable {α : Type} [DecidableEq α] [Exclusion α] [TextDecoder] (w : Worktree α)

/-- The rules of the worktree's `.gitignore` files. -/
def rules (directory : GitPath) : Option α := w.lookup (directory ++ [gitignore])

def isExcluded (p : GitPath) : Bool := Exclusion.excluded (rules w) p

def add : Worktree α := w.filter fun p => !isExcluded w p

def comparePaths (p q : GitPath) : Ordering :=
  compare (p.map fun name => name.bytes.map UInt8.toNat) (q.map fun name => name.bytes.map UInt8.toNat)

instance : Std.TransCmp comparePaths :=
  inferInstanceAs (Std.TransCmp (compareOn fun p : GitPath => p.map fun name => name.bytes.map UInt8.toNat))

def hasTrackableContent : Bool :=
  (add w).keys.any fun p => decide (trimText (decode (pathBytes p)) ≠ [])

def trackRequired : Except SnapshotError (Worktree α) := do
  let hash := (add w).normalize comparePaths
  throwWhen (hash.keys = [] ∧ hasTrackableContent w = true) .emptyTree
  return hash

def compareListed (p q : GitPath) : Ordering :=
  compare ((pathBytes p).map UInt8.toNat) ((pathBytes q).map UInt8.toNat)

def changedPaths (snapshot w : Worktree α) : List GitPath :=
  toSorted compareListed <|
    (snapshot.keys ++ (add w).keys.filter (· ∉ snapshot.keys)).filter fun p => snapshot.lookup p ≠ (add w).lookup p

structure Patch (α : Type) where
  hash : Worktree α
  files : List Text

variable (root : Root)

def patch (w snapshot : Worktree α) : Except SnapshotError (Patch α) := do
  let files ← getOrThrow (listedFiles root (changedPaths snapshot w)) .outsideWorktree
  return { hash := snapshot, files }

/-- A path argument of `git` names a file, or a directory above it. -/
def matches_ (files : List Text) (q : GitPath) : Bool :=
  files.any fun file => (gitPath? file).any fun p => decide (p <+: q)

/-- `treeObjects`: the files of the snapshot that the arguments name. -/
def snapshotPaths (snapshot : Worktree α) (files : List Text) : List Text :=
  (snapshot.keys.filter (matches_ files)).map fun q => decode (pathBytes q)

def checkoutSnapshotPaths (w snapshot : Worktree α) (files : List Text) : Except SnapshotError (Worktree α) := do
  throwWhen (∃ file ∈ files, ∀ q ∈ snapshot.keys, matches_ [file] q = false) .pathspec
  return (snapshot.entries.filter fun entry => matches_ files entry.1).foldl FileMap.place w

def removeSnapshotAbsentFile (file : Text) : Except SnapshotError (Worktree α) :=
  match gitPath? file with
  | none => .error .outsideWorktree
  | some p =>
    match w.unlink p with
    | .ok w' => .ok w'
    | .error .noEntry => .ok w
    | .error code => .error (.fileSystem code)

def takeUnseen (seen : List Text) : List Text → List Text
  | [] => []
  | file :: files => if file ∈ seen then takeUnseen seen files else file :: takeUnseen (file :: seen) files

def revertBatch (w snapshot : Worktree α) (batch : List Text) : Except SnapshotError (Worktree α) := do
  let relative ← getOrThrow (batch.mapM (toWorktreeRelative root)) .outsideWorktree
  let present := snapshotPaths snapshot relative
  let checkout := relative.filter (· ∈ present)
  let remove := relative.filter (· ∉ present)
  let w ← (if checkout = [] then .ok w else checkoutSnapshotPaths w snapshot checkout)
  remove.foldlM removeSnapshotAbsentFile w

/-- One patch of `revert`. -/
def revertPatch (state : List Text × Worktree α) (item : Patch α) :
    Except SnapshotError (List Text × Worktree α) := do
  let batch := takeUnseen state.1 item.files
  let w ← (if batch = [] then .ok state.2 else revertBatch root state.2 item.hash batch)
  return (state.1 ++ batch, w)

def revert (w : Worktree α) (patches : List (Patch α)) : Except SnapshotError (Worktree α) := do
  let state ← patches.foldlM (revertPatch root) ([], w)
  return state.2

def restore (w snapshot : Worktree α) : Except SnapshotError (Worktree α) := do
  let p ← patch root w snapshot
  revert root w [p]

end Model

end OpenCorvus.Snapshot
