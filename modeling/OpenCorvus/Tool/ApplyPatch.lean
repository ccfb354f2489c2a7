import OpenCorvus.Foundation.LinkedFiles
import OpenCorvus.Patch.Replacements

/-!
# The tool that applies patches

All hunks are verified first, and the new contents are made from the files as they are then.  After that the
changes are made one after another.
-/

namespace OpenCorvus.Tool.ApplyPatch

open Utf16 Patch LinkedFiles

abbrev Path := List Units

abbrev HostFiles := Files Units Units

/-- `"/"` -/
def slash : UInt16 := 0x2F

/-- `path.resolve(directory, text)` -/
def resolve (directory : Path) (text : Units) : Path :=
  (text.splitOn slash).foldl
    (fun path segment =>
      if segment = [] ∨ segment = ofString "." then path
      else if segment = ofString ".." then path.dropLast
      else path ++ [segment])
    (if text.head? = some slash then [] else directory)

def pathText (path : Path) : Units :=
  if path = [] then [slash] else path.flatMap fun segment => slash :: segment

inductive ToolError where
  /-- An error of the tool. -/
  | message (text : Units)
  /-- An error of the files, as it is. -/
  | host (code : Code)
  /-- An error of the files, as the reason that the verification failed. -/
  | verification (code : Code)
deriving DecidableEq

/-- `apply_patch verification failed: ...` -/
def verificationFailed (text : Units) : ToolError := .message (ofString "apply_patch verification failed: " ++ text)

/-- What the tool is called with: the directory of the instance, and what the checks of the directories refuse. -/
structure Context where
  directory : Path
  refusal : Path → Option Units

/-- `assertBuildWriteDirectory` and `assertExternalDirectory` -/
def assertDirectories (ctx : Context) (path : Path) : Except ToolError Unit :=
  match ctx.refusal path with
  | some text => .error (.message text)
  | none => .ok ()

/-- What is to be done to a file. -/
inductive ChangeType where
  | add
  | update
  | delete
  | move

structure FileChange where
  filePath : Path
  oldContent : Units
  newContent : Units
  type : ChangeType
  movePath : Option Path

def addedFileContent (contents : Units) : Units :=
  if contents = [] ∨ contents.getLast? = some newline then contents else contents ++ [newline]

def moveTarget (ctx : Context) (movePath : Option Units) : Option Path :=
  (movePath.filter fun target => target ≠ []).map (resolve ctx.directory)

def verifyHunk (ctx : Context) (fs : HostFiles) (hunk : Hunk) : Except ToolError FileChange :=
  match hunk with
  | .add path contents => do
    let filePath := resolve ctx.directory path
    assertDirectories ctx filePath
    match fs.lstat filePath with
    | .ok _ =>
      .error (verificationFailed (ofString "Add File target already exists: " ++ pathText filePath))
    | .error .noEntry => .ok ⟨filePath, [], addedFileContent contents, .add, none⟩
    | .error code => .error (.host code)
  | .update path movePath chunks => do
    let filePath := resolve ctx.directory path
    assertDirectories ctx filePath
    let failed := verificationFailed (ofString "Failed to read file to update: " ++ pathText filePath)
    match fs.stat filePath with
    | .error _ => .error failed
    | .ok .directory => .error failed
    | .ok _ =>
      match fs.readFile filePath with
      | .error code => .error (.host code)
      | .ok oldContent =>
        match deriveNewContentsFromContent (pathText filePath) oldContent chunks with
        | .error text => .error (verificationFailed (ofString "Error: " ++ text))
        | .ok newContent =>
          match moveTarget ctx movePath with
          | none => .ok ⟨filePath, oldContent, newContent, .update, none⟩
          | some target => do
            assertDirectories ctx target
            .ok ⟨filePath, oldContent, newContent, .move, some target⟩
  | .delete path => do
    let filePath := resolve ctx.directory path
    assertDirectories ctx filePath
    match fs.readFile filePath with
    | .error code => .error (.verification code)
    | .ok contentToDelete => .ok ⟨filePath, contentToDelete, [], .delete, none⟩

inductive WatchEvent where
  | add
  | change
  | unlink

/-- The outcome of a step on the files. -/
def onHost {α : Type} (result : Except Code α) : Except ToolError α := result.mapError .host

def applyChange (fs : HostFiles) (change : FileChange) : Except ToolError (HostFiles × List (Path × WatchEvent)) :=
  match change.type with
  | .add => do
    let fs ← onHost (fs.mkdir change.filePath.dropLast)
    let fs ← onHost (fs.writeNew change.filePath change.newContent)
    .ok (fs, [(change.filePath, .add)])
  | .update => do
    let fs ← onHost (fs.writeFile change.filePath change.newContent)
    .ok (fs, [(change.filePath, .change)])
  | .move =>
    match change.movePath with
    | none => .ok (fs, [])
    | some movePath => do
      let fs ← onHost (fs.mkdir movePath.dropLast)
      let fs ← onHost (fs.writeFile movePath change.newContent)
      let fs ← onHost (fs.rm change.filePath)
      .ok (fs, [(change.filePath, .unlink), (movePath, .add)])
  | .delete => do
    let fs ← onHost (fs.rm change.filePath)
    .ok (fs, [(change.filePath, .unlink)])

def applyChanges : HostFiles → List FileChange → Except ToolError (HostFiles × List (Path × WatchEvent))
  | fs, [] => .ok (fs, [])
  | fs, change :: changes => do
    let (fs, updates) ← applyChange fs change
    let (fs, later) ← applyChanges fs changes
    .ok (fs, updates ++ later)

def normalizeLineBreaks : Units → Units
  | [] => []
  | [unit] => if unit = 0x0D then [newline] else [unit]
  | unit :: next :: rest =>
    if unit = 0x0D then
      if next = newline then newline :: normalizeLineBreaks rest else newline :: normalizeLineBreaks (next :: rest)
    else unit :: normalizeLineBreaks (next :: rest)

def execute (ctx : Context) (fs : HostFiles) (patchText : Units) :
    Except ToolError (HostFiles × List (Path × WatchEvent)) :=
  if patchText = [] then .error (.message (ofString "patchText is required"))
  else
    match parsePatch patchText with
    | .error text => .error (verificationFailed (ofString "Error: " ++ ofString text))
    | .ok hunks =>
      if hunks = [] then
        if trim (normalizeLineBreaks patchText) = ofString "*** Begin Patch\n*** End Patch" then
          .error (.message (ofString "patch rejected: empty patch"))
        else .error (verificationFailed (ofString "no hunks found"))
      else do
        let fileChanges ← hunks.mapM (verifyHunk ctx fs)
        applyChanges fs fileChanges

def MovesOntoItself (fs : HostFiles) (filePath target : Path) : Prop := fs.place filePath ∈ fs.way target

instance (fs : HostFiles) (filePath target : Path) : Decidable (MovesOntoItself fs filePath target) :=
  inferInstanceAs (Decidable (_ ∈ _))

def composeHunk (ctx : Context) (fs : HostFiles) (hunk : Hunk) : Except ToolError HostFiles :=
  match hunk with
  | .add path contents => do
    let filePath := resolve ctx.directory path
    let fs ← onHost (fs.mkdir filePath.dropLast)
    onHost (fs.writeNew filePath (addedFileContent contents))
  | .delete path => onHost (fs.rm (resolve ctx.directory path))
  | .update path movePath chunks => do
    let filePath := resolve ctx.directory path
    let oldContent ← onHost (fs.readFile filePath)
    match deriveNewContentsFromContent (pathText filePath) oldContent chunks with
    | .error text => .error (verificationFailed (ofString "Error: " ++ text))
    | .ok newContent =>
      match moveTarget ctx movePath with
      | none => onHost (fs.writeFile filePath newContent)
      | some target => do
        let made ← onHost (fs.mkdir target.dropLast)
        let written ← onHost (made.writeFile target newContent)
        if MovesOntoItself fs filePath target then .ok written else onHost (written.rm filePath)

def composeHunks (ctx : Context) (fs : HostFiles) (hunks : List Hunk) : Except ToolError HostFiles :=
  hunks.foldlM (composeHunk ctx) fs

end OpenCorvus.Tool.ApplyPatch
