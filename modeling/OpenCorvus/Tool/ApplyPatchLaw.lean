import OpenCorvus.Tool.ApplyPatch

/-!
# Hunks of a patch one after another

The tool makes the new contents from the files as they were before the patch.  That is what the hunks say one
after another as long as no hunk updates a file that an earlier one wrote or took away, and no file is moved
onto itself.
-/

namespace OpenCorvus.Tool.ApplyPatch

open Utf16 Patch LinkedFiles LinkedFiles.Files List

variable {ctx : Context} {fs before after : HostFiles}

def updates? (ctx : Context) : Hunk → Option Path
  | .add _ _ => none
  | .delete _ => none
  | .update path _ _ => some (resolve ctx.directory path)

def writes? (ctx : Context) : Hunk → Option Path
  | .add _ _ => none
  | .delete _ => none
  | .update path movePath _ => some ((moveTarget ctx movePath).getD (resolve ctx.directory path))

def removes? (ctx : Context) : Hunk → Option Path
  | .add _ _ => none
  | .delete path => some (resolve ctx.directory path)
  | .update path movePath _ => (moveTarget ctx movePath).map fun _ => resolve ctx.directory path

def Disturbs (ctx : Context) (fs : HostFiles) (hunk : Hunk) (path : Path) : Prop :=
  (∃ written ∈ writes? ctx hunk, (fs.identity? written).isSome ∧ fs.identity? written = fs.identity? path) ∨
    ∃ removed ∈ removes? ctx hunk, fs.place removed ∈ fs.way path

instance (hunk : Hunk) (path : Path) : Decidable (Disturbs ctx fs hunk path) :=
  inferInstanceAs (Decidable (_ ∨ _))

structure Apart (ctx : Context) (fs : HostFiles) (hunks : List Hunk) : Prop where
  updates : hunks.Pairwise fun earlier later => ∀ path ∈ updates? ctx later, ¬Disturbs ctx fs earlier path
  moves : ∀ hunk ∈ hunks, ∀ source ∈ removes? ctx hunk, ∀ target ∈ writes? ctx hunk, ¬MovesOntoItself fs source target

lemma assertDirectories_bind {β : Type} {path : Path} {next : Unit → Except ToolError β} {b : β}
    (h : assertDirectories ctx path >>= next = .ok b) : next () = .ok b := by
  unfold assertDirectories at h
  split at h
  · cases h
  · exact h

/-- A step on the files that is followed by another. -/
lemma onHost_bind {α β : Type} {result : Except Code α} {next : α → Except ToolError β} {b : β}
    (h : onHost result >>= next = .ok b) : ∃ a, result = .ok a ∧ next a = .ok b := by
  cases result with
  | error => cases h
  | ok a => exact ⟨a, rfl, h⟩

lemma exists_ok_of_isOk {α β : Type} {result : Except α β} (h : result.toBool = true) : ∃ b, result = .ok b := by
  cases result with
  | error => cases h
  | ok b => exact ⟨b, rfl⟩

variable {path : Units} {change : FileChange} {hunk : Hunk} {events : List (Path × WatchEvent)}
  {hunks : List Hunk} {changes : List FileChange}

/-- A verified addition. -/
lemma verifyHunk_add {contents : Units} (h : verifyHunk ctx fs (.add path contents) = .ok change) :
    change = ⟨resolve ctx.directory path, [], addedFileContent contents, .add, none⟩ := by
  have hbody := assertDirectories_bind h
  split at hbody <;> cases hbody
  rfl

/-- A verified deletion. -/
lemma verifyHunk_delete (h : verifyHunk ctx fs (.delete path) = .ok change) :
    ∃ content, change = ⟨resolve ctx.directory path, content, [], .delete, none⟩ := by
  have hbody := assertDirectories_bind h
  split at hbody <;> cases hbody
  exact ⟨_, rfl⟩

lemma verifyHunk_update {movePath : Option Units} {chunks : List UpdateFileChunk}
    (h : verifyHunk ctx fs (.update path movePath chunks) = .ok change) :
    ∃ oldContent newContent, fs.readFile (resolve ctx.directory path) = .ok oldContent ∧
      deriveNewContentsFromContent (pathText (resolve ctx.directory path)) oldContent chunks = .ok newContent ∧
      change = ⟨resolve ctx.directory path, oldContent, newContent,
        if (moveTarget ctx movePath).isSome then .move else .update, moveTarget ctx movePath⟩ := by
  have hbody := assertDirectories_bind h
  split at hbody
  · cases hbody
  · cases hbody
  · split at hbody
    · cases hbody
    · rename_i oldContent hread
      split at hbody
      · cases hbody
      · rename_i newContent hderive
        refine ⟨oldContent, newContent, hread, hderive, ?_⟩
        split at hbody
        · rename_i hmove
          cases hbody
          simp [hmove]
        · rename_i target hmove
          cases hassert : assertDirectories ctx target with
          | error =>
            rw [hassert] at hbody
            cases hbody
          | ok =>
            rw [hassert] at hbody
            cases hbody
            simp [hmove]

lemma composeHunk_of_applyChange (hverify : verifyHunk ctx fs hunk = .ok change) (hlater : Later fs before)
    (hkeeps : ∀ path ∈ updates? ctx hunk, Keeps fs before path)
    (hmoves : ∀ source ∈ removes? ctx hunk, ∀ target ∈ writes? ctx hunk, ¬MovesOntoItself fs source target)
    (happly : applyChange before change = .ok (after, events)) :
    composeHunk ctx before hunk = .ok after ∧ Later before after ∧
      ∀ path i, fs.identity? path = some i → ¬Disturbs ctx fs hunk path → Keeps fs before path →
        Keeps fs after path := by
  cases hunk with
  | add =>
    obtain rfl := verifyHunk_add hverify
    obtain ⟨_, hmkdir, happly⟩ := onHost_bind happly
    obtain ⟨_, hwrite, happly⟩ := onHost_bind happly
    cases happly
    obtain ⟨hlaterMade, hkeepsMade⟩ := later_and_keeps_mkdir hmkdir
    refine ⟨?_, hlaterMade.trans (later_writeNew hwrite), fun other i hidentity _ hkept => ?_⟩
    · simp only [composeHunk, hmkdir, onHost, Except.mapError]
      exact congrArg (Except.mapError ToolError.host) hwrite
    · exact (hkeepsMade hkept hidentity).writeNew (hlater.trans hlaterMade) hidentity hwrite
  | delete =>
    obtain ⟨_, rfl⟩ := verifyHunk_delete hverify
    obtain ⟨_, hrm, happly⟩ := onHost_bind happly
    cases happly
    refine ⟨congrArg (Except.mapError ToolError.host) hrm, later_rm hrm, fun other i hidentity hnot hkept => ?_⟩
    exact hkept.rm hlater hrm fun hway => hnot (Or.inr ⟨_, rfl, hway⟩)
  | update path movePath chunks =>
    obtain ⟨oldContent, _, hread, hderive, rfl⟩ := verifyHunk_update hverify
    have hread' : before.readFile (resolve ctx.directory path) = .ok oldContent :=
      ((hkeeps _ rfl).readFile_eq hlater).trans hread
    cases htarget : moveTarget ctx movePath with
    | none =>
      rw [htarget] at happly
      obtain ⟨_, hwrite, happly⟩ := onHost_bind happly
      cases happly
      refine ⟨?_, later_writeFile hwrite, fun other i hidentity hnot hkept => ?_⟩
      · simp only [composeHunk, hread', onHost, Except.mapError, htarget]
        dsimp only [bind, Except.bind]
        rw [hderive]
        exact congrArg (Except.mapError ToolError.host) hwrite
      · refine hkept.writeFile hlater hidentity hwrite fun hsame =>
          hnot (Or.inl ⟨_, ?_, by simp [hsame], hsame.trans hidentity.symm⟩)
        simp [writes?, htarget]
    | some target =>
      rw [htarget] at happly
      obtain ⟨_, hmkdir, happly⟩ := onHost_bind happly
      obtain ⟨written, hwrite, happly⟩ := onHost_bind happly
      obtain ⟨_, hrm, happly⟩ := onHost_bind happly
      cases happly
      obtain ⟨hlaterMade, hkeepsMade⟩ := later_and_keeps_mkdir hmkdir
      have hlaterWritten := hlaterMade.trans (later_writeFile hwrite)
      have hwrites : writes? ctx (.update path movePath chunks) = some target := by simp [writes?, htarget]
      have hremoves : removes? ctx (.update path movePath chunks) = some (resolve ctx.directory path) := by
        simp [removes?, htarget]
      refine ⟨?_, hlaterWritten.trans (later_rm hrm), fun other i hidentity hnot hkept => ?_⟩
      · have hitself : ¬MovesOntoItself before (resolve ctx.directory path) target := by
          intro hway
          refine hmoves _ hremoves _ hwrites ?_
          unfold MovesOntoItself way at hway ⊢
          rw [hlater.place_eq] at hway
          exact hlater.chain_subset hway
        simp only [composeHunk, hread', hmkdir, onHost, Except.mapError, htarget]
        dsimp only [bind, Except.bind]
        rw [hderive]
        dsimp only
        rw [hwrite]
        dsimp only
        rw [if_neg hitself]
        exact congrArg (Except.mapError ToolError.host) hrm
      · have hwritten : Keeps fs written other :=
          (hkeepsMade hkept hidentity).writeFile (hlater.trans hlaterMade) hidentity hwrite
            fun hsame => hnot (Or.inl ⟨_, hwrites, by simp [hsame], hsame.trans hidentity.symm⟩)
        exact hwritten.rm (hlater.trans hlaterWritten) hrm fun hway => hnot (Or.inr ⟨_, hremoves, hway⟩)

lemma identity_of_verifyHunk (h : verifyHunk ctx fs hunk = .ok change) :
    ∀ path ∈ updates? ctx hunk, ∃ i, fs.identity? path = some i := by
  intro path hpath
  cases hunk with
  | add | delete => cases hpath
  | update =>
    obtain rfl := Option.mem_some.mp hpath
    obtain ⟨_, _, hread, -⟩ := verifyHunk_update h
    obtain ⟨i, hi, -⟩ := identity_of_readFile hread
    exact ⟨i, hi⟩

lemma mapM_verifyHunk_cons (h : (hunk :: hunks).mapM (verifyHunk ctx fs) = .ok changes) :
    ∃ change rest, verifyHunk ctx fs hunk = .ok change ∧ hunks.mapM (verifyHunk ctx fs) = .ok rest ∧
      changes = change :: rest := by
  rw [mapM_cons] at h
  cases hhunk : verifyHunk ctx fs hunk with
  | error =>
    rw [hhunk] at h
    cases h
  | ok change =>
    rw [hhunk] at h
    cases hhunks : hunks.mapM (verifyHunk ctx fs) with
    | error =>
      rw [hhunks] at h
      cases h
    | ok rest =>
      rw [hhunks] at h
      exact ⟨change, rest, rfl, rfl, (Except.ok.inj h).symm⟩

lemma exists_verifyHunk_of_mem (h : hunks.mapM (verifyHunk ctx fs) = .ok changes) :
    ∀ hunk ∈ hunks, ∃ change, verifyHunk ctx fs hunk = .ok change := by
  induction hunks generalizing changes with
  | nil => exact fun _ hhunk => absurd hhunk not_mem_nil
  | cons _ _ ih =>
    obtain ⟨change, _, hfirst, hrest, -⟩ := mapM_verifyHunk_cons h
    intro hunk hhunk
    rcases mem_cons.mp hhunk with rfl | hhunk
    · exact ⟨change, hfirst⟩
    · exact ih hrest hunk hhunk

lemma composeHunks_of_applyChanges (hverify : hunks.mapM (verifyHunk ctx fs) = .ok changes)
    (happly : applyChanges before changes = .ok (after, events)) (hlater : Later fs before)
    (hkeeps : ∀ hunk ∈ hunks, ∀ path ∈ updates? ctx hunk, Keeps fs before path) (hapart : Apart ctx fs hunks) :
    composeHunks ctx before hunks = .ok after := by
  induction hunks generalizing before changes events with
  | nil =>
    obtain rfl : [] = changes := Except.ok.inj hverify
    cases happly
    rfl
  | cons hunk hunks ih =>
    obtain ⟨change, rest, hhunk, hhunks, rfl⟩ := mapM_verifyHunk_cons hverify
    obtain ⟨hfirst, hothers⟩ := pairwise_cons.mp hapart.updates
    rw [applyChanges] at happly
    cases hstep : applyChange before change with
    | error =>
      rw [hstep] at happly
      cases happly
    | ok next =>
      obtain ⟨mid, _⟩ := next
      rw [hstep] at happly
      cases hlast : applyChanges mid rest with
      | error =>
        simp only [bind, Except.bind, hlast] at happly
        cases happly
      | ok last =>
        obtain ⟨final, _⟩ := last
        simp only [bind, Except.bind, hlast] at happly
        obtain rfl : final = after := congrArg Prod.fst (Except.ok.inj happly)
        obtain ⟨hcompose, hlaterMid, hkeepsMid⟩ := composeHunk_of_applyChange hhunk hlater
          (hkeeps hunk mem_cons_self) (hapart.moves hunk mem_cons_self) hstep
        have hleft : ∀ other ∈ hunks, ∀ path ∈ updates? ctx other, Keeps fs mid path := by
          intro other hother path hpath
          obtain ⟨_, hotherVerify⟩ := exists_verifyHunk_of_mem hhunks other hother
          obtain ⟨i, hi⟩ := identity_of_verifyHunk hotherVerify path hpath
          exact hkeepsMid path i hi (hfirst other hother path hpath)
            (hkeeps other (mem_cons_of_mem hunk hother) path hpath)
        have hbelow := ih hhunks hlast (hlater.trans hlaterMid) hleft
          ⟨hothers, fun other hother => hapart.moves other (mem_cons_of_mem hunk hother)⟩
        rw [composeHunks, foldlM_cons, hcompose]
        exact hbelow

def filesAtRoot (first second : Units) : HostFiles where
  place := id
  entries := fun path =>
    if path = [] then some .directory
    else if path = [ofString "f"] then some (.file 0)
    else if path = [ofString "g"] then some (.file 1)
    else none
  contents := fun i => if i = 0 then first else second
  next := 2
  file_lt := fun path i h => by
    split_ifs at h <;> cases h
    all_goals decide

/-- The directory is the root, and nothing is refused. -/
def rootContext : Context := ⟨[], fun _ => none⟩

end OpenCorvus.Tool.ApplyPatch
