import OpenCorvus.Snapshot.Restore

/-!
# What `restore` leaves

When the names of the changed paths are read back from the listing, `restore` checks out exactly the changed files of
the snapshot and unlinks exactly the captured files that it does not have.  Unlinking fails on a file that is in the
way of a file of the snapshot, or the reverse; excluded files stay.  From this follows when the worktree is captured
as the same snapshot again.
-/

namespace OpenCorvus.Snapshot

open Transaction List

section Files

variable {α : Type} [Exclusion α] {w snapshot : Worktree α} {p q : GitPath}

/-! ## Capture -/

lemma eq_of_comparePaths (p q : GitPath) (h : comparePaths p q = .eq) : p = q := by
  have hbytes : p.map (fun name => name.bytes.map UInt8.toNat) = q.map fun name => name.bytes.map UInt8.toNat :=
    Std.LawfulEqOrd.eq_of_compare h
  have hinj : Function.Injective fun name : Name => name.bytes.map UInt8.toNat := by
    intro left right hname
    have hlist : left.bytes = right.bytes := map_injective_iff.mpr (fun a b => UInt8.toNat_inj.mp) hname
    cases left
    cases right
    exact Name.mk.injEq .. ▸ hlist
  exact map_injective_iff.mpr hinj hbytes

lemma lookup_add (w : Worktree α) (p : GitPath) : (add w).lookup p = if isExcluded w p then none else w.lookup p := by
  rw [add, FileMap.lookup_filter]
  cases isExcluded w p <;> rfl

lemma mem_keys_add : p ∈ (add w).keys ↔ p ∈ w.keys ∧ isExcluded w p = false := by
  rw [add, FileMap.mem_keys_filter, Bool.not_eq_true']

/-! ## Changed paths -/

def Changed (snapshot w : Worktree α) (p : GitPath) : Prop := snapshot.lookup p ≠ (add w).lookup p

instance [DecidableEq α] (snapshot w : Worktree α) (p : GitPath) : Decidable (Changed snapshot w p) :=
  inferInstanceAs (Decidable (_ ≠ _))

lemma changed_of_added (h : p ∈ (add w).keys) (hsnapshot : p ∉ snapshot.keys) : Changed snapshot w p := by
  obtain ⟨_, hc⟩ := FileMap.mem_keys_iff.mp h
  intro heq
  rw [hc] at heq
  exact hsnapshot (FileMap.mem_keys_of_lookup heq)

lemma changed_of_removed (h : p ∉ (add w).keys) (hsnapshot : p ∈ snapshot.keys) : Changed snapshot w p := by
  obtain ⟨_, hc⟩ := FileMap.mem_keys_iff.mp hsnapshot
  intro heq
  rw [hc] at heq
  exact h (FileMap.mem_keys_of_lookup heq.symm)

lemma Changed.added (h : Changed snapshot w p) (hsnapshot : p ∉ snapshot.keys) : p ∈ (add w).keys := by
  by_contra hnot
  exact h ((FileMap.lookup_eq_none_iff.mpr hsnapshot).trans (FileMap.lookup_eq_none_iff.mpr hnot).symm)

lemma Changed.below (h : Changed snapshot w p) (hq : q ∈ snapshot.keys) (hpq : p <+: q) : Changed snapshot w q := by
  by_cases hp : p ∈ snapshot.keys
  · rwa [← FileMap.eq_of_comparable hp hq (.inl hpq)]
  · refine changed_of_removed (fun hadded => ?_) hq
    have heq := FileMap.eq_of_comparable (h.added hp) hadded (.inl hpq)
    exact hp (heq ▸ hq)

lemma mem_changedPaths [DecidableEq α] : p ∈ changedPaths snapshot w ↔ Changed snapshot w p := by
  rw [changedPaths, EcmaScript.mem_toSorted, mem_filter, decide_eq_true_iff]
  refine ⟨And.right, fun h => ⟨?_, h⟩⟩
  by_cases hsnapshot : p ∈ snapshot.keys
  · exact mem_append_left _ hsnapshot
  · have hadded : p ∈ (add w).keys := by
      by_contra hnot
      exact h ((FileMap.lookup_eq_none_iff.mpr hsnapshot).trans (FileMap.lookup_eq_none_iff.mpr hnot).symm)
    exact mem_append_right _ (mem_filter.mpr ⟨hadded, decide_eq_true hsnapshot⟩)

lemma nodup_changedPaths [DecidableEq α] : (changedPaths snapshot w).Nodup := by
  refine ((EcmaScript.toSorted_perm _ _).nodup_iff).mpr (Nodup.filter _ ?_)
  refine nodup_append.mpr ⟨snapshot.nodup, (add w).nodup.filter _, fun p hp q hq hpq => ?_⟩
  exact of_decide_eq_true (mem_filter.mp hq).2 (hpq ▸ hp)

end Files

section Steps

variable {α : Type} [DecidableEq α] [Exclusion α] [TextDecoder] {root : Root} {w w' snapshot hash : Worktree α}
  {p q : GitPath}

omit [DecidableEq α] in
lemma trackRequired_eq (w : Worktree α) : trackRequired w = .ok ((add w).normalize comparePaths) := by
  refine throwWhen_bind_eq_ok.mpr ⟨?_, rfl⟩
  rintro ⟨hnil, hcontent⟩
  obtain ⟨p, hp, -⟩ := List.any_eq_true.mp hcontent
  obtain ⟨c, hc⟩ := FileMap.mem_keys_iff.mp hp
  have hlookup : ((add w).normalize comparePaths).lookup p = some c := FileMap.lookup_normalize.trans hc
  exact not_mem_nil (hnil ▸ FileMap.mem_keys_of_lookup hlookup)

omit [DecidableEq α] in
lemma lookup_of_trackRequired (h : trackRequired w = .ok hash) (p : GitPath) : hash.lookup p = (add w).lookup p := by
  rw [trackRequired_eq] at h
  rw [← Except.ok.inj h, FileMap.lookup_normalize]

omit [DecidableEq α] in
lemma trackRequired_eq_iff (h : trackRequired w = .ok hash) :
    trackRequired w' = .ok hash ↔ ∀ p, (add w').lookup p = (add w).lookup p := by
  rw [trackRequired_eq] at h ⊢
  rw [← h, Except.ok.injEq]
  exact FileMap.normalize_eq_iff eq_of_comparePaths

/-! ## The batch -/

omit [TextDecoder] in
lemma takeUnseen_eq {files seen : List Text} (hnodup : files.Nodup) (hseen : ∀ file ∈ files, file ∉ seen) :
    takeUnseen seen files = files := by
  induction files generalizing seen with
  | nil => rfl
  | cons file files ih =>
    obtain ⟨hnotin, hrest⟩ := nodup_cons.mp hnodup
    obtain ⟨hfile, hfiles⟩ := forall_mem_cons.mp hseen
    have htail : takeUnseen (file :: seen) files = files := by
      refine ih hrest fun other hother => ?_
      rw [mem_cons, not_or]
      exact ⟨fun heq => hnotin (heq ▸ hother), hfiles other hother⟩
    rw [takeUnseen, if_neg hfile, htail]

omit [TextDecoder] in
lemma matches_map_pathText {paths : List GitPath} (h : ∀ p ∈ paths, Plain p) :
    matches_ (paths.map pathText) q = true ↔ ∃ p ∈ paths, p <+: q := by
  unfold matches_
  rw [List.any_map, List.any_eq_true]
  refine exists_congr fun p => and_congr_right fun hp => ?_
  rw [Function.comp_apply, (h p hp).gitPath?_eq, Option.any_some, decide_eq_true_iff]

section PlainChanges

variable (hplain : ∀ p, Changed snapshot w p → Plain p)
include hplain

omit [TextDecoder] in
lemma plain_changedPaths : ∀ p ∈ changedPaths snapshot w, Plain p := fun p hp => hplain p (mem_changedPaths.mp hp)

omit [TextDecoder] in
lemma nodup_map_pathText : ((changedPaths snapshot w).map pathText).Nodup :=
  nodup_changedPaths.map_on fun p hp q hq => (plain_changedPaths hplain p hp).eq_of_pathText (plain_changedPaths hplain q hq)

lemma mem_snapshotPaths_iff (hp : Changed snapshot w p) :
    pathText p ∈ snapshotPaths snapshot ((changedPaths snapshot w).map pathText) ↔ p ∈ snapshot.keys := by
  rw [snapshotPaths, List.mem_map]
  constructor
  · rintro ⟨q, hq, htext⟩
    obtain ⟨hqmem, hmatches⟩ := mem_filter.mp hq
    obtain ⟨_, habove, hbelow⟩ := (matches_map_pathText (plain_changedPaths hplain)).mp hmatches
    have hqplain := hplain q ((mem_changedPaths.mp habove).below hqmem hbelow)
    rw [hqplain.pathBytes_eq, decode_encode] at htext
    rwa [← hqplain.eq_of_pathText (hplain p hp) htext]
  · intro hmem
    refine ⟨p, mem_filter.mpr ⟨hmem, ?_⟩, ?_⟩
    · exact (matches_map_pathText (plain_changedPaths hplain)).mpr ⟨p, mem_changedPaths.mpr hp, prefix_rfl⟩
    · rw [(hplain p hp).pathBytes_eq, decode_encode]

/-- The files that `restore` checks out. -/
def checkedOut (snapshot w : Worktree α) : Worktree α :=
  (snapshot.entries.filter fun entry => Changed snapshot w entry.1).foldl FileMap.place w

/-- The paths that `restore` unlinks. -/
def unlinked (snapshot w : Worktree α) : List GitPath := (changedPaths snapshot w).filter (· ∉ snapshot.keys)

omit [TextDecoder] in
lemma checkoutSnapshotPaths_eq :
    checkoutSnapshotPaths w snapshot (((changedPaths snapshot w).filter (· ∈ snapshot.keys)).map pathText) =
      .ok (checkedOut snapshot w) := by
  have hmem : ∀ p ∈ (changedPaths snapshot w).filter (· ∈ snapshot.keys), Changed snapshot w p ∧ p ∈ snapshot.keys :=
    fun p hp => ⟨mem_changedPaths.mp (mem_filter.mp hp).1, of_decide_eq_true (mem_filter.mp hp).2⟩
  have hplain' : ∀ p ∈ (changedPaths snapshot w).filter (· ∈ snapshot.keys), Plain p := fun p hp =>
    hplain p (hmem p hp).1
  refine throwWhen_bind_eq_ok.mpr ⟨?_, ?_⟩
  · rintro ⟨_, hfile, hnone⟩
    obtain ⟨p, hp, rfl⟩ := List.mem_map.mp hfile
    have honly : ∀ q ∈ [p], Plain q := fun q hq => mem_singleton.mp hq ▸ hplain' p hp
    have hmatches : matches_ [pathText p] p = true :=
      (matches_map_pathText honly).mpr ⟨p, mem_cons_self, prefix_rfl⟩
    exact Bool.false_ne_true ((hnone p (hmem p hp).2).symm.trans hmatches)
  · have hfilter : (snapshot.entries.filter fun entry =>
        matches_ (((changedPaths snapshot w).filter (· ∈ snapshot.keys)).map pathText) entry.1) =
        snapshot.entries.filter fun entry => Changed snapshot w entry.1 := by
      refine filter_congr fun entry hentry => Bool.eq_iff_iff.mpr ?_
      have hkey : entry.1 ∈ snapshot.keys := List.mem_map_of_mem hentry
      rw [matches_map_pathText hplain', decide_eq_true_iff]
      constructor
      · rintro ⟨p, hp, habove⟩
        exact (hmem p hp).1.below hkey habove
      · intro hchanged
        exact ⟨entry.1, mem_filter.mpr ⟨mem_changedPaths.mpr hchanged, decide_eq_true hkey⟩, prefix_rfl⟩
    rw [hfilter]
    rfl

lemma revertBatch_eq (root : Root) : revertBatch root w snapshot ((changedPaths snapshot w).map pathText) =
    ((unlinked snapshot w).map pathText).foldlM removeSnapshotAbsentFile (checkedOut snapshot w) := by
  have hpresent : ∀ p ∈ changedPaths snapshot w,
      (pathText p ∈ snapshotPaths snapshot ((changedPaths snapshot w).map pathText) ↔ p ∈ snapshot.keys) :=
    fun p hp => mem_snapshotPaths_iff hplain (mem_changedPaths.mp hp)
  have hcheckout : ((changedPaths snapshot w).map pathText).filter
        (· ∈ snapshotPaths snapshot ((changedPaths snapshot w).map pathText)) =
      ((changedPaths snapshot w).filter (· ∈ snapshot.keys)).map pathText := by
    rw [List.filter_map]
    exact congrArg _ (filter_congr fun p hp => decide_eq_decide.mpr (hpresent p hp))
  have hremove : ((changedPaths snapshot w).map pathText).filter
        (· ∉ snapshotPaths snapshot ((changedPaths snapshot w).map pathText)) =
      (unlinked snapshot w).map pathText := by
    rw [List.filter_map]
    exact congrArg _ (filter_congr fun p hp => decide_eq_decide.mpr (not_congr (hpresent p hp)))
  have hplaced : (if ((changedPaths snapshot w).filter (· ∈ snapshot.keys)).map pathText = [] then .ok w
      else checkoutSnapshotPaths w snapshot (((changedPaths snapshot w).filter (· ∈ snapshot.keys)).map pathText)) =
      (.ok (checkedOut snapshot w) : Except SnapshotError (Worktree α)) := by
    split_ifs with hnil
    · have hnone : (snapshot.entries.filter fun entry => Changed snapshot w entry.1) = [] := by
        refine filter_eq_nil_iff.mpr fun entry hentry hchanged => ?_
        have hlisted : entry.1 ∈ (changedPaths snapshot w).filter (· ∈ snapshot.keys) :=
          mem_filter.mpr ⟨mem_changedPaths.mpr (of_decide_eq_true hchanged),
            decide_eq_true (List.mem_map_of_mem hentry)⟩
        exact not_mem_nil (map_eq_nil_iff.mp hnil ▸ hlisted)
      rw [checkedOut, hnone]
      rfl
    · exact checkoutSnapshotPaths_eq hplain
  calc revertBatch root w snapshot ((changedPaths snapshot w).map pathText)
    _ = (if ((changedPaths snapshot w).map pathText).filter
            (· ∈ snapshotPaths snapshot ((changedPaths snapshot w).map pathText)) = [] then .ok w
          else checkoutSnapshotPaths w snapshot (((changedPaths snapshot w).map pathText).filter
            (· ∈ snapshotPaths snapshot ((changedPaths snapshot w).map pathText)))) >>= fun placed =>
        (((changedPaths snapshot w).map pathText).filter
          (· ∉ snapshotPaths snapshot ((changedPaths snapshot w).map pathText))).foldlM
            removeSnapshotAbsentFile placed := by
      rw [revertBatch, mapM_toWorktreeRelative root (plain_changedPaths hplain)]
      rfl
    _ = _ := by
      rw [hcheckout, hplaced, hremove]
      rfl

/-- What `restore` does when the listing is read back: it checks out, then it unlinks. -/
lemma restore_eq (root : Root) : restore root w snapshot =
    ((unlinked snapshot w).map pathText).foldlM removeSnapshotAbsentFile (checkedOut snapshot w) := by
  have htaken : takeUnseen [] ((changedPaths snapshot w).map pathText) = (changedPaths snapshot w).map pathText :=
    takeUnseen_eq (nodup_map_pathText hplain) fun _ _ => not_mem_nil
  have hpatch : patch root w snapshot =
      .ok { hash := snapshot, files := (changedPaths snapshot w).map pathText } := by
    rw [patch, listedFiles_eq root (plain_changedPaths hplain)]
    rfl
  have hbatch : (if (changedPaths snapshot w).map pathText = [] then .ok w
      else revertBatch root w snapshot ((changedPaths snapshot w).map pathText)) =
      revertBatch root w snapshot ((changedPaths snapshot w).map pathText) := by
    refine ite_eq_right_iff.mpr fun hnil => ?_
    have hnone : changedPaths snapshot w = [] := map_eq_nil_iff.mp hnil
    have hunchanged : (snapshot.entries.filter fun entry => Changed snapshot w entry.1) = [] := by
      refine filter_eq_nil_iff.mpr fun entry _ hchanged => ?_
      exact not_mem_nil (hnone ▸ mem_changedPaths.mpr (of_decide_eq_true hchanged))
    rw [revertBatch_eq hplain, unlinked, hnone, checkedOut, hunchanged]
    rfl
  rw [restore, hpatch, ← revertBatch_eq hplain root, ← hbatch]
  change revert root w [_] = _
  rw [revert, foldlM_cons, revertPatch, htaken]
  cases (if (changedPaths snapshot w).map pathText = [] then .ok w
      else revertBatch root w snapshot ((changedPaths snapshot w).map pathText) : Except SnapshotError (Worktree α)) with
  | ok w' => rfl
  | error e => rfl

end PlainChanges

/-! ## Unlinking -/

section Unlink

variable {paths : List GitPath}

omit [DecidableEq α] [Exclusion α] [TextDecoder] in
lemma removeSnapshotAbsentFile_eq (h : Plain p) : removeSnapshotAbsentFile w (pathText p) =
    if p ∈ w.keys then .ok (w.filter fun q => q ≠ p)
    else if ∃ q ∈ w.keys, q <+: p then .error (.fileSystem .notDirectory)
    else if ∃ q ∈ w.keys, p <+: q then .error (.fileSystem .isDirectory)
    else .ok w := by
  rw [removeSnapshotAbsentFile, h.gitPath?_eq]
  dsimp only
  rw [FileMap.unlink]
  split_ifs <;> rfl

omit [DecidableEq α] [Exclusion α] [TextDecoder] in
lemma removeSnapshotAbsentFiles_eq (hplain : ∀ p ∈ paths, Plain p) (hnodup : paths.Nodup) (hmem : ∀ p ∈ paths, p ∈ w.keys) :
    ∃ w', (paths.map pathText).foldlM removeSnapshotAbsentFile w = .ok w' ∧
      ∀ p, w'.lookup p = if p ∈ paths then none else w.lookup p := by
  induction paths generalizing w with
  | nil => exact ⟨w, rfl, fun p => (if_neg not_mem_nil).symm⟩
  | cons path paths ih =>
    obtain ⟨hpath, hpaths⟩ := forall_mem_cons.mp hplain
    obtain ⟨hnotin, hnodup⟩ := nodup_cons.mp hnodup
    obtain ⟨hthere, hmem⟩ := forall_mem_cons.mp hmem
    have hkept : ∀ p ∈ paths, p ∈ (w.filter fun q => q ≠ path).keys := by
      intro p hp
      exact FileMap.mem_keys_filter.mpr ⟨hmem p hp, decide_eq_true fun heq => hnotin (heq ▸ hp)⟩
    obtain ⟨w', hw', hlookup⟩ := ih hpaths hnodup hkept
    refine ⟨w', ?_, fun p => ?_⟩
    · rw [map_cons, foldlM_cons, bind_eq_ok]
      exact ⟨_, (removeSnapshotAbsentFile_eq hpath).trans (if_pos hthere), hw'⟩
    · rw [hlookup, FileMap.lookup_filter]
      by_cases heq : p = path
      · simp [heq]
      · simp [heq]

omit [DecidableEq α] [Exclusion α] [TextDecoder] in
lemma ne_ok_of_comparable (hplain : ∀ p ∈ paths, Plain p) (hp : p ∈ paths) (hmissing : p ∉ w.keys) (hq : q ∈ w.keys)
    (hstays : q ∉ paths) (hcomp : Comparable q p) :
    (paths.map pathText).foldlM removeSnapshotAbsentFile w ≠ .ok w' := by
  induction paths generalizing w with
  | nil => exact absurd hp not_mem_nil
  | cons _ _ ih =>
    obtain ⟨hpath, hpaths⟩ := forall_mem_cons.mp hplain
    obtain ⟨hne, hstays⟩ := ne_and_not_mem_of_not_mem_cons hstays
    rw [map_cons, foldlM_cons, Ne, bind_eq_ok]
    rintro ⟨_, hnext, hrest⟩
    rw [removeSnapshotAbsentFile_eq hpath] at hnext
    rcases mem_cons.mp hp with rfl | hp
    · rw [if_neg hmissing] at hnext
      by_cases habove : ∃ q ∈ w.keys, q <+: p
      · rw [if_pos habove] at hnext
        cases hnext
      · rcases hcomp with hcomp | hcomp
        · exact habove ⟨q, hq, hcomp⟩
        · rw [if_neg habove, if_pos ⟨q, hq, hcomp⟩] at hnext
          cases hnext
    · split_ifs at hnext with hthere
      · cases hnext
        refine ih hpaths hp (fun hmem => ?_) ?_ hstays hrest
        · exact hmissing (FileMap.mem_keys_filter.mp hmem).1
        · exact FileMap.mem_keys_filter.mpr ⟨hq, decide_eq_true hne⟩
      · cases hnext
        exact ih hpaths hp hmissing hq hstays hrest

end Unlink

/-! ## The worktree that is left -/

/-- No captured file of the worktree is in the way of a file of the snapshot that is not there, or the reverse. -/
def Apart (snapshot w : Worktree α) : Prop :=
  ∀ p ∈ (add w).keys, p ∉ snapshot.keys → ∀ q ∈ snapshot.keys, ¬Comparable p q

omit [TextDecoder] in
lemma lookup_checkedOut (p : GitPath) : (checkedOut snapshot w).lookup p =
    if p ∈ snapshot.keys ∧ Changed snapshot w p then snapshot.lookup p
    else if ∃ q ∈ snapshot.keys, Changed snapshot w q ∧ Comparable q p then none else w.lookup p := by
  have hkeys : ∀ q, q ∈ (snapshot.filter fun q => Changed snapshot w q).keys ↔
      q ∈ snapshot.keys ∧ Changed snapshot w q := by
    intro q
    rw [FileMap.mem_keys_filter, decide_eq_true_iff]
  have hplaces : (checkedOut snapshot w).lookup p =
      if p ∈ (snapshot.filter fun q => Changed snapshot w q).keys then
        (snapshot.filter fun q => Changed snapshot w q).lookup p
      else if ∃ q ∈ (snapshot.filter fun q => Changed snapshot w q).keys, Comparable q p then none
      else w.lookup p :=
    FileMap.lookup_places (snapshot.filter fun q => Changed snapshot w q).nodup fun a ha b hb =>
      (snapshot.filter fun q => Changed snapshot w q).apart a.1 (List.mem_map_of_mem ha) b.1 (List.mem_map_of_mem hb)
  rw [hplaces]
  by_cases hp : p ∈ snapshot.keys ∧ Changed snapshot w p
  · rw [if_pos ((hkeys p).mpr hp), if_pos hp, FileMap.lookup_filter, decide_eq_true hp.2, if_pos rfl]
  · rw [if_neg fun hmem => hp ((hkeys p).mp hmem), if_neg hp]
    refine if_congr (exists_congr fun q => ?_) rfl rfl
    rw [hkeys, and_assoc]

omit [TextDecoder] in
lemma mem_checkedOut_iff (hadded : p ∈ (add w).keys) (hp : p ∉ snapshot.keys) :
    p ∈ (checkedOut snapshot w).keys ↔ ∀ q ∈ snapshot.keys, ¬Comparable p q := by
  have hthere : p ∈ w.keys := (mem_keys_add.mp hadded).1
  obtain ⟨c, hc⟩ := FileMap.mem_keys_iff.mp hthere
  rw [FileMap.mem_keys_iff, lookup_checkedOut, if_neg fun h => hp h.1]
  split_ifs with hway
  · obtain ⟨q, hq, -, hcomp⟩ := hway
    exact iff_of_false (by rintro ⟨_, ⟨⟩⟩) fun h => h q hq hcomp.symm
  · refine iff_of_true ⟨c, hc⟩ fun q hq hcomp => hway ⟨q, hq, changed_of_removed (fun hq' => ?_) hq, hcomp.symm⟩
    exact hp (FileMap.eq_of_comparable hadded hq' hcomp ▸ hq)

omit [TextDecoder] in
lemma mem_unlinked : p ∈ unlinked snapshot w ↔ p ∈ (add w).keys ∧ p ∉ snapshot.keys := by
  rw [unlinked, mem_filter, mem_changedPaths, decide_eq_true_iff]
  exact ⟨fun h => ⟨h.1.added h.2, h.2⟩, fun h => ⟨changed_of_added h.1 h.2, h.2⟩⟩

/-- `restore` fails when a file is in the way of another. -/
lemma apart_of_restore (hplain : ∀ p, Changed snapshot w p → Plain p) (h : restore root w snapshot = .ok w') :
    Apart snapshot w := by
  intro p hadded hp q hq hcomp
  rw [restore_eq hplain] at h
  have hunlinked : ∀ p ∈ unlinked snapshot w, Plain p := fun p hp => hplain p (mem_changedPaths.mp (mem_filter.mp hp).1)
  have hchanged : Changed snapshot w q :=
    changed_of_removed (fun hq' => hp (FileMap.eq_of_comparable hadded hq' hcomp ▸ hq)) hq
  have hplaced : q ∈ (checkedOut snapshot w).keys := by
    rw [FileMap.mem_keys_iff, lookup_checkedOut, if_pos ⟨hq, hchanged⟩]
    exact FileMap.mem_keys_iff.mp hq
  refine ne_ok_of_comparable hunlinked (mem_unlinked.mpr ⟨hadded, hp⟩) (fun hmem => ?_) hplaced
    (fun hmem => (mem_unlinked.mp hmem).2 hq) hcomp.symm h
  exact (mem_checkedOut_iff hadded hp).mp hmem q hq hcomp

/-- What `restore` leaves: the files of the snapshot, and the files that were not captured and are not in the way. -/
def restoredLookup (snapshot w : Worktree α) (p : GitPath) : Option α :=
  if p ∈ snapshot.keys then snapshot.lookup p
  else if p ∈ (add w).keys ∨ ∃ q ∈ snapshot.keys, Comparable q p then none else w.lookup p

lemma lookup_restored (root : Root) (hplain : ∀ p, Changed snapshot w p → Plain p) (hapart : Apart snapshot w) :
    ∃ w', restore root w snapshot = .ok w' ∧ ∀ p, w'.lookup p = restoredLookup snapshot w p := by
  have hunlinked : ∀ p ∈ unlinked snapshot w, Plain p := fun p hp => hplain p (mem_changedPaths.mp (mem_filter.mp hp).1)
  have hthere : ∀ p ∈ unlinked snapshot w, p ∈ (checkedOut snapshot w).keys := by
    intro p hp
    obtain ⟨hadded, hnot⟩ := mem_unlinked.mp hp
    exact (mem_checkedOut_iff hadded hnot).mpr (hapart p hadded hnot)
  obtain ⟨w', hw', hlookup⟩ := removeSnapshotAbsentFiles_eq hunlinked (nodup_changedPaths.filter _) hthere
  refine ⟨w', (restore_eq hplain root).trans hw', fun p => ?_⟩
  rw [hlookup, lookup_checkedOut, restoredLookup]
  by_cases hp : p ∈ snapshot.keys
  · rw [if_neg fun h => (mem_unlinked.mp h).2 hp, if_pos hp]
    by_cases hchanged : Changed snapshot w p
    · rw [if_pos ⟨hp, hchanged⟩]
    · -- an unchanged file is captured as it is, and no file of the snapshot lies above or below it
      have hsame : snapshot.lookup p = (add w).lookup p := not_not.mp hchanged
      have hnone : ¬∃ q ∈ snapshot.keys, Changed snapshot w q ∧ Comparable q p := by
        rintro ⟨_, hq, hchangedq, hcomp⟩
        exact hchanged (FileMap.eq_of_comparable hq hp hcomp ▸ hchangedq)
      obtain ⟨_, hc⟩ := FileMap.mem_keys_iff.mp hp
      rw [if_neg fun h => hchanged h.2, if_neg hnone, hsame, lookup_add]
      rw [hsame, lookup_add] at hc
      split_ifs at hc ⊢
      rfl
  · have hnotplaced : ¬(p ∈ snapshot.keys ∧ Changed snapshot w p) := fun h => hp h.1
    rw [if_neg hp, if_neg hnotplaced]
    by_cases hadded : p ∈ (add w).keys
    · rw [if_pos (mem_unlinked.mpr ⟨hadded, hp⟩), if_pos (.inl hadded)]
    · rw [if_neg fun h => hadded (mem_unlinked.mp h).1]
      by_cases hway : ∃ q ∈ snapshot.keys, Changed snapshot w q ∧ Comparable q p
      · obtain ⟨q, hq, -, hcomp⟩ := id hway
        rw [if_pos hway, if_pos (.inr ⟨q, hq, hcomp⟩)]
      · rw [if_neg hway]
        split_ifs with hway'
        · -- a file of the snapshot that is not changed is there, so that nothing lies above or below it
          obtain ⟨q, hq, hcomp⟩ := hway'.resolve_left hadded
          have hq' : q ∈ (add w).keys := by
            by_contra hnot
            exact hway ⟨q, hq, changed_of_removed hnot hq, hcomp⟩
          refine FileMap.lookup_eq_none_iff.mpr fun hmem => hp ?_
          exact FileMap.eq_of_comparable (mem_keys_add.mp hq').1 hmem hcomp ▸ hq
        · rfl

end Steps

/-! ## Exact restoration -/

section Exact

variable {α : Type} [DecidableEq α] [Exclusion α] [TextDecoder] {root : Root} {w₀ w₁ w₂ hash : Worktree α}

/-- Every `.gitignore` file of the worktree is captured. -/
def RulesCaptured (w : Worktree α) : Prop :=
  ∀ directory, directory ++ [gitignore] ∈ w.keys → isExcluded w (directory ++ [gitignore]) = false

/-- The restoration of a snapshot is exact: it succeeds, what is captured after it is the snapshot again, and no file
that was excluded when the snapshot was taken is deleted or modified. -/
def RestoresExactly (root : Root) (w₀ w₁ hash : Worktree α) : Prop :=
  ∃ w₂, restore root w₁ hash = .ok w₂ ∧ trackRequired w₂ = .ok hash ∧
    ∀ p ∈ w₁.keys, p ∈ w₀.keys → isExcluded w₀ p = true → w₂.lookup p = w₁.lookup p

structure Restorable (w₀ w₁ : Worktree α) : Prop where
  apart : ∀ p ∈ (add w₁).keys, p ∉ (add w₀).keys → ∀ q ∈ (add w₀).keys, ¬Comparable p q
  kept : ∀ p ∈ w₀.keys, isExcluded w₀ p = true → p ∈ w₁.keys → isExcluded w₁ p = true
  settled : ∀ p ∈ w₁.keys, isExcluded w₁ p = true → (∀ q ∈ (add w₀).keys, ¬Comparable p q) → isExcluded w₀ p = true

omit [DecidableEq α] in
lemma mem_keys_of_trackRequired (h : trackRequired w₀ = .ok hash) (p : GitPath) : p ∈ hash.keys ↔ p ∈ (add w₀).keys := by
  rw [FileMap.mem_keys_iff, FileMap.mem_keys_iff, lookup_of_trackRequired h]

omit [DecidableEq α] in
lemma rules_restored (h₀ : RulesCaptured w₀) (h₁ : RulesCaptured w₁) (h : trackRequired w₀ = .ok hash)
    (hlookup : ∀ p, w₂.lookup p = restoredLookup hash w₁ p) : rules w₂ = rules w₀ := by
  funext directory
  unfold rules
  have hcaptured : w₀.lookup (directory ++ [gitignore]) = hash.lookup (directory ++ [gitignore]) := by
    rw [lookup_of_trackRequired h, lookup_add]
    by_cases hmem : directory ++ [gitignore] ∈ w₀.keys
    · rw [h₀ directory hmem]
      rfl
    · rw [FileMap.lookup_eq_none_iff.mpr hmem, ite_self]
  rw [hlookup, hcaptured, restoredLookup]
  split_ifs with hmem hgone
  · rfl
  · exact (FileMap.lookup_eq_none_iff.mpr hmem).symm
  · have hmissing : directory ++ [gitignore] ∉ w₁.keys := fun hthere =>
      hgone (.inl (mem_keys_add.mpr ⟨hthere, h₁ directory hthere⟩))
    rw [FileMap.lookup_eq_none_iff.mpr hmissing, FileMap.lookup_eq_none_iff.mpr hmem]

omit [DecidableEq α] in
lemma isExcluded_restored (h₀ : RulesCaptured w₀) (h₁ : RulesCaptured w₁) (h : trackRequired w₀ = .ok hash)
    (hlookup : ∀ p, w₂.lookup p = restoredLookup hash w₁ p) (p : GitPath) : isExcluded w₂ p = isExcluded w₀ p := by
  rw [isExcluded, rules_restored h₀ h₁ h hlookup]
  rfl

omit [DecidableEq α] in
lemma not_excluded_of_captured (h : trackRequired w₀ = .ok hash) {p : GitPath} (hp : p ∈ hash.keys) :
    isExcluded w₀ p ≠ true :=
  Bool.eq_false_iff.mp (mem_keys_add.mp ((mem_keys_of_trackRequired h p).mp hp)).2

omit [DecidableEq α] [TextDecoder] in
/-- A worktree without `.gitignore` files has all its rules. -/
lemma rulesCaptured_of_forall (h : ∀ p ∈ w₀.keys, gitignore ∉ p) : RulesCaptured w₀ := fun directory hmem =>
  absurd (mem_append_right directory mem_cons_self) (h _ hmem)

omit [DecidableEq α] [TextDecoder] in
lemma plain_of_forall (h : ∀ p ∈ (add w₀).keys ++ (add w₁).keys, Plain p) (p : GitPath)
    (hp : (add w₀).lookup p ≠ (add w₁).lookup p) : Plain p := by
  refine h p (mem_append.mpr ?_)
  by_contra hnot
  obtain ⟨h₀, h₁⟩ := not_or.mp hnot
  exact hp ((FileMap.lookup_eq_none_iff.mpr h₀).trans (FileMap.lookup_eq_none_iff.mpr h₁).symm)

lemma restorable_of_restoresExactly (h₀ : RulesCaptured w₀) (h₁ : RulesCaptured w₁)
    (hplain : ∀ p, Changed hash w₁ p → Plain p) (h : trackRequired w₀ = .ok hash)
    (hexact : RestoresExactly root w₀ w₁ hash) : Restorable w₀ w₁ := by
  have hkeys := mem_keys_of_trackRequired h
  obtain ⟨w₂, hrestore, htrack, hunchanged⟩ := hexact
  have hapart := apart_of_restore hplain hrestore
  obtain ⟨w₂', hrestore', hlookup⟩ := lookup_restored root hplain hapart
  obtain rfl : w₂ = w₂' := Except.ok.inj (hrestore.symm.trans hrestore')
  refine ⟨?_, ?_, ?_⟩
  · intro p hp hnot q hq
    exact hapart p hp (fun hmem => hnot ((hkeys p).mp hmem)) q ((hkeys q).mpr hq)
  · -- a file that is captured now and was not captured before is unlinked
    intro p hp hexcluded hthere
    by_contra hincluded
    have hadded : p ∈ (add w₁).keys := mem_keys_add.mpr ⟨hthere, Bool.eq_false_iff.mpr hincluded⟩
    have hgone := hunchanged p hthere hp hexcluded
    rw [hlookup, restoredLookup, if_neg fun hmem => not_excluded_of_captured h hmem hexcluded,
      if_pos (.inl hadded)] at hgone
    exact FileMap.lookup_eq_none_iff.mp hgone.symm hthere
  · -- a file that stays, excluded only by the changed rules, is captured under the rules of the snapshot
    intro p hthere hexcluded hway
    by_contra hincluded
    have hnot : p ∉ (add w₀).keys := fun hmem => hway p hmem (Comparable.refl p)
    have hleft : w₂.lookup p = w₁.lookup p := by
      rw [hlookup, restoredLookup, if_neg fun hmem => hnot ((hkeys p).mp hmem), if_neg]
      rintro (hmem | ⟨q, hq, hcomp⟩)
      · exact Bool.false_ne_true ((mem_keys_add.mp hmem).2.symm.trans hexcluded)
      · exact hway q ((hkeys q).mp hq) hcomp.symm
    have hsame := (trackRequired_eq_iff h).mp htrack p
    rw [FileMap.lookup_eq_none_iff.mpr hnot, lookup_add, isExcluded_restored h₀ h₁ h hlookup, if_neg hincluded,
      hleft] at hsame
    exact FileMap.lookup_eq_none_iff.mp hsame hthere

omit [DecidableEq α] in
lemma lookup_add_restored (h₀ : RulesCaptured w₀) (h₁ : RulesCaptured w₁) (h : trackRequired w₀ = .ok hash)
    (hlookup : ∀ p, w₂.lookup p = restoredLookup hash w₁ p) (hrestorable : Restorable w₀ w₁) (p : GitPath) :
    (add w₂).lookup p = (add w₀).lookup p := by
  have hkeys := mem_keys_of_trackRequired h
  rw [lookup_add, isExcluded_restored h₀ h₁ h hlookup, hlookup, restoredLookup, lookup_of_trackRequired h]
  by_cases hmem : p ∈ (add w₀).keys
  · rw [if_pos ((hkeys p).mpr hmem), (mem_keys_add.mp hmem).2]
    rfl
  · rw [if_neg fun hp => hmem ((hkeys p).mp hp), FileMap.lookup_eq_none_iff.mpr hmem]
    split_ifs with hexcluded hgone
    · rfl
    · rfl
    · -- what is left and is captured under the rules of the snapshot was not there
      refine FileMap.lookup_eq_none_iff.mpr fun hthere => hexcluded ?_
      obtain ⟨hnotadded, hway⟩ := not_or.mp hgone
      refine hrestorable.settled p hthere ?_ fun q hq hcomp => hway ⟨q, (hkeys q).mpr hq, hcomp.symm⟩
      by_contra hincluded
      exact hnotadded (mem_keys_add.mpr ⟨hthere, Bool.eq_false_iff.mpr hincluded⟩)

end Exact

/-! ## Two worktrees -/

/-- The name `node_modules`. -/
def nodeModules : Name := ⟨[0x6E, 0x6F, 0x64, 0x65, 0x5F, 0x6D, 0x6F, 0x64, 0x75, 0x6C, 0x65, 0x73], by decide⟩

def nameA : Name := ⟨[0x61], by decide⟩

def nameB : Name := ⟨[0x62], by decide⟩

/-- The worktree at `/w`. -/
def rootW : Root := ⟨[['w']], by decide⟩

/-- Rules that exclude the directory `node_modules` everywhere. -/
instance nodeModulesExclusion : Exclusion ℕ where
  excluded := fun _ p => decide (nodeModules ∈ p)

instance strictDecoder : TextDecoder where
  decode := fun bytes => (Utf8.decode? bytes).getD []
  decode_encode := fun text => by rw [Utf8.decode?_eq_some_iff.mpr rfl, Option.getD_some]

/-- A worktree with the files `a` and `node_modules/b`. -/
def installed : Worktree ℕ := ⟨[([nameA], 1), ([nodeModules, nameB], 2)],
  by decide, by decide⟩

def edited : Worktree ℕ := ⟨[([nameA], 3), ([nameB], 4), ([nodeModules, nameB], 2)],
  by decide, by decide⟩

def fileA : Worktree ℕ := ⟨[([nameA], 1)], by decide, by decide⟩

def directoryA : Worktree ℕ := ⟨[([nameA, nameB], 2)], by decide, by decide⟩

end OpenCorvus.Snapshot
