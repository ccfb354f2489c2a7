import OpenCorvus.Memory.MemoryChanges

/-!
# The pending entries as a queue

When every first capture sorts after the pending entries, and no occurrence is captured again after its entry has
left, the captured occurrences of a Project are those that left its pending entries, in the order in which they
left, followed by those that are pending.
-/

namespace OpenCorvus.Memory

open OrderBy LatestRow List

section Parts

variable {β : Type} [DecidableEq β] {xs ys : List β}

lemma filter_notMem_left (h : (xs ++ ys).Nodup) : ((xs ++ ys).filter fun x => x ∉ xs) = ys := by
  have hdisjoint : ∀ y ∈ ys, y ∉ xs := fun y hy hx => (nodup_append.mp h).2.2 y hx y hy rfl
  have hleft : (xs.filter fun x => x ∉ xs) = [] := filter_eq_nil_iff.mpr fun x hx => by simpa using hx
  rw [filter_append, hleft, nil_append]
  exact filter_eq_self.mpr fun y hy => decide_eq_true (hdisjoint y hy)

/-- What is left of a list when its last part is taken away. -/
lemma filter_notMem_right (h : (xs ++ ys).Nodup) : ((xs ++ ys).filter fun x => x ∉ ys) = xs := by
  have hdisjoint : ∀ x ∈ xs, x ∉ ys := fun x hx hy => (nodup_append.mp h).2.2 x hx x hy rfl
  have hright : (ys.filter fun x => x ∉ ys) = [] := filter_eq_nil_iff.mpr fun x hx => by simpa using hx
  rw [filter_append, hright, List.append_nil]
  exact filter_eq_self.mpr fun x hx => decide_eq_true (hdisjoint x hx)

end Parts

section Rows

variable [FileIdentity]

/-- Every entry is stored once, under the identity of its occurrence. -/
structure Tables.WellFormed (m : Tables) : Prop where
  nodup : (m.files.map FileRow.id).Nodup
  id : ∀ row ∈ m.files, row.id = fileID row.key
  key : ∀ row ∈ m.files, row.content.key = row.key

variable {m m' : Tables} {projectID other : String} {row : FileRow} {n : ℕ}

lemma Tables.WellFormed.keyInjective (h : m.WellFormed) : KeyInjective FileRow.orderKey m.files := by
  intro left hleft right hright heq
  exact inj_on_of_nodup_map h.nodup hleft hright (congrArg (fun key => (ofLex key).2) heq)

omit [FileIdentity] in
lemma Tables.mem_pendingRows : row ∈ m.pendingRows projectID ↔ row ∈ m.files ∧ row.key.projectID = projectID := by
  rw [Tables.pendingRows, mem_orderBy, mem_filter, decide_eq_true_iff]

lemma Tables.WellFormed.nodup_pendingRows (h : m.WellFormed) (projectID : String) : (m.pendingRows projectID).Nodup :=
  (orderBy_perm _ _).nodup_iff.mpr ((Nodup.of_map _ h.nodup).filter _)

lemma Tables.WellFormed.pendingRows_deleteFiles (h : m.WellFormed) {ids : List String}
    (hfiles : m'.files = (m.deleteFiles projectID ids).files) :
    m'.pendingRows other =
      if other = projectID then (m.pendingRows projectID).filter fun row => row.id ∉ ids else m.pendingRows other := by
  have hrows : m'.pendingRows other = orderBy FileRow.orderKey
      ((m.files.filter fun row => ¬(row.key.projectID = projectID ∧ row.id ∈ ids)).filter
        fun row => row.key.projectID = other) := by
    rw [Tables.pendingRows, hfiles]
    rfl
  rw [hrows, List.filter_filter]
  split_ifs with hother
  · subst hother
    rw [Tables.pendingRows, filter_orderBy (h.keyInjective.filter _), List.filter_filter]
    refine congrArg _ (filter_congr fun row _ => ?_)
    by_cases hproject : row.key.projectID = other <;> simp [hproject]
  · refine congrArg _ (filter_congr fun row _ => ?_)
    by_cases hproject : row.key.projectID = other
    · simp [hproject, hother]
    · simp [hproject]

lemma Tables.WellFormed.pendingRows_taken (h : m.WellFormed) {document : Envelope}
    (htaken : m.Taken projectID n m' document) :
    m'.pendingRows projectID = (m.pendingRows projectID).drop n ∧
      ∀ other ≠ projectID, m'.pendingRows other = m.pendingRows other := by
  refine ⟨?_, fun other hother => by rw [h.pendingRows_deleteFiles htaken.files, if_neg hother]⟩
  rw [h.pendingRows_deleteFiles htaken.files, if_pos rfl]
  have hnodup := h.nodup_pendingRows projectID
  have hids : ∀ row ∈ m.pendingRows projectID,
      (row.id ∈ ((m.pendingRows projectID).take n).map FileRow.id ↔ row ∈ (m.pendingRows projectID).take n) := by
    intro row hrow
    refine ⟨fun hmem => ?_, List.mem_map_of_mem⟩
    obtain ⟨_, hfound, hid⟩ := List.mem_map.mp hmem
    have hfiles := (Tables.mem_pendingRows.mp (mem_of_mem_take hfound)).1
    rwa [← inj_on_of_nodup_map h.nodup hfiles (Tables.mem_pendingRows.mp hrow).1 hid]
  have hfilter : ((m.pendingRows projectID).filter fun row =>
        row.id ∉ ((m.pendingRows projectID).take n).map FileRow.id) =
      (m.pendingRows projectID).filter fun row => row ∉ (m.pendingRows projectID).take n :=
    filter_congr fun row hrow => decide_eq_decide.mpr (not_congr (hids row hrow))
  rw [hfilter]
  have hsplit := take_append_drop n (m.pendingRows projectID)
  have hleft := filter_notMem_left (hsplit ▸ hnodup)
  rwa [hsplit] at hleft

lemma Tables.WellFormed.removedKeys_taken (h : m.WellFormed) {document : Envelope}
    (htaken : m.Taken projectID n m' document) :
    removedKeys projectID m m' = ((m.pendingRows projectID).take n).map FileRow.key := by
  have hsplit := take_append_drop n (m.pendingRows projectID)
  have hright := filter_notMem_right (hsplit ▸ h.nodup_pendingRows projectID)
  rw [hsplit] at hright
  rw [removedKeys, (h.pendingRows_taken htaken).1, hright]

lemma Tables.WellFormed.pendingRows_append (h : m.WellFormed)
    (hlast : ∀ old ∈ m.pendingRows row.key.projectID, old.orderKey < row.orderKey)
    (hfiles : m'.files = m.files ++ [row]) :
    m'.pendingRows other =
      if other = row.key.projectID then m.pendingRows other ++ [row] else m.pendingRows other := by
  rw [Tables.pendingRows, hfiles, filter_append]
  split_ifs with hother
  · subst hother
    rw [filter_singleton, decide_eq_true rfl, cond_true, orderBy_concat (h.keyInjective.filter _)]
    · rfl
    · intro old hold
      exact hlast old (mem_orderBy.mpr hold)
  · rw [filter_singleton, decide_eq_false (Ne.symm hother), cond_false, List.append_nil]
    rfl

end Rows

end OpenCorvus.Memory
