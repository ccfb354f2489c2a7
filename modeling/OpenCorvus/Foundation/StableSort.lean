import OpenCorvus.Foundation.EcmaScript

/-!
# When sorting is determined by the values

A stable sort leaves sorted values alone.  When the comparator tells the values apart, what it answers does not
depend on the order in which they are supplied.
-/

namespace EcmaScript

open List

variable {β : Type*} {cmp : β → β → Ordering}

variable {values : List β} {x y : β}

lemma pair_sublist_or (hx : x ∈ values) (hy : y ∈ values) (hne : x ≠ y) :
    [x, y].Sublist values ∨ [y, x].Sublist values := by
  obtain ⟨_, after, rfl⟩ := append_of_mem hx
  rcases mem_append.mp hy with hbefore | hafter
  · exact Or.inr ((singleton_sublist.mpr hbefore).append (singleton_sublist.mpr mem_cons_self))
  · have hrest : y ∈ after := (mem_cons.mp hafter).resolve_left hne.symm
    exact Or.inl (((singleton_sublist.mpr hrest).cons_cons x).trans (sublist_append_right _ _))

lemma eq_of_pair_sublist_of_nodup (hnodup : values.Nodup) (h : [x, y].Sublist values) (h' : [y, x].Sublist values) :
    x = y := by
  induction values with
  | nil => cases h
  | cons _ _ ih =>
    obtain ⟨hz, hnodup⟩ := nodup_cons.mp hnodup
    cases h with
    | cons _ h =>
      cases h' with
      | cons _ h' => exact ih hnodup h h'
      | cons_cons => exact absurd (h.subset (mem_cons_of_mem _ mem_cons_self)) hz
    | cons_cons =>
      cases h' with
      | cons _ h' => exact absurd (h'.subset (mem_cons_of_mem _ mem_cons_self)) hz
      | cons_cons => rfl

lemma toSorted_of_pairwise (h : values.Pairwise fun left right => (cmp left right).isLE = true) :
    toSorted cmp values = values :=
  Pairwise.insertionSort_eq h

lemma pair_sublist_toSorted (h : [x, y].Sublist values) (hle : (cmp x y).isLE = true) :
    [x, y].Sublist (toSorted cmp values) :=
  pair_sublist_insertionSort hle h

variable [Std.TransCmp cmp]

lemma head?_toSorted_of_forall_lt (hx : x ∈ values) (h : ∀ y ∈ values, y ≠ x → cmp x y = .lt) :
    (toSorted cmp values).head? = some x := by
  cases hsorted : toSorted cmp values with
  | nil =>
    rw [toSorted_eq_nil] at hsorted
    simp [hsorted] at hx
  | cons first =>
    have hfirst : first ∈ values := mem_toSorted.mp (hsorted ▸ mem_cons_self)
    by_contra hne
    rw [head?_cons, Option.some.injEq] at hne
    have hgt : cmp first x = .gt := Std.OrientedCmp.gt_of_lt (h first hfirst hne)
    have hle := toSorted_head_isLE hsorted hx
    rw [hgt] at hle
    cases hle

lemma pair_sublist_toSorted_of_lt (hx : x ∈ values) (hy : y ∈ values) (hlt : cmp x y = .lt) :
    [x, y].Sublist (toSorted cmp values) := by
  have hne : x ≠ y := by
    rintro rfl
    have hself : cmp x x = .eq := Std.ReflCmp.compare_self
    rw [hself] at hlt
    cases hlt
  refine (pair_sublist_or (mem_toSorted.mpr hx) (mem_toSorted.mpr hy) hne).resolve_right fun hswapped => ?_
  have hle : (cmp y x).isLE = true := pairwise_iff_forall_sublist.mp (pairwise_toSorted values) hswapped
  rw [Std.OrientedCmp.gt_of_lt hlt] at hle
  cases hle

lemma toSorted_eq_filter_append {κ : Type*} [LinearOrder κ] {key : β → κ} {greatest : κ}
    (hle : ∀ x ∈ values, key x ≤ greatest)
    (hsorted : (values.filter fun x => key x < greatest).Pairwise fun x y => key x ≤ key y) :
    toSorted (fun x y => compare (key x) (key y)) values =
      (values.filter fun x => key x < greatest) ++ values.filter fun x => key x = greatest := by
  have hisLE : ∀ x y, (compare (key x) (key y)).isLE = true ↔ key x ≤ key y := by
    intro x y
    exact Ordering.isLE_iff_ne_gt.trans compare_le_iff_le
  -- A value is put before everything that is not below it.
  have hinsert : ∀ (x : β) (rest : List β), (∀ y ∈ rest, key x ≤ key y) →
      List.orderedInsert (fun x y => (compare (key x) (key y)).isLE = true) x rest = x :: rest := by
    intro x rest hrest
    cases rest with
    | nil => rfl
    | cons y rest => exact orderedInsert_cons_of_le _ rest ((hisLE x y).mpr (hrest y mem_cons_self))
  have hskip : ∀ (x : β) (below rest : List β), (∀ y ∈ below, key y < key x) →
      List.orderedInsert (fun x y => (compare (key x) (key y)).isLE = true) x (below ++ rest) =
        below ++ List.orderedInsert (fun x y => (compare (key x) (key y)).isLE = true) x rest := by
    intro x below rest hbelow
    induction below with
    | nil => rfl
    | cons y _ ih =>
      have hyx : ¬(compare (key x) (key y)).isLE = true := by
        rw [hisLE, not_le]
        exact hbelow y mem_cons_self
      rw [cons_append, orderedInsert_cons, if_neg hyx, ih fun z hz => hbelow z (mem_cons_of_mem y hz)]
      rfl
  induction values with
  | nil => rfl
  | cons x values ih =>
    have hbelow : ∀ y ∈ values.filter fun y => key y < greatest, key y < greatest := by simp
    have hgreatest : ∀ y ∈ values.filter fun y => key y = greatest, key y = greatest := by simp
    have hrest : (values.filter fun y => key y < greatest).Pairwise fun y z => key y ≤ key z :=
      hsorted.sublist ((sublist_cons_self x values).filter _)
    have hstep : toSorted (fun x y => compare (key x) (key y)) (x :: values) =
        List.orderedInsert (fun x y => (compare (key x) (key y)).isLE = true) x
          (toSorted (fun x y => compare (key x) (key y)) values) := rfl
    rw [hstep, ih (fun y hy => hle y (mem_cons_of_mem x hy)) hrest]
    rcases (hle x mem_cons_self).lt_or_eq with hlt | heq
    · rw [filter_cons_of_pos (by simp [hlt])] at hsorted ⊢
      rw [filter_cons_of_neg (by simp [hlt.ne]), cons_append]
      refine hinsert x _ fun y hy => ?_
      rcases mem_append.mp hy with hy | hy
      · exact (pairwise_cons.mp hsorted).1 y hy
      · exact hlt.le.trans (hgreatest y hy).ge
    · rw [filter_cons_of_neg (by simp [heq]), filter_cons_of_pos (by simp [heq]),
        hskip x _ _ fun y hy => heq ▸ hbelow y hy, hinsert x _ fun y hy => heq.le.trans (hgreatest y hy).ge]

@[simp] lemma toSorted_idem (values : List β) : toSorted cmp (toSorted cmp values) = toSorted cmp values :=
  toSorted_of_pairwise (pairwise_toSorted values)

theorem toSorted_eq_of_perm {values' : List β} (hperm : values.Perm values')
    (h : ∀ x ∈ values, ∀ y ∈ values, cmp x y = .eq → x = y) : toSorted cmp values = toSorted cmp values' := by
  have hperm' : (toSorted cmp values).Perm (toSorted cmp values') :=
    (toSorted_perm cmp values).trans (hperm.trans (toSorted_perm cmp values').symm)
  refine hperm'.eq_of_pairwise (fun x y hx hy hxy hyx => ?_) (pairwise_toSorted values) (pairwise_toSorted values')
  refine h x (mem_toSorted.mp hx) y (hperm.symm.subset (mem_toSorted.mp hy)) ?_
  exact Std.OrientedCmp.isLE_antisymm hxy hyx

end EcmaScript
