import Mathlib.Algebra.Order.Field.Rat
import Mathlib.Data.List.Sort

/-!
# Sorting with a comparator

`Array.prototype.sort` promises a sorted, stable result only when the comparator is consistent on the values of
the array.  Otherwise the result is some permutation of the values.
-/

namespace ArraySort

variable {β : Type} {cmp : β → β → ℚ} {values values' : List β}

/-- The comparator orders the values of an array. -/
structure ConsistentOn (cmp : β → β → ℚ) (values : List β) : Prop where
  total : ∀ x ∈ values, ∀ y ∈ values, cmp x y ≤ 0 ∨ cmp y x ≤ 0
  trans : ∀ x ∈ values, ∀ y ∈ values, ∀ z ∈ values, cmp x y ≤ 0 → cmp y z ≤ 0 → cmp x z ≤ 0

/-- What every host promises of its sort of arrays of one type. -/
structure Host (β : Type) where
  sort : (β → β → ℚ) → List β → List β
  perm : ∀ cmp values, (sort cmp values).Perm values
  sorted : ∀ cmp values, ConsistentOn cmp values → (sort cmp values).Pairwise fun x y => cmp x y ≤ 0
  stable : ∀ cmp values, ConsistentOn cmp values → ∀ x y, cmp x y = 0 →
    [x, y].Sublist values → [x, y].Sublist (sort cmp values)

def insertionSort (cmp : β → β → ℚ) (values : List β) : List β :=
  values.insertionSort fun x y => cmp x y ≤ 0

lemma ConsistentOn.subset (h : ConsistentOn cmp values) (hsub : values' ⊆ values) : ConsistentOn cmp values' where
  total x hx y hy := h.total x (hsub hx) y (hsub hy)
  trans x hx y hy z hz := h.trans x (hsub hx) y (hsub hy) z (hsub hz)

lemma ConsistentOn.pairwise_insertionSort (h : ConsistentOn cmp values) :
    (insertionSort cmp values).Pairwise fun x y => cmp x y ≤ 0 := by
  let r (x y : {x // x ∈ values}) : Prop := cmp x.1 y.1 ≤ 0
  have : Std.Total r := ⟨fun x y => h.total x.1 x.2 y.1 y.2⟩
  have : IsTrans {x // x ∈ values} r := ⟨fun x y z => h.trans x.1 x.2 y.1 y.2 z.1 z.2⟩
  have hmap : (values.attach.insertionSort r).map Subtype.val = insertionSort cmp values := by
    rw [List.map_insertionSort r (fun x y => cmp x y ≤ 0) Subtype.val values.attach fun _ _ _ _ => Iff.rfl,
      List.attach_map_subtype_val, insertionSort]
  rw [← hmap]
  exact List.pairwise_map.mpr (List.pairwise_insertionSort r values.attach)

def insertionHost : Host β where
  sort := insertionSort
  perm _ values := List.perm_insertionSort _ values
  sorted _ _ h := h.pairwise_insertionSort
  stable _ _ _ _ _ hxy := List.pair_sublist_insertionSort hxy.le

open Classical in
/-- A host that leaves an array alone when the comparator is inconsistent. -/
noncomputable def lazyHost : Host β where
  sort cmp values := if ConsistentOn cmp values then insertionSort cmp values else values
  perm cmp values := by
    split_ifs
    · exact List.perm_insertionSort _ values
    · exact List.Perm.refl _
  sorted cmp values h := by
    rw [if_pos h]
    exact h.pairwise_insertionSort
  stable cmp values h x y hxy := by
    rw [if_pos h]
    exact List.pair_sublist_insertionSort hxy.le

lemma sort_lazyHost (h : ¬ConsistentOn cmp values) : lazyHost.sort cmp values = values :=
  if_neg h

/-- A comparator that is consistent and tells the values apart sorts them in one way. -/
lemma Host.sort_eq_of_perm (host : Host β) (hperm : values'.Perm values) (h : ConsistentOn cmp values)
    (hantisymm : ∀ x ∈ values, ∀ y ∈ values, cmp x y ≤ 0 → cmp y x ≤ 0 → x = y) :
    host.sort cmp values' = host.sort cmp values := by
  have hsorted := (host.perm cmp values').trans (hperm.trans (host.perm cmp values).symm)
  refine hsorted.eq_of_pairwise (fun x y hx hy hxy hyx => ?_) (host.sorted cmp values' (h.subset hperm.subset))
    (host.sorted cmp values h)
  exact hantisymm x (hperm.subset ((host.perm cmp values').subset hx)) y ((host.perm cmp values).subset hy) hxy hyx

end ArraySort
