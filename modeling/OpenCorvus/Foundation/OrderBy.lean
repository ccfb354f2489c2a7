import Mathlib.Data.List.Sort
import OpenCorvus.Foundation.LatestRow

/-!
# Rows in the order of a key

A query `ORDER BY key` answers with the rows sorted by a key.  When no two rows share the key, the answer
is determined by the set of rows: a selection can be taken before or after the sort, and the last row is
the latest one.
-/

namespace OrderBy

open LatestRow List

variable {ρ κ : Type*} [LinearOrder κ] {key : ρ → κ} {rows rows' : List ρ}

def orderBy (key : ρ → κ) (rows : List ρ) : List ρ :=
  rows.insertionSort fun left right => key left ≤ key right

lemma orderBy_perm (key : ρ → κ) (rows : List ρ) : (orderBy key rows).Perm rows :=
  perm_insertionSort _ rows

@[simp] lemma mem_orderBy {row : ρ} : row ∈ orderBy key rows ↔ row ∈ rows :=
  (orderBy_perm key rows).mem_iff

@[simp] lemma length_orderBy : (orderBy key rows).length = rows.length :=
  (orderBy_perm key rows).length_eq

lemma pairwise_orderBy : (orderBy key rows).Pairwise fun left right => key left ≤ key right := by
  have htotal : Std.Total fun left right : ρ => key left ≤ key right := ⟨fun _ _ => le_total _ _⟩
  have htrans : IsTrans ρ fun left right => key left ≤ key right := ⟨fun _ _ _ => le_trans⟩
  exact List.pairwise_insertionSort _ rows

lemma eq_of_perm (h : KeyInjective key rows) (hperm : rows.Perm rows')
    (hrows : rows.Pairwise fun left right => key left ≤ key right)
    (hrows' : rows'.Pairwise fun left right => key left ≤ key right) : rows = rows' := by
  refine hperm.eq_of_pairwise (fun r s hr hs hle hge => ?_) hrows hrows'
  exact h r hr s (hperm.mem_iff.mpr hs) (le_antisymm hle hge)

lemma orderBy_congr_key {κ' : Type*} [LinearOrder κ'] {key' : ρ → κ'}
    (h : ∀ r ∈ rows, ∀ s ∈ rows, key r ≤ key s ↔ key' r ≤ key' s) :
    orderBy key rows = orderBy key' rows := by
  have hmap := map_insertionSort (fun left right => key left ≤ key right)
    (fun left right => key' left ≤ key' right) id rows h
  rwa [List.map_id, List.map_id] at hmap

lemma filter_orderBy (h : KeyInjective key rows) (p : ρ → Bool) :
    (orderBy key rows).filter p = orderBy key (rows.filter p) := by
  have hperm : ((orderBy key rows).filter p).Perm (orderBy key (rows.filter p)) :=
    ((orderBy_perm key rows).filter p).trans (orderBy_perm key _).symm
  refine eq_of_perm (fun r hr s hs => ?_) hperm (pairwise_orderBy.filter p) pairwise_orderBy
  exact h r (mem_orderBy.mp (mem_of_mem_filter hr)) s (mem_orderBy.mp (mem_of_mem_filter hs))

lemma getLast?_eq_argmax (h : KeyInjective key rows') (hmem : ∀ row, row ∈ rows ↔ row ∈ rows')
    (hsorted : rows.Pairwise fun left right => key left ≤ key right) :
    rows.getLast? = rows'.argmax key := by
  cases hlast : rows.getLast? with
  | none =>
    have hnil : rows' = [] := by
      rw [getLast?_eq_none_iff] at hlast
      rw [eq_nil_iff_forall_not_mem]
      intro row hrow
      have hin := (hmem row).mpr hrow
      rw [hlast] at hin
      cases hin
    rw [hnil, argmax_nil]
  | some last =>
    symm
    rw [argmax_eq_some_iff_of_keyInjective h]
    obtain ⟨_, hinit⟩ := getLast?_eq_some_iff.mp hlast
    rw [hinit, pairwise_append] at hsorted
    refine ⟨(hmem last).mp (by rw [hinit]; simp), fun row hrow => ?_⟩
    have hin := (hmem row).mpr hrow
    rw [hinit] at hin
    rcases mem_append.mp hin with hbefore | hself
    · exact hsorted.2.2 row hbefore last (mem_singleton_self last)
    · rw [mem_singleton.mp hself]

lemma getLast?_orderBy (h : KeyInjective key rows) : (orderBy key rows).getLast? = rows.argmax key :=
  getLast?_eq_argmax h (fun _ => mem_orderBy) pairwise_orderBy

lemma pair_sublist_orderBy {r s : ρ} (hr : r ∈ rows) (hs : s ∈ rows) (hlt : key r < key s) :
    [r, s].Sublist (orderBy key rows) := by
  have hsorted : (orderBy key rows).Pairwise fun left right => key left ≤ key right := pairwise_orderBy
  obtain ⟨before, after, hsplit⟩ := append_of_mem (mem_orderBy.mpr hs : s ∈ orderBy key rows)
  have hmem : r ∈ orderBy key rows := mem_orderBy.mpr hr
  rw [hsplit] at hsorted hmem ⊢
  have hbefore : r ∈ before := by
    rcases mem_append.mp hmem with hbefore | hafter
    · exact hbefore
    · rcases mem_cons.mp hafter with rfl | hlater
      · exact absurd hlt (lt_irrefl _)
      · have hle := (pairwise_cons.mp (pairwise_append.mp hsorted).2.1).1 r hlater
        exact absurd hlt (not_lt.mpr hle)
  have hpair := (singleton_sublist.mpr hbefore).append
    (singleton_sublist.mpr (mem_cons_self : s ∈ s :: after))
  exact hpair

lemma orderBy_concat (h : KeyInjective key rows) {row : ρ} (hlast : ∀ r ∈ rows, key r < key row) :
    orderBy key (rows ++ [row]) = orderBy key rows ++ [row] := by
  have hinj : KeyInjective key (rows ++ [row]) := by
    intro r hr s hs heq
    rcases mem_append.mp hr with hr | hr <;> rcases mem_append.mp hs with hs | hs
    · exact h r hr s hs heq
    · exact absurd heq (mem_singleton.mp hs ▸ hlast r hr).ne
    · exact absurd heq (mem_singleton.mp hr ▸ hlast s hs).ne'
    · exact (mem_singleton.mp hr).trans (mem_singleton.mp hs).symm
  have hperm : (orderBy key (rows ++ [row])).Perm (orderBy key rows ++ [row]) :=
    (orderBy_perm key _).trans ((orderBy_perm key rows).symm.append_right [row])
  have hsorted : (orderBy key rows ++ [row]).Pairwise fun left right => key left ≤ key right := by
    refine pairwise_append.mpr ⟨pairwise_orderBy, pairwise_singleton _ _, fun r hr s hs => ?_⟩
    rw [mem_singleton.mp hs]
    exact (hlast r (mem_orderBy.mp hr)).le
  refine eq_of_perm (fun r hr s hs => ?_) hperm pairwise_orderBy hsorted
  exact hinj r (mem_orderBy.mp hr) s (mem_orderBy.mp hs)

lemma orderBy_of_pairwise (h : rows.Pairwise fun left right => key left ≤ key right) : orderBy key rows = rows :=
  Pairwise.insertionSort_eq h

lemma keyInjective_of_pairwise (h : rows.Pairwise fun left right => key left < key right) :
    KeyInjective key rows := by
  intro r hr s hs heq
  have hne : rows.Pairwise fun left right => key left ≠ key right := h.imp fun {_ _} hlt => ne_of_lt hlt
  exact inj_on_of_nodup_map (pairwise_map.mpr hne) hr hs heq

lemma argmax_of_pairwise (h : rows.Pairwise fun left right => key left < key right) :
    rows.argmax key = rows.getLast? := by
  have hle : rows.Pairwise fun left right => key left ≤ key right := h.imp fun {_ _} hlt => le_of_lt hlt
  exact (getLast?_eq_argmax (keyInjective_of_pairwise h) (fun _ => Iff.rfl) hle).symm

end OrderBy
