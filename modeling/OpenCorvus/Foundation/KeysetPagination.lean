import Mathlib.Data.List.Sort

/-!
# Keyset pagination

A table is read in order of a key, in pages of bounded length.  Each page starts after a cursor, the
key of the last row of the page before.  The reading stops at an empty page or at a page that is not
full.

When no two rows share a key, the pages are the table in order: no row is read twice, and none is
left out.
-/

namespace KeysetPagination

open List

variable {ρ κ : Type*} [LinearOrder κ] (key : ρ → κ)

def ordered (rows : List ρ) : List ρ := rows.insertionSort fun r s => key r ≤ key s

def following (rows : List ρ) (after : Option κ) : List ρ :=
  rows.filter fun r => after.all fun cursor => cursor < key r

def page (rows : List ρ) (limit : ℕ) (after : Option κ) : List ρ :=
  (ordered key (following key rows after)).take limit

def next (limit : ℕ) (rows : List ρ) : Option κ :=
  if rows.length = limit then rows.getLast?.map key else none

/-- The pages after a cursor, one after the other; the number bounds how many are read. -/
def pages (rows : List ρ) (limit : ℕ) : ℕ → Option κ → List ρ
  | 0, _ => []
  | fuel + 1, after =>
    match page key rows limit after with
    | [] => []
    | r :: rest =>
      match next key limit (r :: rest) with
      | none => r :: rest
      | some cursor => (r :: rest) ++ pages rows limit fuel (some cursor)

variable {key}

variable {rows : List ρ} {after : Option κ}

@[simp] lemma mem_ordered {r : ρ} : r ∈ ordered key rows ↔ r ∈ rows :=
  (perm_insertionSort _ rows).mem_iff

@[simp] lemma length_ordered (rows : List ρ) : (ordered key rows).length = rows.length :=
  (perm_insertionSort _ rows).length_eq

@[simp] lemma mem_following {r : ρ} :
    r ∈ following key rows after ↔ r ∈ rows ∧ ∀ cursor ∈ after, cursor < key r := by
  unfold following
  cases after <;> simp

lemma pairwise_ordered (hkeys : rows.Pairwise fun r s => key r ≠ key s) :
    (ordered key rows).Pairwise fun r s => key r < key s := by
  have htotal : Std.Total fun r s : ρ => key r ≤ key s := ⟨fun r s => le_total (key r) (key s)⟩
  have htrans : IsTrans ρ fun r s => key r ≤ key s := ⟨fun _ _ _ h h' => le_trans h h'⟩
  have hsorted := List.pairwise_insertionSort (fun r s : ρ => key r ≤ key s) rows
  have hdistinct : (ordered key rows).Pairwise fun r s => key r ≠ key s :=
    (perm_insertionSort _ rows).symm.pairwise hkeys fun h => h.symm
  exact (hsorted.and hdistinct).imp fun h => lt_of_le_of_ne h.1 h.2

lemma eq_of_pairwise_lt {xs ys : List ρ} (hxs : xs.Pairwise fun r s => key r < key s)
    (hys : ys.Pairwise fun r s => key r < key s) (hmem : ∀ r, r ∈ xs ↔ r ∈ ys) : xs = ys := by
  have hnodup : ∀ {zs : List ρ}, zs.Pairwise (fun r s => key r < key s) → zs.Nodup :=
    fun h => h.imp fun hlt heq => absurd hlt (by rw [heq]; exact lt_irrefl _)
  have hperm : xs.Perm ys := (perm_ext_iff_of_nodup (hnodup hxs) (hnodup hys)).mpr hmem
  refine hperm.eq_of_pairwise (fun r s _ _ hrs hsr => ?_) hxs hys
  exact absurd hrs (lt_asymm hsr)

lemma ordered_following_next {limit : ℕ} {cursor : κ} (hkeys : rows.Pairwise fun r s => key r ≠ key s)
    (hnext : next key limit (page key rows limit after) = some cursor) :
    ordered key (following key rows (some cursor)) =
      (ordered key (following key rows after)).drop limit := by
  have hfollowing : ∀ c, (following key rows c).Pairwise fun r s => key r ≠ key s :=
    fun c => hkeys.sublist filter_sublist
  have hordered := pairwise_ordered (hfollowing after)
  unfold next page at hnext
  split_ifs at hnext with hfull
  obtain ⟨last, hlast, rfl⟩ := Option.map_eq_some_iff.mp hnext
  -- The ordered rows are the page, which ends with the cursor, followed by the rest.
  have hsplit := take_append_drop limit (ordered key (following key rows after))
  set taken := (ordered key (following key rows after)).take limit
  set rest := (ordered key (following key rows after)).drop limit
  have hmemLast : last ∈ taken := mem_of_getLast? hlast
  have hparts : taken.Pairwise (fun r s => key r < key s) ∧
      rest.Pairwise (fun r s => key r < key s) ∧ ∀ r ∈ taken, ∀ s ∈ rest, key r < key s := by
    rw [← hsplit] at hordered
    exact pairwise_append.mp hordered
  have hbefore : ∀ r ∈ taken, key r ≤ key last := by
    intro r hr
    obtain ⟨_, hfront⟩ := getLast?_eq_some_iff.mp hlast
    rw [hfront] at hr hparts
    rcases mem_append.mp hr with hold | hnew
    · exact ((pairwise_append.mp hparts.1).2.2 r hold last (mem_singleton_self _)).le
    · rw [mem_singleton.mp hnew]
  have hall : ∀ r, r ∈ taken ∨ r ∈ rest ↔ r ∈ rows ∧ ∀ c ∈ after, c < key r := by
    intro r
    rw [← mem_append, hsplit, mem_ordered, mem_following]
  have hafter : ∀ c ∈ after, c < key last := ((hall last).mp (Or.inl hmemLast)).2
  refine eq_of_pairwise_lt (pairwise_ordered (hfollowing (some (key last)))) hparts.2.1 ?_
  intro r
  rw [mem_ordered, mem_following]
  constructor
  · rintro ⟨hrow, hcursor⟩
    have hlt : key last < key r := hcursor _ rfl
    rcases (hall r).mpr ⟨hrow, fun c hc => (hafter c hc).trans hlt⟩ with htaken | hrest
    · exact absurd (hbefore r htaken) (not_le.mpr hlt)
    · exact hrest
  · intro hrest
    refine ⟨((hall r).mp (Or.inr hrest)).1, ?_⟩
    rintro _ ⟨⟩
    exact hparts.2.2 last hmemLast r hrest

theorem pages_eq_ordered {limit : ℕ} (hlimit : 0 < limit) (hkeys : rows.Pairwise fun r s => key r ≠ key s)
    {fuel : ℕ} (hfuel : (following key rows after).length < fuel) :
    pages key rows limit fuel after = ordered key (following key rows after) := by
  -- Each page that is not the last one leaves fewer rows to read.
  induction fuel generalizing after with
  | zero => omega
  | succ fuel ih =>
    have hlength : (page key rows limit after).length = min limit (following key rows after).length := by
      unfold page
      rw [length_take, length_ordered]
    unfold pages
    split
    · rename_i hpage
      rw [hpage, length_nil] at hlength
      have hnil : (ordered key (following key rows after)).length = 0 := by
        rw [length_ordered]
        omega
      exact (length_eq_zero_iff.mp hnil).symm
    · rename_i r rest hpage
      rw [← hpage]
      split
      · rename_i hnext
        have hnotFull : (page key rows limit after).length ≠ limit := by
          intro hfull
          unfold next at hnext
          rw [if_pos hfull, hpage] at hnext
          simp at hnext
        have hshort : (ordered key (following key rows after)).length ≤ limit := by
          rw [length_ordered]
          omega
        unfold page
        rw [take_of_length_le hshort]
      · rename_i cursor hnext
        have hdrop := ordered_following_next hkeys hnext
        have hpositive : 0 < (page key rows limit after).length := by
          rw [hpage]
          exact Nat.succ_pos _
        have hfewer : (following key rows (some cursor)).length < fuel := by
          have hlength' : (ordered key (following key rows (some cursor))).length =
              (following key rows (some cursor)).length := length_ordered _
          rw [hdrop, length_drop, length_ordered] at hlength'
          omega
        rw [ih hfewer, hdrop]
        unfold page
        exact take_append_drop _ _

end KeysetPagination
